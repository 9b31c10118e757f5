import Cqasm.Overload.Basic
import Cqasm.Ty.Promotion

/-!
# Overload resolution

A call is resolved by its name and the types of its arguments. An overload is applicable if it has
as many parameters as there are arguments and each argument converts to its parameter. The cost of
an applicable overload is the sequence of the ranks of these conversions. An argument without a
type stems from an error that has been reported; it fits any parameter and costs nothing.

One cost dominates another if it is nowhere larger and not the same. The call is resolved to the
one applicable overload whose cost no other dominates. If several are left the call is ambiguous,
and they are reported in lexicographic order of their costs, equal costs in registration order.

## Main definitions

* `callCost?` : the cost of calling an overload, if it is applicable;
* `dominates` : the order on costs;
* `applicable`, `undominated` : the candidates, and the best of them;
* `resolve` : the overload of a call, or a `ResolveError`.
-/

namespace Cqasm

/-- Why a call has no overload. -/
inductive ResolveError where
  /-- There is no overload set of the name. -/
  | unknown (name : String)
  /-- No overload is applicable to the arguments. -/
  | noMatch (name : String) (args : List Ty)
  /-- Several overloads are applicable and none is better than all others. -/
  | ambiguous (name : String) (candidates : List Overload)
deriving Repr, DecidableEq

namespace ResolveError

/-- The text about a call that no overload accepts. -/
def noMatchText (name : String) (args : List Ty) : String :=
  "no overload of `" ++ name ++ "` accepts (" ++ Ty.displayList args ++ ")"

/-- The text about a call that several overloads accept. -/
def ambiguousText (name : String) (candidates : List Overload) : String :=
  "call to `" ++ name ++ "` is ambiguous between "
    ++ " and ".intercalate (candidates.map fun o => "`" ++ o.display ++ "`")

/-- The text of the error. -/
def message : ResolveError → String
  | unknown name => "no overload set named `" ++ name ++ "`"
  | noMatch name args => noMatchText name args
  | ambiguous name candidates => ambiguousText name candidates

end ResolveError

/-- An applicable overload and its cost, one rank per argument. -/
structure Candidate where
  overload : Overload
  cost : List Nat
deriving Repr, DecidableEq

/-- The cost of passing an argument of type `arg` for a parameter of type `param`. -/
def argCost? (rules : Promotions) (param arg : Ty) : Option Nat :=
  if arg.isDefined then rules.rank? arg param else some 0

/-- The costs of passing arguments of the given types for the parameters, in order; none if there
are too few or too many or if one does not convert. -/
def callCost? (rules : Promotions) : List Ty → List Ty → Option (List Nat)
  | [], [] => some []
  | param :: params, arg :: args =>
    (argCost? rules param arg).bind fun cost => (callCost? rules params args).map (cost :: ·)
  | _, _ => none

/-- Is the cost `c` nowhere larger than the cost `d` and different from it? -/
def dominates (c d : List Nat) : Bool :=
  (c.zip d).all (fun p => p.1 ≤ p.2) && c != d

/-- The applicable overloads of a set, in registration order. -/
def applicable (rules : Promotions) (set : OverloadSet) (args : List Ty) : List Candidate :=
  set.overloads.filterMap fun o => (callCost? rules o.params args).map (⟨o, ·⟩)

/-- The candidates whose cost none of the others dominates. -/
def undominated (candidates : List Candidate) : List Candidate :=
  candidates.filter fun c => !candidates.any fun d => dominates d.cost c.cost

/-- Does the cost `c` come before the cost `d` in lexicographic order, or are they the same? -/
def costLe : List Nat → List Nat → Bool
  | [], _ => true
  | _ :: _, [] => false
  | a :: c, b :: d => a < b || (a == b && costLe c d)

/-- The candidates in lexicographic order of their costs, equal costs in the order given. -/
def byCost (candidates : List Candidate) : List Candidate :=
  candidates.mergeSort fun c d => costLe c.cost d.cost

/-- The overload of a call of `name` with arguments of the given types. -/
def resolve (rules : Promotions) (set : Option OverloadSet) (name : String) (args : List Ty) :
    Except ResolveError Overload :=
  match set with
  | none => .error (.unknown name)
  | some set =>
    match undominated (applicable rules set args) with
    | [] => .error (.noMatch name args)
    | [c] => .ok c.overload
    | best => .error (.ambiguous name ((byCost best).map (·.overload)))

theorem length_eq_of_callCost? {rules : Promotions} {params args : List Ty} {cost : List Nat}
    (h : callCost? rules params args = some cost) :
    params.length = args.length ∧ cost.length = args.length := by
  fun_induction callCost? rules params args generalizing cost with
  | case1 => simp_all
  | case2 param params arg args ih =>
    simp only [Option.bind_eq_some_iff, Option.map_eq_some_iff] at h
    obtain ⟨_, _, rest, hrest, rfl⟩ := h
    simpa using ih hrest
  | case3 => simp at h

theorem costLe_refl (c : List Nat) : costLe c c = true := by
  induction c with
  | nil => rfl
  | cons a c ih => simp [costLe, ih]

theorem costLe_total (c d : List Nat) : (costLe c d || costLe d c) = true := by
  induction c generalizing d with
  | nil => simp [costLe]
  | cons a c ih =>
    cases d with
    | nil => simp [costLe]
    | cons b d =>
      simp only [Bool.or_eq_true] at ih
      simp only [costLe, Bool.or_eq_true, Bool.and_eq_true, decide_eq_true_eq, beq_iff_eq]
      rcases Nat.lt_trichotomy a b with hab | rfl | hba
      · exact .inl (.inl hab)
      · exact (ih d).imp (fun h => .inr ⟨rfl, h⟩) (fun h => .inr ⟨rfl, h⟩)
      · exact .inr (.inl hba)

theorem costLe_trans {c d e : List Nat} (hcd : costLe c d = true) (hde : costLe d e = true) :
    costLe c e = true := by
  induction c generalizing d e with
  | nil => rfl
  | cons a c ih =>
    cases d with
    | nil => simp [costLe] at hcd
    | cons b d =>
      cases e with
      | nil => simp [costLe] at hde
      | cons x e =>
        simp only [costLe, Bool.or_eq_true, Bool.and_eq_true, decide_eq_true_eq,
          beq_iff_eq] at hcd hde ⊢
        rcases hcd with hab | ⟨rfl, hcd⟩
        · rcases hde with hbx | ⟨rfl, _⟩
          · exact .inl (Nat.lt_trans hab hbx)
          · exact .inl hab
        · exact hde.imp_right fun ⟨hax, hde⟩ => ⟨hax, ih hcd hde⟩

theorem mem_applicable {rules : Promotions} {set : OverloadSet} {args : List Ty} {c : Candidate} :
    c ∈ applicable rules set args ↔
      c.overload ∈ set.overloads ∧ callCost? rules c.overload.params args = some c.cost := by
  obtain ⟨o, cost⟩ := c
  simp only [applicable, List.mem_filterMap, Option.map_eq_some_iff, Candidate.mk.injEq]
  constructor
  · rintro ⟨o', ho, cost', hcost, rfl, rfl⟩
    exact ⟨ho, hcost⟩
  · rintro ⟨ho, hcost⟩
    exact ⟨o, ho, cost, hcost, rfl, rfl⟩

end Cqasm
