import Cqasm.Overload.Resolve
import Mathlib.Data.List.Forall2

/-!
# Applicable overloads

An overload is applicable to arguments if it has as many parameters and accepts each argument for its
parameter. Its cost is then the sequence of the ranks, position by position
(`callCost?_eq_some_iff`).

* `Promotions.Accepts` : a type may be used where another is expected;
* `Overload.Applicable`, `Overload.costs` : the overloads that a call may be resolved to, and at what
  cost.
-/

namespace Cqasm

namespace Promotions

variable {rules : Promotions}

/-- A value of type `found` may stand where the type `expected` is required. Something undefined
may stand anywhere, since an error has been reported about it. -/
def Accepts (rules : Promotions) (found expected : Ty) : Prop :=
  found = .undefined ∨ rules.convertible found expected = true

/-- The rank of passing an argument, none for one without a type. -/
def cost (rules : Promotions) (arg param : Ty) : Nat :=
  if arg = .undefined then 0 else (rules.rank? arg param).getD 0

theorem accepts_self (rules : Promotions) (t : Ty) : rules.Accepts t t :=
  Or.inr (by rw [convertible, rank?_self, Option.isSome_some])

@[simp] theorem cost_self (rules : Promotions) (t : Ty) : rules.cost t t = 0 := by
  simp [cost]

theorem argCost?_eq_some_iff {param arg : Ty} {n : Nat} :
    argCost? rules param arg = some n ↔ rules.Accepts arg param ∧ n = rules.cost arg param := by
  unfold argCost? Accepts cost
  by_cases harg : arg = .undefined
  · subst harg
    simp only [Ty.isDefined, Bool.false_eq_true, if_false, if_true, Option.some.injEq, true_or,
      true_and]
    exact eq_comm
  · rw [if_pos (Ty.isDefined_iff.mpr harg), if_neg harg, convertible]
    cases rules.rank? arg param with
    | none => simp [harg]
    | some rank => simpa using eq_comm

end Promotions

namespace Overload

/-- The overload has as many parameters as there are arguments, and each argument may be passed. -/
def Applicable (rules : Promotions) (args : List Ty) (o : Overload) : Prop :=
  List.Forall₂ rules.Accepts args o.params

/-- The ranks of passing the arguments, one after the other. -/
def costs (rules : Promotions) (args : List Ty) (o : Overload) : List Nat :=
  List.zipWith rules.cost args o.params

end Overload

variable {rules : Promotions}

/-- A call has a cost if the arguments are accepted, and then it is the sequence of the ranks. -/
theorem callCost?_eq_some_iff {params args : List Ty} {cost : List Nat} :
    callCost? rules params args = some cost
      ↔ List.Forall₂ rules.Accepts args params ∧ cost = List.zipWith rules.cost args params := by
  induction params generalizing args cost with
  | nil =>
    cases args with
    | nil => simp [callCost?, eq_comm]
    | cons arg args => simp [callCost?]
  | cons param params ih =>
    cases args with
    | nil => simp [callCost?]
    | cons arg args =>
      simp only [callCost?, Option.bind_eq_some_iff, Option.map_eq_some_iff,
        Promotions.argCost?_eq_some_iff, ih, List.forall₂_cons, List.zipWith_cons_cons]
      constructor
      · rintro ⟨first, ⟨hfirst, rfl⟩, rest, ⟨hrest, rfl⟩, rfl⟩
        exact ⟨⟨hfirst, hrest⟩, rfl⟩
      · rintro ⟨⟨hfirst, hrest⟩, rfl⟩
        exact ⟨_, ⟨hfirst, rfl⟩, _, ⟨hrest, rfl⟩, rfl⟩

theorem accepts_of_callCost? {params args : List Ty} {cost : List Nat}
    (h : callCost? rules params args = some cost) : List.Forall₂ rules.Accepts args params :=
  (callCost?_eq_some_iff.mp h).1

/-- The overload of a call is one of its set, and accepts the arguments. -/
theorem accepts_of_resolve {set : Option OverloadSet} {name : String} {args : List Ty}
    {o : Overload} (h : resolve rules set name args = .ok o) :
    (∃ overloads, set = some overloads ∧ o ∈ overloads.overloads)
      ∧ List.Forall₂ rules.Accepts args o.params := by
  unfold resolve at h
  split at h
  · cases h
  · next overloads =>
    split at h
    · cases h
    · next c hc =>
      cases h
      have hmem : c ∈ applicable rules overloads args := by
        have : c ∈ undominated (applicable rules overloads args) := by simp [hc]
        exact (List.mem_filter.mp this).1
      obtain ⟨hin, hcost⟩ := mem_applicable.mp hmem
      exact ⟨⟨overloads, rfl, hin⟩, accepts_of_callCost? hcost⟩
    · cases h

theorem resolve_of_toOption {set : Option OverloadSet} {name : String} {args : List Ty}
    {o : Overload} (h : (resolve rules set name args).toOption = some o) :
    resolve rules set name args = .ok o := by
  cases hresolve : resolve rules set name args with
  | error error =>
    rw [hresolve] at h
    cases h
  | ok o' =>
    rw [hresolve] at h
    cases h
    rfl

end Cqasm
