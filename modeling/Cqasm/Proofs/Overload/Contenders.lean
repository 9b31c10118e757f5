import Cqasm.Proofs.Overload.Winner

/-!
# The contenders of a call

A call is decided between the applicable overloads that no applicable one undercuts. It is resolved
if there is one of them, and ambiguous if there are several, which are then listed by their costs
(`resolve_eq_outcome`). So everything about resolution can be read off the list of the contenders.

* `OverloadSet.Unbeaten`, `OverloadSet.contenders` : the overloads between which a call is decided;
* `Overload.precedes`, `Overload.listed` : the order in which they are reported;
* `outcome` : what becomes of a call with given contenders.
-/

namespace Cqasm

variable {rules : Promotions} {args : List Ty} {set : OverloadSet} {name : String}

instance (found expected : Ty) : Decidable (rules.Accepts found expected) :=
  inferInstanceAs (Decidable (_ ∨ _))

instance : DecidablePred (Overload.Applicable rules args) := fun o =>
  inferInstanceAs (Decidable (List.Forall₂ rules.Accepts args o.params))

instance (o other : Overload) : Decidable (o.Undercuts rules args other) :=
  inferInstanceAs (Decidable (_ ∧ _))

/-! ## The order on overloads -/

namespace Overload.Undercuts

variable {o other third : Overload}

theorem irrefl (o : Overload) : ¬ o.Undercuts rules args o := fun h => h.2 rfl

theorem trans (h : o.Undercuts rules args other) (h' : other.Undercuts rules args third) :
    o.Undercuts rules args third := by
  refine ⟨h.1.trans h'.1, fun heq => h.2 ?_⟩
  -- with equal costs at the ends the one between them costs neither more nor less
  have hback : NowhereLarger (other.costs rules args) (o.costs rules args) := heq ▸ h'.1
  exact h.1.antisymm hback

theorem asymm (h : o.Undercuts rules args other) : ¬ other.Undercuts rules args o :=
  fun h' => irrefl o (h.trans h')

end Overload.Undercuts

/-! ## Contenders -/

namespace OverloadSet

/-- The overload is applicable, and no applicable overload of the set undercuts it. -/
def Unbeaten (rules : Promotions) (args : List Ty) (set : OverloadSet) (o : Overload) : Prop :=
  o.Applicable rules args
    ∧ ∀ other ∈ set.overloads, other.Applicable rules args → ¬ other.Undercuts rules args o

instance : DecidablePred (set.Unbeaten rules args) := fun _ =>
  inferInstanceAs (Decidable (_ ∧ _))

/-- The unbeaten overloads of the set, in registration order. -/
def contenders (rules : Promotions) (args : List Ty) (set : OverloadSet) : List Overload :=
  set.overloads.filter (set.Unbeaten rules args ·)

theorem mem_contenders {o : Overload} :
    o ∈ set.contenders rules args ↔ o ∈ set.overloads ∧ set.Unbeaten rules args o := by
  simp [contenders]

end OverloadSet

/-- The overload with its cost. -/
def Overload.priced (rules : Promotions) (args : List Ty) (o : Overload) : Candidate :=
  ⟨o, o.costs rules args⟩

theorem applicable_eq_map (rules : Promotions) (set : OverloadSet) (args : List Ty) :
    applicable rules set args
      = (set.overloads.filter (·.Applicable rules args)).map (Overload.priced rules args) := by
  rw [applicable_eq, ← List.filterMap_eq_map, List.filterMap_filter]
  refine List.filterMap_congr fun o _ => ?_
  by_cases ho : o.Applicable rules args
  · rw [if_pos (decide_eq_true ho)]
    exact candidate?_eq_some_iff.mpr ⟨ho, rfl⟩
  · rw [if_neg (by simpa using ho), Option.eq_none_iff_forall_ne_some]
    exact fun c hc => ho (candidate?_eq_some_iff.mp hc).1

/-- The candidates that resolution is left with are the contenders, in the same order. -/
theorem undominated_applicable (rules : Promotions) (set : OverloadSet) (args : List Ty) :
    undominated (applicable rules set args)
      = (set.contenders rules args).map (Overload.priced rules args) := by
  unfold undominated OverloadSet.contenders
  rw [applicable_eq_map, List.filter_map, List.filter_filter]
  refine congrArg _ (List.filter_congr fun o _ => ?_)
  by_cases ho : o.Applicable rules args
  · have hbeaten : ∀ other : Overload, other.Applicable rules args →
        (dominates (other.priced rules args).cost (o.priced rules args).cost = true
          ↔ other.Undercuts rules args o) := fun other hother => hother.dominates_iff ho
    rw [Bool.eq_iff_iff]
    simp only [Function.comp, List.any_map, Bool.and_eq_true, Bool.not_eq_true', List.any_eq_false,
      List.mem_filter, decide_eq_true_eq, OverloadSet.Unbeaten, ho, and_true, true_and, and_imp]
    exact forall₃_congr fun other _ hother => not_congr (hbeaten other hother)
  · simp [OverloadSet.Unbeaten, ho]

/-! ## The order of the report -/

namespace Overload

/-- The costs of `o` come before those of `other` in lexicographic order, or are the same. -/
def precedes (rules : Promotions) (args : List Ty) (o other : Overload) : Bool :=
  costLe (o.costs rules args) (other.costs rules args)

/-- The overloads in lexicographic order of their costs, those of one cost in the order given. -/
def listed (rules : Promotions) (args : List Ty) (overloads : List Overload) : List Overload :=
  overloads.mergeSort (precedes rules args)

variable {overloads : List Overload}

theorem map_byCost (rules : Promotions) (args : List Ty) (overloads : List Overload) :
    (byCost (overloads.map (priced rules args))).map (·.overload)
      = listed rules args overloads := by
  have hsorted : (listed rules args overloads).map (priced rules args)
      = byCost (overloads.map (priced rules args)) := by
    refine List.map_mergeSort fun o _ other _ => ?_
    rfl
  rw [← hsorted, List.map_map]
  exact List.map_id _

theorem precedes_trans (o other third : Overload) (h : o.precedes rules args other = true)
    (h' : other.precedes rules args third = true) : o.precedes rules args third = true :=
  costLe_trans h h'

theorem precedes_total (o other : Overload) :
    (o.precedes rules args other || other.precedes rules args o) = true :=
  costLe_total _ _

theorem precedes_of_costs_eq {o other : Overload}
    (h : o.costs rules args = other.costs rules args) : o.precedes rules args other = true := by
  rw [precedes, h]
  exact costLe_refl _

theorem listed_perm : (listed rules args overloads).Perm overloads := List.mergeSort_perm ..

theorem length_listed : (listed rules args overloads).length = overloads.length :=
  listed_perm.length_eq

theorem pairwise_listed :
    (listed rules args overloads).Pairwise fun o other => o.precedes rules args other = true :=
  List.pairwise_mergeSort precedes_trans precedes_total overloads

/-- Overloads of one cost stay in the order in which they were given. -/
theorem filter_listed (cost : List Nat) :
    (listed rules args overloads).filter (·.costs rules args = cost)
      = overloads.filter (·.costs rules args = cost) := by
  have hequal : (overloads.filter (·.costs rules args = cost)).Pairwise
      fun o other => o.precedes rules args other = true := by
    refine List.pairwise_of_forall_mem_list fun o ho other hother => ?_
    have ho : o.costs rules args = cost := by simpa using (List.mem_filter.mp ho).2
    have hother : other.costs rules args = cost := by simpa using (List.mem_filter.mp hother).2
    exact precedes_of_costs_eq (ho.trans hother.symm)
  have hsublist := List.sublist_mergeSort precedes_trans precedes_total hequal List.filter_sublist
  have hkept := hsublist.filter (·.costs rules args = cost)
  rw [List.filter_filter] at hkept
  simp only [Bool.and_self] at hkept
  exact (hkept.eq_of_length (listed_perm.filter _).length_eq.symm).symm

end Overload

theorem costLe_antisymm {c d : List Nat} (hcd : costLe c d = true) (hdc : costLe d c = true) :
    c = d := by
  induction c generalizing d with
  | nil =>
    cases d with
    | nil => rfl
    | cons b d => cases hdc
  | cons a c ih =>
    cases d with
    | nil => cases hcd
    | cons b d =>
      simp only [costLe, Bool.or_eq_true, Bool.and_eq_true, decide_eq_true_eq,
        beq_iff_eq] at hcd hdc
      have hab : a = b := by omega
      subst hab
      simp only [Nat.lt_irrefl, false_or, true_and] at hcd hdc
      rw [ih hcd hdc]

/-! ## Outcomes -/

/-- What becomes of a call that is decided between the given overloads. -/
def outcome (rules : Promotions) (name : String) (args : List Ty) :
    List Overload → Except ResolveError Overload
  | [] => .error (.noMatch name args)
  | [o] => .ok o
  | best => .error (.ambiguous name (Overload.listed rules args best))

theorem outcome_of_two_le {best : List Overload} (h : 2 ≤ best.length) :
    outcome rules name args best = .error (.ambiguous name (Overload.listed rules args best)) := by
  match best with
  | [] => simp at h
  | [_] => simp at h
  | _ :: _ :: _ => rfl

theorem resolve_eq_outcome (rules : Promotions) (set : OverloadSet) (name : String)
    (args : List Ty) :
    resolve rules (some set) name args = outcome rules name args (set.contenders rules args) := by
  unfold resolve
  dsimp only
  rw [undominated_applicable]
  cases set.contenders rules args with
  | nil => rfl
  | cons o rest =>
    cases rest with
    | nil => rfl
    | cons other rest =>
      rw [outcome_of_two_le (by simp), ← Overload.map_byCost]
      rfl

theorem outcome_eq_ambiguous_iff {best candidates : List Overload} {name' : String} :
    outcome rules name args best = .error (.ambiguous name' candidates)
      ↔ name' = name ∧ 2 ≤ best.length ∧ candidates = Overload.listed rules args best := by
  match best with
  | [] => simp [outcome]
  | [_] => simp [outcome]
  | o :: other :: rest =>
    rw [outcome_of_two_le (by simp)]
    simp [eq_comm]

end Cqasm
