import Cqasm.Proofs.Overload.Applicable
import Cqasm.Proofs.Overload.Dominance

/-!
# The overload of a call

A call is resolved to the overload that undercuts every other applicable one: it costs in no position
more, and not the same. Resolution itself only leaves out what is dominated and counts what is left
(`chooses_iff_undominated`). There is no match if no overload is applicable, and in all other cases
the call is ambiguous (`resolve_outcome`).

* `Overload.Undercuts` : the order on the overloads that are applicable to given arguments;
* `OverloadSet.Chooses` : the overload that undercuts all others.
-/

namespace Cqasm

/-- Calling `o` costs in no position more than calling `other`, and not the same. -/
def Overload.Undercuts (rules : Promotions) (args : List Ty) (o other : Overload) : Prop :=
  NowhereLarger (o.costs rules args) (other.costs rules args)
    ∧ o.costs rules args ≠ other.costs rules args

/-- The overload stands in the set and is applicable, and it undercuts every applicable overload at
another place. -/
def OverloadSet.Chooses (rules : Promotions) (args : List Ty) (set : OverloadSet) (o : Overload) :
    Prop :=
  o.Applicable rules args ∧ ∃ before after, set.overloads = before ++ o :: after
    ∧ ∀ other ∈ before ++ after, other.Applicable rules args → o.Undercuts rules args other

variable {rules : Promotions} {args : List Ty} {set : OverloadSet} {name : String}

/-! ## Candidates -/

theorem Overload.Applicable.length_costs {o : Overload} (h : o.Applicable rules args) :
    (o.costs rules args).length = args.length := by
  unfold Overload.costs
  rw [List.length_zipWith, ← h.length_eq, Nat.min_self]

theorem Overload.Applicable.dominates_iff {o other : Overload} (ho : o.Applicable rules args)
    (hother : other.Applicable rules args) :
    dominates (o.costs rules args) (other.costs rules args) = true ↔ o.Undercuts rules args other :=
  Cqasm.dominates_iff (ho.length_costs.trans hother.length_costs.symm)

/-- The overload with its cost, if it is applicable. -/
def Overload.candidate? (rules : Promotions) (args : List Ty) (o : Overload) : Option Candidate :=
  (callCost? rules o.params args).map (⟨o, ·⟩)

theorem candidate?_eq_some_iff {o : Overload} {c : Candidate} :
    o.candidate? rules args = some c
      ↔ o.Applicable rules args ∧ c = ⟨o, o.costs rules args⟩ := by
  unfold Overload.candidate? Overload.Applicable Overload.costs
  rw [Option.map_eq_some_iff]
  constructor
  · rintro ⟨cost, hcost, rfl⟩
    obtain ⟨happlicable, rfl⟩ := callCost?_eq_some_iff.mp hcost
    exact ⟨happlicable, rfl⟩
  · rintro ⟨happlicable, rfl⟩
    exact ⟨_, callCost?_eq_some_iff.mpr ⟨happlicable, rfl⟩, rfl⟩

theorem applicable_eq (rules : Promotions) (set : OverloadSet) (args : List Ty) :
    applicable rules set args = set.overloads.filterMap (·.candidate? rules args) := rfl

theorem applicable_eq_nil_iff :
    applicable rules set args = [] ↔ ∀ o ∈ set.overloads, ¬ o.Applicable rules args := by
  rw [applicable_eq, List.filterMap_eq_nil_iff]
  refine forall₂_congr fun o _ => ?_
  rw [Option.eq_none_iff_forall_ne_some]
  constructor
  · intro hnone happlicable
    exact hnone _ (candidate?_eq_some_iff.mpr ⟨happlicable, rfl⟩)
  · intro hnot c hc
    exact hnot (candidate?_eq_some_iff.mp hc).1

/-- The place of a candidate is one of its overload in the set. The overloads in front of it and
behind it give the other candidates. -/
theorem applicable_eq_append_cons_iff {before after : List Candidate} {o : Overload}
    {cost : List Nat} : applicable rules set args = before ++ ⟨o, cost⟩ :: after ↔ ∃ front back,
      set.overloads = front ++ o :: back ∧ o.candidate? rules args = some ⟨o, cost⟩
        ∧ front.filterMap (·.candidate? rules args) = before
        ∧ back.filterMap (·.candidate? rules args) = after := by
  rw [applicable_eq]
  constructor
  · intro h
    obtain ⟨front, rest, hset, rfl, hrest⟩ := List.filterMap_eq_append_iff.mp h
    -- overloads that are not applicable may stand between the last of `before` and `o`
    obtain ⟨skipped, other, back, rfl, hskipped, hother, rfl⟩ := List.filterMap_eq_cons_iff.mp hrest
    obtain rfl : o = other := congrArg Candidate.overload (candidate?_eq_some_iff.mp hother).2
    refine ⟨front ++ skipped, back, by rw [hset, List.append_assoc], hother, ?_, rfl⟩
    rw [List.filterMap_append, List.filterMap_eq_nil_iff.mpr hskipped, List.append_nil]
  · rintro ⟨front, back, hset, ho, rfl, rfl⟩
    rw [hset, List.filterMap_append, List.filterMap_cons_some ho]

/-- A candidate is alone left if and only if its overload undercuts all others. -/
theorem chooses_iff_undominated {o : Overload} :
    set.Chooses rules args o ↔ ∃ cost, undominated (applicable rules set args) = [⟨o, cost⟩] := by
  simp only [undominated_eq_singleton_iff (commensurable_applicable rules set args)]
  constructor
  · rintro ⟨ho, front, back, hset, hbest⟩
    have hself := candidate?_eq_some_iff.mpr ⟨ho, rfl⟩
    refine ⟨o.costs rules args, _, _,
      applicable_eq_append_cons_iff.mpr ⟨front, back, hset, hself, rfl, rfl⟩, fun d hd => ?_⟩
    rw [← List.filterMap_append, List.mem_filterMap] at hd
    obtain ⟨other, hmem, hd⟩ := hd
    obtain ⟨hother, rfl⟩ := candidate?_eq_some_iff.mp hd
    exact (ho.dominates_iff hother).mpr (hbest other hmem hother)
  · rintro ⟨cost, before, after, hsplit, hbest⟩
    obtain ⟨front, back, hset, hself, rfl, rfl⟩ := applicable_eq_append_cons_iff.mp hsplit
    obtain ⟨ho, hcost⟩ := candidate?_eq_some_iff.mp hself
    obtain rfl : cost = o.costs rules args := congrArg Candidate.cost hcost
    refine ⟨ho, front, back, hset, fun other hmem hother => ?_⟩
    refine (ho.dominates_iff hother).mp (hbest ⟨other, other.costs rules args⟩ ?_)
    rw [← List.filterMap_append, List.mem_filterMap]
    exact ⟨other, hmem, candidate?_eq_some_iff.mpr ⟨hother, rfl⟩⟩

/-! ## Outcomes -/

/-- What resolution makes of the candidates that are left. -/
theorem resolve_cases (rules : Promotions) (set : OverloadSet) (name : String) (args : List Ty) :
    (applicable rules set args = []
        ∧ resolve rules (some set) name args = .error (.noMatch name args))
      ∨ (∃ c, undominated (applicable rules set args) = [c]
        ∧ resolve rules (some set) name args = .ok c.overload)
      ∨ (applicable rules set args ≠ [] ∧ (∀ c, undominated (applicable rules set args) ≠ [c])
        ∧ ∃ candidates,
          resolve rules (some set) name args = .error (.ambiguous name candidates)) := by
  have hnil := undominated_eq_nil_iff (commensurable_applicable rules set args)
  unfold resolve
  dsimp only
  cases hbest : undominated (applicable rules set args) with
  | nil => exact Or.inl ⟨hnil.mp hbest, rfl⟩
  | cons c rest =>
    cases rest with
    | nil => exact Or.inr (Or.inl ⟨c, rfl, rfl⟩)
    | cons d rest =>
      refine Or.inr (Or.inr ⟨fun h => ?_, fun c h => by simp at h, _, rfl⟩)
      rw [hnil.mpr h] at hbest
      cases hbest

theorem resolve_eq_ok_iff {o : Overload} :
    resolve rules (some set) name args = .ok o ↔ set.Chooses rules args o := by
  rw [chooses_iff_undominated]
  rcases resolve_cases rules set name args with ⟨hnil, h⟩ | ⟨c, hc, h⟩ | ⟨-, hmany, _, h⟩
  · simp [h, hnil, undominated]
  · obtain ⟨winner, cost⟩ := c
    rw [h, hc]
    simp [eq_comm]
  · simp [h, hmany]

theorem resolve_eq_noMatch_iff {name' : String} {args' : List Ty} :
    resolve rules (some set) name args = .error (.noMatch name' args')
      ↔ name' = name ∧ args' = args ∧ ∀ o ∈ set.overloads, ¬ o.Applicable rules args := by
  rw [← applicable_eq_nil_iff]
  rcases resolve_cases rules set name args with ⟨hnil, h⟩ | ⟨c, hc, h⟩ | ⟨hne, -, _, h⟩
  · simp [h, hnil, eq_comm]
  · have hne : applicable rules set args ≠ [] := by
      intro hnil
      simp [hnil, undominated] at hc
    simp [h, hne]
  · simp [h, hne]

theorem resolve_eq_ambiguous_iff {name' : String} :
    (∃ candidates, resolve rules (some set) name args = .error (.ambiguous name' candidates))
      ↔ name' = name ∧ (∃ o ∈ set.overloads, o.Applicable rules args)
        ∧ ∀ o, ¬ set.Chooses rules args o := by
  have happlicable : (∃ o ∈ set.overloads, o.Applicable rules args)
      ↔ applicable rules set args ≠ [] := by
    simp [applicable_eq_nil_iff]
  simp only [happlicable, chooses_iff_undominated]
  rcases resolve_cases rules set name args with ⟨hnil, h⟩ | ⟨c, hc, h⟩ | ⟨hne, hmany, _, h⟩
  · simp [h, hnil]
  · obtain ⟨winner, cost⟩ := c
    simp [h, hc]
  · simp [h, hne, hmany, eq_comm]

/-- **The overload of a call undercuts all others.** A call is resolved to the overload that undercuts
all other applicable ones. There is no match if and only if no overload is applicable, and the name is
unknown if and only if there is no set of overloads. In all other cases, and in no others, the call is
ambiguous. -/
theorem resolve_outcome (rules : Promotions) (set : Option OverloadSet) (name : String)
    (args : List Ty) :
    (∀ o, resolve rules set name args = .ok o ↔ ∃ s, set = some s ∧ s.Chooses rules args o)
      ∧ (∀ name' args', resolve rules set name args = .error (.noMatch name' args')
        ↔ name' = name ∧ args' = args
          ∧ ∃ s, set = some s ∧ ∀ o ∈ s.overloads, ¬ o.Applicable rules args)
      ∧ (∀ name', resolve rules set name args = .error (.unknown name')
        ↔ name' = name ∧ set = none)
      ∧ ∀ name', (∃ candidates, resolve rules set name args = .error (.ambiguous name' candidates))
        ↔ name' = name ∧ ∃ s, set = some s ∧ (∃ o ∈ s.overloads, o.Applicable rules args)
          ∧ ∀ o, ¬ s.Chooses rules args o := by
  cases set with
  | none => simp [resolve, eq_comm]
  | some s =>
    simp only [Option.some.injEq, exists_eq_left', reduceCtorEq, and_false, iff_false]
    refine ⟨fun o => resolve_eq_ok_iff, fun name' args' => resolve_eq_noMatch_iff, fun name' h => ?_,
      fun name' => resolve_eq_ambiguous_iff⟩
    rcases resolve_cases rules s name args with ⟨-, h'⟩ | ⟨c, -, h'⟩ | ⟨-, -, _, h'⟩ <;>
      simp [h'] at h

end Cqasm
