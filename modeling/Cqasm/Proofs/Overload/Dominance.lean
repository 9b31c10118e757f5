import Cqasm.Overload.Resolve
import Mathlib.Algebra.GroupWithZero.Nat
import Mathlib.Algebra.Order.BigOperators.Group.List
import Mathlib.Algebra.Order.Group.Nat
import Mathlib.Data.List.Forall2

/-!
# The best of several candidates

Costs of one length are compared position by position. A cost that dominates another has a smaller
sum, so going down from any candidate ends at one that no other dominates
(`exists_undominated_le`). This is why it is enough to count the candidates that are left: a single
one is left if and only if it dominates each of the others (`undominated_eq_singleton_iff`), and none
is left only of none (`undominated_eq_nil_iff`).

* `NowhereLarger` : the order on costs, position by position;
* `Commensurable` : candidates whose costs have one length.
-/

namespace Cqasm

/-! ## Costs -/

/-- The cost `c` is in no position larger than the cost `d`. -/
abbrev NowhereLarger (c d : List Nat) : Prop := List.Forall₂ (· ≤ ·) c d

namespace NowhereLarger

variable {c d e : List Nat}

theorem refl (c : List Nat) : NowhereLarger c c := List.forall₂_same.mpr fun _ _ => le_rfl

theorem trans (hcd : NowhereLarger c d) (hde : NowhereLarger d e) : NowhereLarger c e := by
  induction hcd generalizing e with
  | nil => exact hde
  | cons hab _ ih =>
    obtain ⟨x, rest, hbx, hrest, rfl⟩ := List.forall₂_cons_left_iff.mp hde
    exact .cons (hab.trans hbx) (ih hrest)

/-- A smaller cost with no smaller a sum is the same. -/
theorem eq_of_sum_le (h : NowhereLarger c d) (hsum : d.sum ≤ c.sum) : c = d := by
  induction h with
  | nil => rfl
  | @cons a b c d hab hcd ih =>
    have hle := List.Forall₂.sum_le_sum hcd
    simp only [List.sum_cons] at hsum
    obtain rfl : a = b := by omega
    rw [ih (by omega)]

theorem antisymm (hcd : NowhereLarger c d) (hdc : NowhereLarger d c) : c = d :=
  hcd.eq_of_sum_le (List.Forall₂.sum_le_sum hdc)

end NowhereLarger

variable {c d : List Nat}

/-- If a cost is not nowhere larger then the other one is somewhere smaller. -/
theorem exists_lt_of_not_nowhereLarger (hlength : c.length = d.length) (h : ¬ NowhereLarger d c) :
    ∃ pair ∈ c.zip d, pair.1 < pair.2 := by
  by_contra hnone
  refine h (List.Forall₂.flip (List.forall₂_iff_zip.mpr ⟨hlength, fun {m n} hmem => ?_⟩))
  exact Nat.not_lt.mp fun hlt => hnone ⟨(m, n), hmem, hlt⟩

theorem dominates_iff (h : c.length = d.length) :
    dominates c d = true ↔ NowhereLarger c d ∧ c ≠ d := by
  simp [dominates, NowhereLarger, List.forall₂_iff_zip, h]

theorem not_dominates_self (c : List Nat) : dominates c c = false := by
  simp [dominates]

theorem sum_lt_of_dominates (hlength : c.length = d.length) (h : dominates c d = true) :
    c.sum < d.sum := by
  obtain ⟨hle, hne⟩ := (dominates_iff hlength).mp h
  by_contra hsum
  exact hne (hle.eq_of_sum_le (Nat.not_lt.mp hsum))

theorem not_dominates_of_dominates (hlength : c.length = d.length) (h : dominates c d = true) :
    dominates d c = false := by
  rw [Bool.eq_false_iff]
  intro hdc
  have hlt := sum_lt_of_dominates hlength h
  have hgt := sum_lt_of_dominates hlength.symm hdc
  omega

/-! ## Candidates -/

/-- The costs of the candidates have the same length. -/
def Commensurable (candidates : List Candidate) : Prop :=
  ∀ c ∈ candidates, ∀ d ∈ candidates, c.cost.length = d.cost.length

theorem commensurable_applicable (rules : Promotions) (set : OverloadSet) (args : List Ty) :
    Commensurable (applicable rules set args) := by
  intro c hc d hd
  rw [(length_eq_of_callCost? (mem_applicable.mp hc).2).2,
    (length_eq_of_callCost? (mem_applicable.mp hd).2).2]

section

variable {candidates : List Candidate} {c : Candidate}

theorem mem_undominated :
    c ∈ undominated candidates
      ↔ c ∈ candidates ∧ ∀ d ∈ candidates, dominates d.cost c.cost = false := by
  simp [undominated]

theorem exists_dominates_of_not_mem (hc : c ∈ candidates) (h : c ∉ undominated candidates) :
    ∃ d ∈ candidates, dominates d.cost c.cost = true := by
  by_contra hnone
  refine h (mem_undominated.mpr ⟨hc, fun d hd => ?_⟩)
  rw [Bool.eq_false_iff]
  exact fun hdom => hnone ⟨d, hd, hdom⟩

/-- Below every candidate there is one that no other dominates. -/
theorem exists_undominated_le (h : Commensurable candidates) (hc : c ∈ candidates) :
    ∃ d ∈ undominated candidates, NowhereLarger d.cost c.cost := by
  -- a candidate that is dominated is followed by one of a smaller sum
  induction hsum : c.cost.sum using Nat.strong_induction_on generalizing c with
  | _ sum ih =>
    subst hsum
    by_cases hbest : c ∈ undominated candidates
    · exact ⟨c, hbest, .refl _⟩
    · obtain ⟨d, hd, hdom⟩ := exists_dominates_of_not_mem hc hbest
      have hlength := h d hd c hc
      obtain ⟨e, he, hle⟩ := ih d.cost.sum (sum_lt_of_dominates hlength hdom) hd rfl
      exact ⟨e, he, hle.trans ((dominates_iff hlength).mp hdom).1⟩

theorem undominated_eq_nil_iff (h : Commensurable candidates) :
    undominated candidates = [] ↔ candidates = [] := by
  constructor
  · intro hnil
    refine List.eq_nil_iff_forall_not_mem.mpr fun c hc => ?_
    obtain ⟨d, hd, -⟩ := exists_undominated_le h hc
    rw [hnil] at hd
    exact List.not_mem_nil hd
  · rintro rfl
    rfl

/-- Whether a candidate is left is decided by its cost. -/
theorem mem_undominated_of_cost_eq {d : Candidate} (hc : c ∈ undominated candidates)
    (hd : d ∈ candidates) (h : d.cost = c.cost) : d ∈ undominated candidates := by
  rw [mem_undominated, h]
  exact ⟨hd, (mem_undominated.mp hc).2⟩

/-- One candidate is left if and only if it stands in a place such that none of the others is left. -/
theorem undominated_eq_singleton_iff_forall : undominated candidates = [c] ↔
    ∃ before after, candidates = before ++ c :: after ∧ c ∈ undominated candidates
      ∧ ∀ d ∈ before ++ after, d ∉ undominated candidates := by
  unfold undominated
  rw [List.filter_eq_cons_iff]
  simp only [List.filter_eq_nil_iff, List.forall_mem_append]
  constructor
  · rintro ⟨before, after, rfl, hbefore, hc, hafter⟩
    refine ⟨before, after, rfl, List.mem_filter.mpr ⟨by simp, hc⟩, fun d hd hleft => ?_,
      fun d hd hleft => ?_⟩
    · exact hbefore d hd (List.mem_filter.mp hleft).2
    · exact hafter d hd (List.mem_filter.mp hleft).2
  · rintro ⟨before, after, rfl, hc, hbefore, hafter⟩
    refine ⟨before, after, rfl, fun d hd hkept => ?_, (List.mem_filter.mp hc).2, fun d hd hkept => ?_⟩
    · exact hbefore d hd (List.mem_filter.mpr ⟨by simp [hd], hkept⟩)
    · exact hafter d hd (List.mem_filter.mpr ⟨by simp [hd], hkept⟩)

/-- The candidate that alone is left costs no more than any other. -/
theorem nowhereLarger_of_undominated_eq_singleton {d : Candidate} (h : Commensurable candidates)
    (hsingle : undominated candidates = [c]) (hd : d ∈ candidates) : NowhereLarger c.cost d.cost := by
  obtain ⟨e, he, hle⟩ := exists_undominated_le h hd
  rw [hsingle, List.mem_singleton] at he
  subst he
  exact hle

/-- A candidate is the only one left if and only if it dominates each of the others. A candidate of
the same cost at another position is one of the others, so there is none. -/
theorem undominated_eq_singleton_iff (h : Commensurable candidates) :
    undominated candidates = [c] ↔ ∃ before after, candidates = before ++ c :: after
      ∧ ∀ d ∈ before ++ after, dominates c.cost d.cost = true := by
  constructor
  · intro hsingle
    obtain ⟨before, after, rfl, hc, hothers⟩ := undominated_eq_singleton_iff_forall.mp hsingle
    refine ⟨before, after, rfl, fun d hd => ?_⟩
    have hmem : d ∈ before ++ c :: after := by
      rcases List.mem_append.mp hd with hd | hd <;> simp [hd]
    have hle := nowhereLarger_of_undominated_eq_singleton h hsingle hmem
    rw [dominates_iff (h c (by simp) d hmem)]
    exact ⟨hle, fun heq => hothers d hd (mem_undominated_of_cost_eq hc hmem heq.symm)⟩
  · rintro ⟨before, after, rfl, hbest⟩
    refine undominated_eq_singleton_iff_forall.mpr ⟨before, after, rfl, ?_, fun d hd hleft => ?_⟩
    · refine mem_undominated.mpr ⟨by simp, fun d hd => ?_⟩
      have hcases : d = c ∨ d ∈ before ++ after := by
        simp only [List.mem_append, List.mem_cons] at hd ⊢
        tauto
      rcases hcases with rfl | hother
      · exact not_dominates_self d.cost
      · exact not_dominates_of_dominates (h c (by simp) d hd) (hbest d hother)
    · have hkept := (mem_undominated.mp hleft).2 c (by simp)
      rw [hbest d hd] at hkept
      cases hkept

end

end Cqasm
