import Cqasm.Proofs.Overload.Contenders

/-!
# What an ambiguous call is reported with

The report of an ambiguous call lists all its contenders, in lexicographic order of their costs and,
for equal costs, in registration order. No listed overload undercuts another, and every other
applicable overload is undercut by a listed one. There is only one such list
(`resolve_ambiguous`).

* `OverloadSet.Ambiguity` : the list that an ambiguous call is reported with.
-/

namespace Cqasm

variable {rules : Promotions} {args : List Ty} {set : OverloadSet}

/-! ## Lexicographic order -/

theorem costLe_iff {c d : List Nat} : costLe c d = true ↔ c = d ∨ List.Lex (· < ·) c d := by
  induction c generalizing d with
  | nil => cases d <;> simp [costLe]
  | cons a c ih =>
    cases d with
    | nil => simp [costLe]
    | cons b d =>
      simp only [costLe, Bool.or_eq_true, Bool.and_eq_true, decide_eq_true_eq, beq_iff_eq, ih,
        List.cons.injEq, List.cons_lex_cons_iff]
      tauto

namespace Overload

variable {l l' : List Overload}

theorem mem_iff_of_filter_eq
    (h : ∀ cost, l.filter (·.costs rules args = cost) = l'.filter (·.costs rules args = cost))
    (o : Overload) : o ∈ l ↔ o ∈ l' := by
  have hiff : o ∈ l.filter (·.costs rules args = o.costs rules args)
      ↔ o ∈ l'.filter (·.costs rules args = o.costs rules args) := by rw [h]
  simpa using hiff

/-- Two lists in the order of costs are the same if they have the same overloads of each cost, in
the same order. -/
theorem eq_of_filter_eq
    (hl : l.Pairwise fun o other => o.precedes rules args other = true)
    (hl' : l'.Pairwise fun o other => o.precedes rules args other = true)
    (h : ∀ cost, l.filter (·.costs rules args = cost) = l'.filter (·.costs rules args = cost)) :
    l = l' := by
  induction l generalizing l' with
  | nil =>
    refine (List.eq_nil_iff_forall_not_mem.mpr fun o ho => ?_).symm
    exact List.not_mem_nil ((mem_iff_of_filter_eq h o).mpr ho)
  | cons o rest ih =>
    cases l' with
    | nil => exact absurd ((mem_iff_of_filter_eq h o).mp List.mem_cons_self) List.not_mem_nil
    | cons o' rest' =>
      obtain ⟨hfirst, hrest⟩ := List.pairwise_cons.mp hl
      obtain ⟨hfirst', hrest'⟩ := List.pairwise_cons.mp hl'
      -- each head stands in the other list, so neither of them costs more
      have hle : o.precedes rules args o' = true := by
        rcases List.mem_cons.mp ((mem_iff_of_filter_eq h o').mpr List.mem_cons_self) with rfl | hin
        · exact costLe_refl _
        · exact hfirst o' hin
      have hge : o'.precedes rules args o = true := by
        rcases List.mem_cons.mp ((mem_iff_of_filter_eq h o).mp List.mem_cons_self) with rfl | hin
        · exact costLe_refl _
        · exact hfirst' o hin
      have hcosts : o.costs rules args = o'.costs rules args := costLe_antisymm hle hge
      have hheads := h (o.costs rules args)
      rw [List.filter_cons_of_pos (by simp), List.filter_cons_of_pos (by simp [hcosts])] at hheads
      obtain rfl : o = o' := (List.cons.inj hheads).1
      rw [ih hrest hrest' fun cost => ?_]
      have hcost := h cost
      by_cases heq : o.costs rules args = cost
      · rw [List.filter_cons_of_pos (by simpa using heq),
          List.filter_cons_of_pos (by simpa using heq)] at hcost
        exact (List.cons.inj hcost).2
      · rwa [List.filter_cons_of_neg (by simpa using heq),
          List.filter_cons_of_neg (by simpa using heq)] at hcost

end Overload

/-! ## The contenders among the applicable overloads -/

namespace OverloadSet

theorem not_undercuts_of_mem_contenders {o other : Overload} (ho : o ∈ set.contenders rules args)
    (hother : other ∈ set.contenders rules args) : ¬ o.Undercuts rules args other := by
  obtain ⟨hin, happlicable, -⟩ := mem_contenders.mp ho
  exact (mem_contenders.mp hother).2.2 o hin happlicable

/-- An applicable overload that is no contender is undercut by one. -/
theorem exists_contender_undercuts {o : Overload} (ho : o ∈ set.overloads)
    (happlicable : o.Applicable rules args) (hnot : o ∉ set.contenders rules args) :
    ∃ best ∈ set.contenders rules args, best.Undercuts rules args o := by
  have hcandidate : o.priced rules args ∈ applicable rules set args := by
    rw [applicable_eq_map]
    exact List.mem_map_of_mem (List.mem_filter.mpr ⟨ho, decide_eq_true happlicable⟩)
  obtain ⟨d, hd, hle⟩ :=
    exists_undominated_le (commensurable_applicable rules set args) hcandidate
  have hpriced := hd
  rw [undominated_applicable] at hpriced
  obtain ⟨best, hbest, rfl⟩ := List.mem_map.mp hpriced
  refine ⟨best, hbest, hle, fun heq => hnot ?_⟩
  -- an overload that costs the same as a contender is one itself
  have hleft := mem_undominated_of_cost_eq hd hcandidate heq.symm
  rw [undominated_applicable] at hleft
  obtain ⟨other, hother, heq⟩ := List.mem_map.mp hleft
  obtain rfl : other = o := congrArg Candidate.overload heq
  exact hother

/-- The candidates that an ambiguous call with the given arguments is reported with. -/
structure Ambiguity (rules : Promotions) (args : List Ty) (set : OverloadSet)
    (candidates : List Overload) : Prop where
  several : 2 ≤ candidates.length
  /-- They are the applicable overloads of the set that no applicable one undercuts, each as often
  as it is registered. -/
  complete : candidates.Perm (set.overloads.filter (set.Unbeaten rules args ·))
  /-- The costs are in lexicographic order. -/
  ordered : candidates.Pairwise fun o other =>
    o.costs rules args = other.costs rules args
      ∨ List.Lex (· < ·) (o.costs rules args) (other.costs rules args)
  /-- Those of one cost are in registration order. -/
  stable : ∀ cost, candidates.filter (·.costs rules args = cost)
    = (set.overloads.filter (set.Unbeaten rules args ·)).filter (·.costs rules args = cost)
  apart : ∀ o ∈ candidates, ∀ other ∈ candidates, ¬ o.Undercuts rules args other
  covers : ∀ o ∈ set.overloads, o.Applicable rules args → o ∉ candidates →
    ∃ best ∈ candidates, best.Undercuts rules args o

theorem ambiguity_listed (h : 2 ≤ (set.contenders rules args).length) :
    set.Ambiguity rules args (Overload.listed rules args (set.contenders rules args)) where
  several := by rwa [Overload.length_listed]
  complete := Overload.listed_perm
  ordered := Overload.pairwise_listed.imp costLe_iff.mp
  stable := Overload.filter_listed
  apart o ho other hother := not_undercuts_of_mem_contenders (Overload.listed_perm.mem_iff.mp ho)
    (Overload.listed_perm.mem_iff.mp hother)
  covers o ho happlicable hnot := by
    rw [Overload.listed_perm.mem_iff] at hnot
    obtain ⟨best, hbest, hundercuts⟩ := exists_contender_undercuts ho happlicable hnot
    exact ⟨best, Overload.listed_perm.mem_iff.mpr hbest, hundercuts⟩

theorem Ambiguity.eq_listed {candidates : List Overload} (h : set.Ambiguity rules args candidates) :
    candidates = Overload.listed rules args (set.contenders rules args) := by
  have hordered := h.ordered.imp costLe_iff.mpr
  refine Overload.eq_of_filter_eq hordered Overload.pairwise_listed fun cost => ?_
  rw [Overload.filter_listed]
  exact h.stable cost

end OverloadSet

/-- **The report of an ambiguity is complete and in canonical order.** A call is ambiguous between
given candidates if and only if there are at least two and they are the overloads of the set that
are applicable and that no applicable one undercuts, with their multiplicity, in lexicographic order
of the costs and for equal costs in registration order. None of them undercuts another, and every
applicable overload that is not listed is undercut by one that is. -/
theorem resolve_ambiguous (rules : Promotions) (set : Option OverloadSet) (name : String)
    (args : List Ty) (name' : String) (candidates : List Overload) :
    resolve rules set name args = .error (.ambiguous name' candidates)
      ↔ name' = name ∧ ∃ s, set = some s ∧ s.Ambiguity rules args candidates := by
  cases set with
  | none => simp [resolve]
  | some s =>
    rw [resolve_eq_outcome, outcome_eq_ambiguous_iff]
    simp only [Option.some.injEq, exists_eq_left']
    refine and_congr_right fun _ => ⟨?_, fun h => ⟨?_, h.eq_listed⟩⟩
    · rintro ⟨hseveral, rfl⟩
      exact OverloadSet.ambiguity_listed hseveral
    · exact h.several.trans_eq h.complete.length_eq

/-- An integer and a float converted crosswise, with the second overload registered first. -/
example :
    let rules : Promotions := ⟨[(.int, .float)]⟩
    let f (params : List Ty) : Overload := ⟨"f", params, .void, "", none⟩
    resolve rules (some ⟨"f", [f [.float, .int], f [.int, .float]]⟩) "f" [.int, .int]
      = .error (.ambiguous "f" [f [.int, .float], f [.float, .int]]) := by cbv

end Cqasm
