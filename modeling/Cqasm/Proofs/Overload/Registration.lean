import Cqasm.Proofs.Overload.Contenders
import Mathlib.Data.List.Permutation

/-!
# Registration order

The order in which overloads are registered decides nothing but the order in which candidates of one
cost are listed (`resolve_perm`). A call that is resolved stays so when another overload is
registered, in whatever place, unless the new one undercuts the winner or the winner does not
undercut the new one. No overload that has lost comes back (`resolve_insert`).

* `SameOutcome` : the outcomes of two calls are the same up to the order of candidates of one cost;
* `AfterInsertion` : what becomes of a resolved call when another overload is registered.
-/

namespace Cqasm

variable {rules : Promotions} {args : List Ty} {name : String} {o p : Overload}

/-! ## Permutations -/

/-- The outcomes are the same, but candidates of an ambiguous call that cost the same may stand in
another order. -/
inductive SameOutcome (rules : Promotions) (args : List Ty) :
    Except ResolveError Overload → Except ResolveError Overload → Prop where
  | ok (o : Overload) : SameOutcome rules args (.ok o) (.ok o)
  | unknown (name : String) :
      SameOutcome rules args (.error (.unknown name)) (.error (.unknown name))
  | noMatch (name : String) (found : List Ty) :
      SameOutcome rules args (.error (.noMatch name found)) (.error (.noMatch name found))
  | ambiguous {name : String} {candidates candidates' : List Overload} :
      candidates.Perm candidates' →
      candidates.map (·.costs rules args) = candidates'.map (·.costs rules args) →
      SameOutcome rules args (.error (.ambiguous name candidates))
        (.error (.ambiguous name candidates'))

namespace Overload

variable {l l' : List Overload}

theorem listed_perm_listed (h : l.Perm l') : (listed rules args l).Perm (listed rules args l') :=
  listed_perm.trans (h.trans listed_perm.symm)

theorem costs_listed_of_perm (h : l.Perm l') :
    (listed rules args l).map (·.costs rules args)
      = (listed rules args l').map (·.costs rules args) := by
  have hsorted : ∀ l : List Overload, ((listed rules args l).map (·.costs rules args)).Pairwise
      fun c d => costLe c d = true := fun _ => List.pairwise_map.mpr pairwise_listed
  exact List.Perm.eq_of_pairwise (fun _ _ _ _ => costLe_antisymm) (hsorted l) (hsorted l')
    ((listed_perm_listed h).map _)

end Overload

theorem sameOutcome_of_perm {best best' : List Overload} (h : best.Perm best') :
    SameOutcome rules args (outcome rules name args best) (outcome rules name args best') := by
  match best with
  | [] =>
    obtain rfl := List.nil_perm.mp h
    exact .noMatch name args
  | [o] =>
    obtain rfl := List.singleton_perm.mp h
    exact .ok o
  | o :: other :: rest =>
    have hseveral : 2 ≤ (o :: other :: rest).length := by simp
    rw [outcome_of_two_le hseveral, outcome_of_two_le (hseveral.trans_eq h.length_eq)]
    exact .ambiguous (Overload.listed_perm_listed h) (Overload.costs_listed_of_perm h)

/-- Whether an overload is unbeaten does not depend on the order of the others. -/
theorem OverloadSet.unbeaten_iff_of_perm {set : OverloadSet} {overloads : List Overload}
    (h : set.overloads.Perm overloads) (o : Overload) :
    set.Unbeaten rules args o ↔ o.Applicable rules args
      ∧ ∀ other ∈ overloads, other.Applicable rules args → ¬ other.Undercuts rules args o := by
  simp only [OverloadSet.Unbeaten, h.mem_iff]

theorem OverloadSet.contenders_perm {set set' : OverloadSet}
    (h : set.overloads.Perm set'.overloads) :
    (set.contenders rules args).Perm (set'.contenders rules args) := by
  have hunbeaten : ∀ o, set.Unbeaten rules args o ↔ set'.Unbeaten rules args o :=
    OverloadSet.unbeaten_iff_of_perm h
  unfold OverloadSet.contenders
  simp only [hunbeaten]
  exact h.filter _

/-- **Registration order never decides.** For sets with the same overloads in different orders a
call has the same outcome: the same overload, the same error, or an ambiguity between the same
candidates, with the same costs at the same places of the list. -/
theorem resolve_perm (rules : Promotions) (name : String) (args : List Ty)
    {set set' : Option OverloadSet}
    (h : Option.Rel (fun s s' => s.overloads.Perm s'.overloads) set set') :
    SameOutcome rules args (resolve rules set name args) (resolve rules set' name args) := by
  cases h with
  | none => exact .unknown name
  | some hperm =>
    rw [resolve_eq_outcome, resolve_eq_outcome]
    exact sameOutcome_of_perm (OverloadSet.contenders_perm hperm)

/-- Two overloads of one cost are listed as they are registered, and a third one after them wherever
it is registered. -/
theorem resolve_perm_ties :
    let rules : Promotions := ⟨[(.int, .float)]⟩
    let f (tag : String) (params : List Ty) : Overload := ⟨"f", params, .void, tag, none⟩
    let first := f "first" [.int, .float]
    let second := f "second" [.int, .float]
    let crossed := f "crossed" [.float, .int]
    let set : OverloadSet := ⟨"f", [crossed, first, second]⟩
    let set' : OverloadSet := ⟨"f", [second, crossed, first]⟩
    let listed := Except.error (.ambiguous "f" [first, second, crossed])
    let listed' := Except.error (.ambiguous "f" [second, first, crossed])
    Option.Rel (fun s s' => s.overloads.Perm s'.overloads) (some set) (some set')
      ∧ resolve rules (some set) "f" [.int, .int] = listed
      ∧ resolve rules (some set') "f" [.int, .int] = listed'
      ∧ SameOutcome rules [.int, .int] listed listed' := by
  intro rules f first second crossed set set' listed listed'
  have hrel : Option.Rel (fun s s' => s.overloads.Perm s'.overloads) (some set) (some set') :=
    .some (by decide)
  have houtcome : resolve rules (some set) "f" [.int, .int] = listed := by cbv
  have houtcome' : resolve rules (some set') "f" [.int, .int] = listed' := by cbv
  have hsame := resolve_perm rules "f" [.int, .int] hrel
  rw [houtcome, houtcome'] at hsame
  exact ⟨hrel, houtcome, houtcome', hsame⟩

/-! ## Insertions -/

section

variable {set set' : OverloadSet} {others : List Overload}

/-- The overload that undercuts all others does so in whatever order they stand. -/
theorem chooses_iff_perm : set.Chooses rules args o ↔
    o.Applicable rules args ∧ ∃ others, set.overloads.Perm (o :: others)
      ∧ ∀ other ∈ others, other.Applicable rules args → o.Undercuts rules args other := by
  refine and_congr_right fun _ => ⟨?_, ?_⟩
  · rintro ⟨before, after, hset, hbest⟩
    exact ⟨before ++ after, hset ▸ List.perm_middle, hbest⟩
  · rintro ⟨others, hperm, hbest⟩
    obtain ⟨before, after, hset⟩ := List.append_of_mem (hperm.mem_iff.mpr List.mem_cons_self)
    have hothers : (before ++ after).Perm others :=
      (List.perm_middle.symm.trans (hset ▸ hperm)).cons_inv
    exact ⟨before, after, hset, fun other hother => hbest other (hothers.mem_iff.mp hother)⟩

/-- If neither of two overloads undercuts the other and one of them undercuts the rest then both are
contenders and no other is. -/
theorem contenders_perm_pair
    (hperm : set.overloads.Perm (o :: p :: others)) (ho : o.Applicable rules args)
    (hp : p.Applicable rules args) (hop : ¬ o.Undercuts rules args p)
    (hpo : ¬ p.Undercuts rules args o)
    (hbest : ∀ other ∈ others, other.Applicable rules args → o.Undercuts rules args other) :
    (set.contenders rules args).Perm [o, p] := by
  have hleft : set.Unbeaten rules args o := by
    refine (OverloadSet.unbeaten_iff_of_perm hperm o).mpr ⟨ho, ?_⟩
    simp only [List.forall_mem_cons]
    refine ⟨fun _ => Overload.Undercuts.irrefl o, fun _ => hpo, fun other hother hin => ?_⟩
    exact (hbest other hother hin).asymm
  have hright : set.Unbeaten rules args p := by
    refine (OverloadSet.unbeaten_iff_of_perm hperm p).mpr ⟨hp, ?_⟩
    simp only [List.forall_mem_cons]
    refine ⟨fun _ => hop, fun _ => Overload.Undercuts.irrefl p, fun other hother hin h => ?_⟩
    exact hop ((hbest other hother hin).trans h)
  have hrest : ∀ other ∈ others, ¬ set.Unbeaten rules args other := by
    intro other hother h
    obtain ⟨hin, hnone⟩ := (OverloadSet.unbeaten_iff_of_perm hperm other).mp h
    exact hnone o List.mem_cons_self ho (hbest other hother hin)
  have hfilter : (o :: p :: others).filter (set.Unbeaten rules args ·) = [o, p] := by
    rw [List.filter_cons_of_pos (by simpa using hleft),
      List.filter_cons_of_pos (by simpa using hright),
      List.filter_eq_nil_iff.mpr fun other hother => by simpa using hrest other hother]
  exact (hperm.filter _).trans (.of_eq hfilter)

/-- What becomes of a call that is resolved to `o` when `p` is registered as well. -/
inductive AfterInsertion (rules : Promotions) (name : String) (args : List Ty) (o p : Overload) :
    Except ResolveError Overload → Prop where
  | kept : (p.Applicable rules args → o.Undercuts rules args p) →
      AfterInsertion rules name args o p (.ok o)
  | replaced : p.Applicable rules args → p.Undercuts rules args o →
      AfterInsertion rules name args o p (.ok p)
  | ambiguous {candidates : List Overload} : candidates.Perm [o, p] → p.Applicable rules args →
      ¬ o.Undercuts rules args p → ¬ p.Undercuts rules args o →
      AfterInsertion rules name args o p (.error (.ambiguous name candidates))

theorem afterInsertion_of_perm (hperm : set'.overloads.Perm (p :: o :: others))
    (ho : o.Applicable rules args)
    (hbest : ∀ other ∈ others, other.Applicable rules args → o.Undercuts rules args other) :
    AfterInsertion rules name args o p (resolve rules (some set') name args) := by
  have hswap : set'.overloads.Perm (o :: p :: others) := hperm.trans (.swap o p others)
  by_cases hkept : p.Applicable rules args → o.Undercuts rules args p
  · have hchooses : set'.Chooses rules args o :=
      chooses_iff_perm.mpr ⟨ho, p :: others, hswap, List.forall_mem_cons.mpr ⟨hkept, hbest⟩⟩
    rw [resolve_eq_ok_iff.mpr hchooses]
    exact .kept hkept
  obtain ⟨hp, hop⟩ := Classical.not_imp.mp hkept
  by_cases hpo : p.Undercuts rules args o
  · have hbest' : ∀ other ∈ o :: others, other.Applicable rules args →
        p.Undercuts rules args other := by
      refine List.forall_mem_cons.mpr ⟨fun _ => hpo, fun other hother happlicable => ?_⟩
      exact hpo.trans (hbest other hother happlicable)
    rw [resolve_eq_ok_iff.mpr (chooses_iff_perm.mpr ⟨hp, o :: others, hperm, hbest'⟩)]
    exact .replaced hp hpo
  · have hpair := contenders_perm_pair hswap ho hp hop hpo hbest
    rw [resolve_eq_outcome, outcome_of_two_le (by simp [hpair.length_eq])]
    exact .ambiguous (Overload.listed_perm.trans hpair) hp hop hpo

theorem AfterInsertion.kept_of_not_applicable {result : Except ResolveError Overload}
    (h : AfterInsertion rules name args o p result) (hp : ¬ p.Applicable rules args) :
    result = .ok o := by
  cases h with
  | kept _ => rfl
  | replaced hp' _ => exact absurd hp' hp
  | ambiguous _ hp' _ _ => exact absurd hp' hp

/-- An overload that undercuts all others does so without one of them. -/
theorem OverloadSet.Chooses.of_removed (h : set'.Chooses rules args o)
    (hperm : set'.overloads.Perm (p :: set.overloads)) (hmem : o ∈ set.overloads) :
    set.Chooses rules args o := by
  obtain ⟨ho, others, hothers, hbest⟩ := chooses_iff_perm.mp h
  have hsplit : set.overloads.Perm (o :: set.overloads.erase o) := List.perm_cons_erase hmem
  have hrest : others.Perm (p :: set.overloads.erase o) := by
    rw [← List.perm_cons o]
    exact hothers.symm.trans (hperm.trans ((hsplit.cons p).trans (.swap o p _)))
  refine chooses_iff_perm.mpr ⟨ho, set.overloads.erase o, hsplit, fun other hother => ?_⟩
  exact hbest other (hrest.mem_iff.mpr (List.mem_cons_of_mem p hother))

/-- **Extending a set is stable.** If a call is resolved and another overload is inserted anywhere,
then the call is still resolved to the old one, or to the new one if that undercuts it, or it is
ambiguous between these two. It stays as it was if the new one has another number of parameters or
is not applicable. In the other direction, the call stays as it was when an overload other than the
one that it is resolved to is removed. -/
theorem resolve_insert (before after : List Overload) (hset : set.overloads = before ++ after)
    (hset' : set'.overloads = before ++ p :: after) :
    (resolve rules (some set) name args = .ok o →
      AfterInsertion rules name args o p (resolve rules (some set') name args)
        ∧ (p.arity ≠ args.length ∨ ¬ p.Applicable rules args →
          resolve rules (some set') name args = .ok o))
      ∧ (resolve rules (some set') name args = .ok o → o ∈ set.overloads →
        resolve rules (some set) name args = .ok o) := by
  have hperm : set'.overloads.Perm (p :: set.overloads) := by
    rw [hset, hset']
    exact List.perm_middle
  constructor
  · rw [resolve_eq_ok_iff, chooses_iff_perm]
    rintro ⟨ho, others, hothers, hbest⟩
    have hafter : AfterInsertion rules name args o p (resolve rules (some set') name args) :=
      afterInsertion_of_perm (hperm.trans (hothers.cons p)) ho hbest
    refine ⟨hafter, fun hp => hafter.kept_of_not_applicable ?_⟩
    rcases hp with harity | hp
    · exact fun happlicable => harity happlicable.length_eq.symm
    · exact hp
  · rw [resolve_eq_ok_iff, resolve_eq_ok_iff]
    exact fun hchooses hmem => hchooses.of_removed hperm hmem

/-- The inserted overload undercuts the loser but not the winner, which does not undercut it either.
The loser can be removed. -/
theorem resolve_insert_crossed :
    let rules : Promotions := ⟨[(.int, .float)]⟩
    let args : List Ty := [.int, .int]
    let f (tag : String) (params : List Ty) : Overload := ⟨"f", params, .void, tag, none⟩
    let winner := f "winner" [.int, .float]
    let loser := f "loser" [.float, .float]
    let crossed := f "crossed" [.float, .int]
    resolve rules (some ⟨"f", [winner, loser]⟩) "f" args = .ok winner
      ∧ AfterInsertion rules "f" args winner crossed
        (resolve rules (some ⟨"f", [winner, crossed, loser]⟩) "f" args)
      ∧ crossed.Applicable rules args ∧ ¬ winner.Undercuts rules args crossed
      ∧ resolve rules (some ⟨"f", [winner]⟩) "f" args = .ok winner := by
  intro rules args f winner loser crossed
  have hwinner : resolve rules (some ⟨"f", [winner, loser]⟩) "f" args = .ok winner := by decide
  refine ⟨hwinner, ?_, by decide, by decide, ?_⟩
  · exact ((resolve_insert [winner] [loser] rfl rfl).1 hwinner).1
  · exact (resolve_insert [winner] [] rfl rfl).2 hwinner (by decide)

end

end Cqasm
