import Cqasm.Proofs.Overload.Dominance
import Mathlib.Data.Option.Defs

/-!
# Sets of overloads without ambiguities

Two overloads of a set can only compete for arguments that convert to the parameters of both. If all
such arguments cost less for one of the two then the other one never stands in its way, and a set in
which this is so for any two overloads is never ambiguous (`resolve_of_separated`). A type that
converts to a parameter is the parameter itself or one that is promoted, so this is decided by looking
at finitely many types.

* `Promotions.origins` : the types that may convert to a given one;
* `Promotions.Compares` : how the ranks of conversions to two types compare;
* `Promotions.Cheaper`, `Promotions.Separates` : when one overload is always better than another.
-/

namespace Cqasm

namespace Promotions

variable {rules : Promotions}

/-! ## Ranks -/

/-- The types from which there may be a conversion to `goal`. -/
def origins (rules : Promotions) (goal : Ty) : List Ty := goal :: rules.steps.map (·.1)

theorem mem_origins {t goal : Ty} {n : Nat} (h : rules.rank? t goal = some n) :
    t ∈ rules.origins goal := by
  unfold origins
  by_cases heq : t = goal
  · exact List.mem_cons.mpr (Or.inl heq)
  · have hnext : ∃ u, rules.next? t = some u := by
      obtain ⟨steps, hsteps, -⟩ := Option.map_eq_some_iff.mp h
      cases hlimit : rules.steps.length with
      | zero => simp [hlimit, stepsTo?, heq] at hsteps
      | succ limit =>
        rw [hlimit, stepsTo?, if_neg heq, Option.bind_eq_some_iff] at hsteps
        obtain ⟨u, hu, -⟩ := hsteps
        exact ⟨u, hu⟩
    obtain ⟨u, hu⟩ := hnext
    obtain ⟨step, hstep, -⟩ := Option.map_eq_some_iff.mp hu
    have hfst : step.1 = t := by simpa using List.find?_some hstep
    exact List.mem_cons_of_mem goal (List.mem_map.mpr ⟨step, List.mem_of_find?_eq_some hstep, hfst⟩)

/-- The ranks of the conversions of one type to `p` and to `q`, if there are both, are related. -/
def Compares (rules : Promotions) (r : Nat → Nat → Prop) (p q : Ty) : Prop :=
  ∀ t m n, rules.rank? t p = some m → rules.rank? t q = some n → r m n

/-- It is enough to compare the ranks for the origins of one of the types. -/
theorem compares_iff {r : Nat → Nat → Prop} {p q : Ty} :
    (∀ t ∈ rules.origins p, ∀ m ∈ rules.rank? t p, ∀ n ∈ rules.rank? t q, r m n)
      ↔ rules.Compares r p q :=
  ⟨fun h t m n hm hn => h t (mem_origins hm) m hm n hn, fun h t _ m hm n hn => h t m n hm hn⟩

instance (r : Nat → Nat → Prop) [∀ m n, Decidable (r m n)] (p q : Ty) :
    Decidable (rules.Compares r p q) := decidable_of_iff _ compares_iff

/-! ## Costs -/

/-- Arguments that may be passed for both parameter lists cost less for the first one. -/
def Cheaper (rules : Promotions) (ps qs : List Ty) : Prop :=
  List.Forall₂ (rules.Compares (· ≤ ·)) ps qs
    ∧ ∃ pair ∈ ps.zip qs, rules.Compares (· < ·) pair.1 pair.2

instance (ps qs : List Ty) : Decidable (rules.Cheaper ps qs) :=
  inferInstanceAs (Decidable (_ ∧ _))

/-- Of two overloads with as many parameters, one is cheaper than the other. -/
def Separates (rules : Promotions) (o o' : Overload) : Prop :=
  o.arity = o'.arity → rules.Cheaper o.params o'.params ∨ rules.Cheaper o'.params o.params

instance (o o' : Overload) : Decidable (rules.Separates o o') :=
  inferInstanceAs (Decidable (_ → _))

/-- A call costs what its first argument does and what the others do. -/
theorem cons_eq_of_callCost? {p arg : Ty} {ps args : List Ty} {c : List Nat}
    (harg : arg ≠ .undefined) (h : callCost? rules (p :: ps) (arg :: args) = some c) :
    ∃ n rest, rules.rank? arg p = some n ∧ callCost? rules ps args = some rest ∧ c = n :: rest := by
  rw [callCost?, argCost?, if_pos (Ty.isDefined_iff.mpr harg), Option.bind_eq_some_iff] at h
  obtain ⟨n, hn, h⟩ := h
  obtain ⟨rest, hrest, hc⟩ := Option.map_eq_some_iff.mp h
  exact ⟨n, rest, hn, hrest, hc.symm⟩

theorem le_of_forall₂ {ps qs args : List Ty} {c d : List Nat}
    (h : List.Forall₂ (rules.Compares (· ≤ ·)) ps qs) (hargs : ∀ t ∈ args, t ≠ .undefined)
    (hc : callCost? rules ps args = some c) (hd : callCost? rules qs args = some d) :
    ∀ pair ∈ c.zip d, pair.1 ≤ pair.2 := by
  induction h generalizing args c d with
  | nil =>
    cases args with
    | nil =>
      cases hc
      simp
    | cons arg args => cases hc
  | @cons p q ps qs hpq _ ih =>
    cases args with
    | nil => cases hc
    | cons arg args =>
      obtain ⟨harg, hargs⟩ := List.forall_mem_cons.mp hargs
      obtain ⟨m, c, hm, hc', rfl⟩ := cons_eq_of_callCost? harg hc
      obtain ⟨n, d, hn, hd', rfl⟩ := cons_eq_of_callCost? harg hd
      exact List.forall_mem_cons.mpr ⟨hpq arg m n hm hn, ih hargs hc' hd'⟩

theorem ne_of_exists_lt {ps qs args : List Ty} {c d : List Nat}
    (h : ∃ pair ∈ ps.zip qs, rules.Compares (· < ·) pair.1 pair.2)
    (hargs : ∀ t ∈ args, t ≠ .undefined) (hc : callCost? rules ps args = some c)
    (hd : callCost? rules qs args = some d) : c ≠ d := by
  induction args generalizing ps qs c d with
  | nil =>
    cases ps with
    | nil =>
      obtain ⟨pair, hmem, -⟩ := h
      exact absurd hmem List.not_mem_nil
    | cons p ps => cases hc
  | cons arg args ih =>
    cases ps with
    | nil => cases hc
    | cons p ps =>
      cases qs with
      | nil => cases hd
      | cons q qs =>
        obtain ⟨harg, hargs⟩ := List.forall_mem_cons.mp hargs
        obtain ⟨m, c, hm, hc', rfl⟩ := cons_eq_of_callCost? harg hc
        obtain ⟨n, d, hn, hd', rfl⟩ := cons_eq_of_callCost? harg hd
        intro heq
        obtain ⟨rfl, rfl⟩ := List.cons.inj heq
        obtain ⟨pair, hmem, hlt⟩ := h
        rcases List.mem_cons.mp hmem with rfl | hmem
        · exact absurd (hlt arg m m hm hn) (Nat.lt_irrefl m)
        · exact ih ⟨pair, hmem, hlt⟩ hargs hc' hd' rfl

/-- Of two overloads that the arguments fit, a cheaper one dominates. -/
theorem Cheaper.dominates {ps qs args : List Ty} {c d : List Nat} (h : rules.Cheaper ps qs)
    (hargs : ∀ t ∈ args, t ≠ .undefined) (hc : callCost? rules ps args = some c)
    (hd : callCost? rules qs args = some d) : dominates c d = true := by
  have hle := le_of_forall₂ h.1 hargs hc hd
  have hne := ne_of_exists_lt h.2 hargs hc hd
  simpa [Cqasm.dominates, hne] using hle

end Promotions

/-! ## Resolution -/

variable {rules : Promotions} {set : OverloadSet} {args : List Ty}

/-- One of any two applicable overloads dominates the other. -/
theorem pairwise_applicable (h : set.overloads.Pairwise rules.Separates)
    (hargs : ∀ t ∈ args, t ≠ .undefined) :
    (applicable rules set args).Pairwise fun c d =>
      dominates c.cost d.cost = true ∨ dominates d.cost c.cost = true := by
  refine List.Pairwise.filterMap _ ?_ h
  intro o o' hsep c hc d hd
  obtain ⟨cost, hcost, rfl⟩ := Option.map_eq_some_iff.mp hc
  obtain ⟨cost', hcost', rfl⟩ := Option.map_eq_some_iff.mp hd
  have harity : o.arity = o'.arity :=
    (length_eq_of_callCost? hcost).1.trans (length_eq_of_callCost? hcost').1.symm
  rcases hsep harity with hcheaper | hcheaper
  · exact Or.inl (hcheaper.dominates hargs hcost hcost')
  · exact Or.inr (hcheaper.dominates hargs hcost' hcost)

/-- No candidate that is left dominates another one. -/
theorem not_dominates_of_mem_undominated {candidates : List Candidate} {c d : Candidate}
    (hc : c ∈ undominated candidates) (hd : d ∈ undominated candidates) :
    dominates c.cost d.cost = false :=
  (mem_undominated.mp hd).2 c (mem_undominated.mp hc).1

/-- A call of a set any two overloads of which are separated is never ambiguous. -/
theorem resolve_of_separated (h : set.overloads.Pairwise rules.Separates)
    (hargs : ∀ t ∈ args, t ≠ .undefined) (name : String) :
    (∃ o, resolve rules (some set) name args = .ok o)
      ∨ resolve rules (some set) name args = .error (.noMatch name args) := by
  have hpairwise := (pairwise_applicable h hargs).filter
    fun c => !(applicable rules set args).any fun d => dominates d.cost c.cost
  unfold resolve
  dsimp only
  cases hbest : undominated (applicable rules set args) with
  | nil => exact Or.inr rfl
  | cons c rest =>
    cases rest with
    | nil => exact Or.inl ⟨c.overload, rfl⟩
    | cons d rest =>
      have hc : c ∈ undominated (applicable rules set args) := by simp [hbest]
      have hd : d ∈ undominated (applicable rules set args) := by simp [hbest]
      have hpair : (undominated (applicable rules set args)).Pairwise _ := hpairwise
      rw [hbest] at hpair
      rcases (List.pairwise_cons.mp hpair).1 d List.mem_cons_self with hdom | hdom
      · exact absurd hdom (Bool.eq_false_iff.mp (not_dominates_of_mem_undominated hc hd))
      · exact absurd hdom (Bool.eq_false_iff.mp (not_dominates_of_mem_undominated hd hc))

end Cqasm
