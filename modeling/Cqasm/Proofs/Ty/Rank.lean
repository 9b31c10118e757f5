import Cqasm.Ty.Promotion
import Mathlib.Data.List.FinRange
import Mathlib.Logic.Relation
import Mathlib.Order.Bounds.Basic
import Mathlib.Order.Nat

/-!
# Ranks as lengths of shortest paths

The steps of promotion are the edges of a graph on the types. If no type has two outgoing edges then
the rank of a conversion is the length of a shortest path, and there is a conversion wherever there
is a path (`rank?_shortest`). The edges may form chains and cycles. The search follows as many steps
as there are edges, and this is enough: the steps of a shortest path leave different types
(`length_le_of_isLeast`).

* `Promotions.Promotes` : one type is promoted to another in one step;
* `Promotions.Leads` : so many steps lead from one type to another.
-/

namespace Cqasm.Promotions

/-- There is a step from `t` to `u`. -/
def Promotes (rules : Promotions) (t u : Ty) : Prop := (t, u) ∈ rules.steps

/-- Steps of promotion of the given number lead from one type to another. -/
inductive Leads (rules : Promotions) : Nat → Ty → Ty → Prop where
  | refl (t : Ty) : Leads rules 0 t t
  | step {n : Nat} {t u v : Ty} : rules.Promotes t u → Leads rules n u v → Leads rules (n + 1) t v

variable {rules : Promotions} {t u v goal : Ty} {m n r : Nat}

/-! ## Paths -/

namespace Leads

theorem zero_iff : rules.Leads 0 t u ↔ t = u := by
  constructor
  · rintro ⟨⟩
    rfl
  · rintro rfl
    exact .refl t

theorem succ_iff : rules.Leads (n + 1) t v ↔ ∃ u, rules.Promotes t u ∧ rules.Leads n u v := by
  constructor
  · rintro ⟨⟩
    exact ⟨_, ‹_›, ‹_›⟩
  · rintro ⟨u, hstep, hrest⟩
    exact .step hstep hrest

theorem trans (htu : rules.Leads m t u) (huv : rules.Leads n u v) : rules.Leads (m + n) t v := by
  induction htu with
  | refl => rwa [Nat.zero_add]
  | step hstep _ ih =>
    rw [Nat.succ_add]
    exact .step hstep (ih huv)

/-- A path can be cut after any number of its steps. -/
theorem cut (h : rules.Leads (m + n) t v) : ∃ u, rules.Leads m t u ∧ rules.Leads n u v := by
  induction m generalizing t with
  | zero =>
    rw [Nat.zero_add] at h
    exact ⟨t, .refl t, h⟩
  | succ m ih =>
    rw [Nat.succ_add, succ_iff] at h
    obtain ⟨u, hstep, hrest⟩ := h
    obtain ⟨w, hfirst, hsecond⟩ := ih hrest
    exact ⟨w, .step hstep hfirst, hsecond⟩

/-- A path with a step leaves its first type along an edge. -/
theorem mem_origins (h : rules.Leads n t u) (hn : 0 < n) : t ∈ rules.steps.map (·.1) := by
  cases h with
  | refl => exact absurd hn (Nat.lt_irrefl 0)
  | step hstep _ => exact List.mem_map.mpr ⟨_, hstep, rfl⟩

end Leads

theorem reflTransGen_iff : Relation.ReflTransGen rules.Promotes t u ↔ ∃ n, rules.Leads n t u := by
  constructor
  · intro h
    induction h using Relation.ReflTransGen.head_induction_on with
    | refl => exact ⟨0, .refl u⟩
    | head hstep _ ih =>
      obtain ⟨n, hrest⟩ := ih
      exact ⟨n + 1, .step hstep hrest⟩
  · rintro ⟨n, h⟩
    induction h with
    | refl => exact .refl
    | step hstep _ ih => exact .head hstep ih

/-! ## Shortest paths -/

theorem exists_isLeast (h : rules.Leads n t goal) :
    ∃ r ≤ n, IsLeast {k | rules.Leads k t goal} r := by
  classical
  exact ⟨Nat.find ⟨n, h⟩, Nat.find_min' ⟨n, h⟩ h, Nat.isLeast_find ⟨n, h⟩⟩

/-- A shortest path has no more steps than there are edges. Two steps that leave the same type would
let the path be shortened by what lies between them. -/
theorem length_le_of_isLeast (h : IsLeast {k | rules.Leads k t goal} r) :
    r ≤ rules.steps.length := by
  have hcut : ∀ i : Fin r, ∃ u, rules.Leads i t u ∧ rules.Leads (r - i) u goal := by
    intro i
    refine Leads.cut ?_
    rw [Nat.add_sub_cancel' i.isLt.le]
    exact h.1
  -- the step at place `i` leaves the type `via i`
  choose via hbefore hafter using hcut
  have hle : ∀ i j : Fin r, via i = via j → j.val ≤ i.val := by
    intro i j heq
    have hshorter : r ≤ i + (r - j) := h.2 ((hbefore i).trans (heq ▸ hafter j))
    omega
  have hinjective : Function.Injective via := fun i j heq =>
    Fin.ext (Nat.le_antisymm (hle j i heq.symm) (hle i j heq))
  have hsubset : List.ofFn via ⊆ rules.steps.map (·.1) := by
    intro u hu
    obtain ⟨i, rfl⟩ := List.mem_ofFn.mp hu
    exact (hafter i).mem_origins (Nat.sub_pos_of_lt i.isLt)
  calc r = (List.ofFn via).length := (List.length_ofFn).symm
    _ ≤ (rules.steps.map (·.1)).length :=
      (List.subperm_of_subset (List.nodup_ofFn.mpr hinjective) hsubset).length_le
    _ = rules.steps.length := List.length_map _

/-! ## The search -/

/-- If the edges leave different types then no type has two of them. -/
theorem rightUnique_of_nodup (h : (rules.steps.map (·.1)).Nodup) :
    Relator.RightUnique rules.Promotes := by
  intro t u v hu hv
  exact congrArg Prod.snd (List.inj_on_of_nodup_map h hu hv rfl)

theorem next?_eq_some_iff (hedges : Relator.RightUnique rules.Promotes) :
    rules.next? t = some u ↔ rules.Promotes t u := by
  have hfound : ∀ {w}, rules.next? t = some w → rules.Promotes t w := by
    intro w hw
    obtain ⟨step, hstep, rfl⟩ := Option.map_eq_some_iff.mp hw
    obtain rfl : step.1 = t := by simpa using List.find?_some hstep
    exact List.mem_of_find?_eq_some hstep
  refine ⟨hfound, fun h => ?_⟩
  cases hnext : rules.next? t with
  | none =>
    have hnone := List.find?_eq_none.mp (Option.map_eq_none_iff.mp hnext) (t, u) h
    simp at hnone
  | some w => rw [hedges (hfound hnext) h]

/-- The shortest path to another type begins with the edge that the type has. -/
theorem isLeast_iff_of_ne (hedges : Relator.RightUnique rules.Promotes) (hne : t ≠ goal) :
    IsLeast {k | rules.Leads k t goal} r ↔
      ∃ u, rules.next? t = some u ∧ ∃ n, IsLeast {k | rules.Leads k u goal} n ∧ n + 1 = r := by
  simp only [next?_eq_some_iff hedges]
  constructor
  · rintro ⟨hleads, hleast⟩
    cases r with
    | zero => exact absurd (Leads.zero_iff.mp hleads) hne
    | succ n =>
      obtain ⟨u, hstep, hrest⟩ := Leads.succ_iff.mp hleads
      refine ⟨u, hstep, n, ⟨hrest, fun k hk => ?_⟩, rfl⟩
      exact Nat.le_of_succ_le_succ (hleast (Leads.step hstep hk))
  · rintro ⟨u, hstep, n, ⟨hleads, hleast⟩, rfl⟩
    refine ⟨Leads.step hstep hleads, fun k hk => ?_⟩
    cases k with
    | zero => exact absurd (Leads.zero_iff.mp hk) hne
    | succ k =>
      obtain ⟨w, hstep', hrest⟩ := Leads.succ_iff.mp hk
      obtain rfl : u = w := hedges hstep hstep'
      exact Nat.succ_le_succ (hleast hrest)

/-- The search finds the length of a shortest path up to its limit. -/
theorem stepsTo?_eq_some_iff (hedges : Relator.RightUnique rules.Promotes) {limit : Nat} :
    rules.stepsTo? goal limit t = some r ↔
      r ≤ limit ∧ IsLeast {k | rules.Leads k t goal} r := by
  have hself : IsLeast {k | rules.Leads k goal goal} 0 := ⟨.refl goal, fun _ _ => Nat.zero_le _⟩
  -- a step that is followed leaves one less for the rest of the path
  induction limit generalizing t r with
  | zero =>
    by_cases heq : t = goal
    · subst heq
      simp only [stepsTo?, if_true, Option.some.injEq, Nat.le_zero]
      exact ⟨fun h => h ▸ ⟨rfl, hself⟩, fun h => h.1.symm⟩
    · simp only [stepsTo?, if_neg heq, reduceCtorEq, Nat.le_zero, false_iff]
      rintro ⟨rfl, hleads, -⟩
      exact heq (Leads.zero_iff.mp hleads)
  | succ limit ih =>
    by_cases heq : t = goal
    · subst heq
      simp only [stepsTo?, if_true, Option.some.injEq]
      exact ⟨fun h => h ▸ ⟨Nat.zero_le _, hself⟩, fun h => hself.unique h.2⟩
    · simp only [stepsTo?, if_neg heq, Option.bind_eq_some_iff, Option.map_eq_some_iff, ih,
        isLeast_iff_of_ne hedges heq]
      constructor
      · rintro ⟨u, hnext, n, ⟨hn, hleast⟩, rfl⟩
        exact ⟨Nat.succ_le_succ hn, u, hnext, n, hleast, rfl⟩
      · rintro ⟨hr, u, hnext, n, hleast, rfl⟩
        exact ⟨u, hnext, n, ⟨Nat.le_of_succ_le_succ hr, hleast⟩, rfl⟩

/-- The search follows enough steps: with no limit it would find no more. -/
theorem stepsTo?_length_eq_some_iff (hedges : Relator.RightUnique rules.Promotes) :
    rules.stepsTo? goal rules.steps.length t = some n ↔ IsLeast {k | rules.Leads k t goal} n := by
  rw [stepsTo?_eq_some_iff hedges]
  exact ⟨fun h => h.2, fun h => ⟨length_le_of_isLeast h, h⟩⟩

/-! ## Ranks -/

theorem convertible_iff (hedges : Relator.RightUnique rules.Promotes) :
    rules.convertible t goal = true ↔ Relation.ReflTransGen rules.Promotes t goal := by
  rw [reflTransGen_iff, convertible_eq_isSome_stepsTo?, Option.isSome_iff_exists]
  simp only [stepsTo?_length_eq_some_iff hedges]
  constructor
  · rintro ⟨n, hleast⟩
    exact ⟨n, hleast.1⟩
  · rintro ⟨n, h⟩
    obtain ⟨r, -, hleast⟩ := exists_isLeast h
    exact ⟨r, hleast⟩

theorem rank?_eq_none_iff (hedges : Relator.RightUnique rules.Promotes) :
    rules.rank? t goal = none ↔ ∀ n, ¬ rules.Leads n t goal := by
  rw [← not_exists, ← reflTransGen_iff, ← convertible_iff hedges, convertible, Bool.not_eq_true,
    Option.isSome_eq_false_iff, Option.isNone_iff_eq_none]

section

variable (hedges : Relator.RightUnique rules.Promotes) (hsize : rules.steps.length < UInt32.size)

include hedges hsize

theorem rank?_eq_some_iff :
    rules.rank? t goal = some r ↔ IsLeast {k | rules.Leads k t goal} r := by
  rw [rank?_eq_stepsTo? hsize, stepsTo?_length_eq_some_iff hedges]

theorem exists_rank?_le (h : rules.Leads n t goal) : ∃ r ≤ n, rules.rank? t goal = some r := by
  obtain ⟨r, hr, hleast⟩ := exists_isLeast h
  exact ⟨r, hr, (rank?_eq_some_iff hedges hsize).mpr hleast⟩

end

/-- **The rank of a conversion is the length of a shortest path.** If no type has two outgoing edges
then the rank is the least number of steps that lead from one type to the other, and there is none
if and only if no number of steps does. So there are conversions along the edges, one after the
other, and no others. Only equal types have rank zero, and a conversion by way of another type costs
no less. This is so with fewer than 2^32 edges, since a rank has 32 bits. -/
theorem rank?_shortest (hedges : Relator.RightUnique rules.Promotes)
    (hsize : rules.steps.length < UInt32.size) (a b : Ty) :
    (∀ r, rules.rank? a b = some r ↔ IsLeast {n | rules.Leads n a b} r)
      ∧ (rules.rank? a b = none ↔ ∀ n, ¬ rules.Leads n a b)
      ∧ (rules.convertible a b = true ↔ Relation.ReflTransGen rules.Promotes a b)
      ∧ (rules.rank? a b = some 0 ↔ a = b)
      ∧ (∀ c m n, rules.rank? a b = some m → rules.rank? b c = some n →
        ∃ r ≤ m + n, rules.rank? a c = some r)
      ∧ ∀ r, rules.rank? a b = some r → r < UInt32.size := by
  refine ⟨fun r => rank?_eq_some_iff hedges hsize, rank?_eq_none_iff hedges,
    convertible_iff hedges, ?_, ?_, fun r => rank?_lt⟩
  · constructor
    · intro h
      exact Leads.zero_iff.mp ((rank?_eq_some_iff hedges hsize).mp h).1
    · rintro rfl
      exact rank?_self rules a
  · intro c m n hab hbc
    have hab := ((rank?_eq_some_iff hedges hsize).mp hab).1
    have hbc := ((rank?_eq_some_iff hedges hsize).mp hbc).1
    exact exists_rank?_le hedges hsize (hab.trans hbc)

/-- A chain that ends in a cycle. It leads to every type on the cycle, and to no type beside it. -/
theorem rank?_shortest_cycle :
    let rules : Promotions := ⟨[(.bit 1, .bool), (.bool, .int), (.int, .float), (.float, .int)]⟩
    Relator.RightUnique rules.Promotes ∧ rules.steps.length < UInt32.size
      ∧ IsLeast {n | rules.Leads n (.bit 1) .float} 3
      ∧ ∀ n, ¬ rules.Leads n (.bit 1) .complex := by
  intro rules
  have hedges : Relator.RightUnique rules.Promotes := rightUnique_of_nodup (by decide)
  have hsize : rules.steps.length < UInt32.size := by decide
  refine ⟨hedges, hsize, ?_, ?_⟩
  · exact ((rank?_shortest hedges hsize _ _).1 3).mp (by decide)
  · exact (rank?_shortest hedges hsize _ _).2.1.mp (by decide)

end Cqasm.Promotions
