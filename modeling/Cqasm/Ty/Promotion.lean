import Cqasm.Ty.Basic

/-!
# Promotion

A value of one type may be used where another type is expected if the first is promoted to the
second in one or more steps. Which single steps there are depends on the dialect. The rank of a
conversion is the number of its steps, of which 32 bits are kept.

## Main definitions

* `Promotions` : the single steps;
* `Promotions.stepsTo?` : the number of steps from one type to another, up to a limit;
* `Promotions.rank?` : the rank of the conversion of one type to another;
* `Promotions.convertible` : is there a conversion at all?
-/

namespace Cqasm

/-- The steps of promotion, each from its first type to its second. A type is promoted along the
first step that leaves it. -/
structure Promotions where
  steps : List (Ty × Ty)
deriving Repr, DecidableEq

namespace Promotions

/-- The type that `t` is promoted to in one step. -/
def next? (rules : Promotions) (t : Ty) : Option Ty :=
  (rules.steps.find? (·.1 = t)).map (·.2)

/-- The number of steps from `t` to `goal`, if at most `limit` steps lead there. -/
def stepsTo? (rules : Promotions) (goal : Ty) : Nat → Ty → Option Nat
  | 0, t => if t = goal then some 0 else none
  | limit + 1, t =>
    if t = goal then
      some 0
    else
      (rules.next? t).bind fun u => (stepsTo? rules goal limit u).map (· + 1)

/-- The rank of the conversion of type `t` to type `goal`: the number of steps in which a value of
the first is promoted to the second, none for the same type. No more steps are followed than there
are rules, since a longer path would repeat a type. A rank has 32 bits, so 2^32 steps count as
none. -/
def rank? (rules : Promotions) (t goal : Ty) : Option Nat :=
  (rules.stepsTo? goal rules.steps.length t).map (· % UInt32.size)

/-- May a value of type `t` be used as one of type `goal`? -/
def convertible (rules : Promotions) (t goal : Ty) : Bool := (rules.rank? t goal).isSome

variable {rules : Promotions} {t goal : Ty} {n : Nat}

theorem stepsTo?_le {limit : Nat} (h : rules.stepsTo? goal limit t = some n) : n ≤ limit := by
  fun_induction stepsTo? rules goal limit t generalizing n with
  | case1 | case3 =>
    cases h
    exact Nat.zero_le _
  | case2 => cases h
  | case4 limit t hne ih =>
    simp only [Option.bind_eq_some_iff, Option.map_eq_some_iff] at h
    obtain ⟨u, -, m, hm, rfl⟩ := h
    exact Nat.succ_le_succ (ih u hm)

@[simp] theorem rank?_self (rules : Promotions) (t : Ty) : rules.rank? t t = some 0 := by
  unfold rank?
  cases rules.steps.length <;> simp [stepsTo?]

theorem rank?_lt (h : rules.rank? t goal = some n) : n < UInt32.size := by
  obtain ⟨steps, -, rfl⟩ := Option.map_eq_some_iff.mp h
  exact Nat.mod_lt steps (by decide)

/-- With fewer than 2^32 rules the rank is the number of steps. -/
theorem rank?_eq_stepsTo? (hsize : rules.steps.length < UInt32.size) (t goal : Ty) :
    rules.rank? t goal = rules.stepsTo? goal rules.steps.length t := by
  unfold rank?
  cases hsteps : rules.stepsTo? goal rules.steps.length t with
  | none => rfl
  | some n =>
    have hn : n < UInt32.size := Nat.lt_of_le_of_lt (stepsTo?_le hsteps) hsize
    rw [Option.map_some, Nat.mod_eq_of_lt hn]

/-- Whether there is a conversion does not depend on how many bits its rank has. -/
theorem convertible_eq_isSome_stepsTo? (rules : Promotions) (t goal : Ty) :
    rules.convertible t goal = (rules.stepsTo? goal rules.steps.length t).isSome := by
  rw [convertible, rank?, Option.isSome_map]

end Promotions

end Cqasm
