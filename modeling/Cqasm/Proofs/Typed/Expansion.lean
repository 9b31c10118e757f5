import Cqasm.Proofs.Typed.Elements
import Mathlib.Algebra.BigOperators.Group.List.Basic
import Mathlib.Algebra.GroupWithZero.Nat

/-!
# The expansion of an index

An index selects the integers from the first to the last bound of each of its entries, in steps of one
towards the last and with both ends (`Steps`), entry after entry. Turned round, with the bounds of each
entry exchanged, it selects the same elements the other way round (`expand_reverse`).

The elements are not written out but produced one at a time, on 64-bit integers. Both ends of a range
are elements, so the largest and the smallest integer are elements as well, and a step beyond them would
wrap around: a bound is moved only as long as there is another element, and the end is marked otherwise.

* `IndexRange.Steps` : the integers from one to another;
* `IndexRange.swap` : a range the other way round;
* `Cursor`, `Sweep`, `Expansion` : what is left of an ascending range, of a range and of an index;
* `Expansion.Yields` : the integers that are produced until there are no more.
-/

namespace Cqasm.Typed

namespace IndexRange

/-! ## The elements of an entry -/

/-- The integers from the first to the second, each one closer to the second than the one before. -/
inductive Steps : Int → Int → List Int → Prop where
  | stay (n : Int) : Steps n n [n]
  | up {m n : Int} {es : List Int} (h : m < n) (hrest : Steps (m + 1) n es) : Steps m n (m :: es)
  | down {m n : Int} {es : List Int} (h : n < m) (hrest : Steps (m - 1) n es) : Steps m n (m :: es)

theorem steps_ascending (m : Int) (k : Nat) :
    Steps m (m + k) ((List.range (k + 1)).map fun i : Nat => m + i) := by
  induction k generalizing m with
  | zero => simpa using Steps.stay m
  | succ k ih =>
    have htail : (List.range (k + 1)).map (fun i : Nat => m + 1 + i)
        = ((List.range (k + 1)).map Nat.succ).map fun i : Nat => m + i := by
      rw [List.map_map]
      exact List.map_congr_left fun i _ => by
        simp only [Function.comp_apply, Nat.succ_eq_add_one]
        omega
    have hlast : m + 1 + (k : Int) = m + (k + 1 : Nat) := by omega
    rw [List.range_succ_eq_map, List.map_cons, ← htail, ← hlast]
    simpa using Steps.up (by omega) (ih (m + 1))

theorem Steps.neg {m n : Int} {es : List Int} (h : Steps m n es) :
    Steps (-m) (-n) (es.map fun e => -e) := by
  induction h with
  | stay n => exact .stay (-n)
  | @up m n es h _ ih =>
    rw [show -(m + 1) = -m - 1 by omega] at ih
    exact .down (by omega) ih
  | @down m n es h _ ih =>
    rw [show -(m - 1) = -m + 1 by omega] at ih
    exact .up (by omega) ih

theorem steps_descending (m : Int) (k : Nat) :
    Steps m (m - k) ((List.range (k + 1)).map fun i : Nat => m - i) := by
  have h := (steps_ascending (-m) k).neg
  have hneg (n : Nat) : -(-m + (n : Int)) = m - n := by omega
  rw [List.map_map, Int.neg_neg, hneg] at h
  simpa only [Function.comp_def, hneg] using h

/-- The elements of a range run from its first bound to its last. -/
theorem steps_elements (range : IndexRange) :
    Steps range.first.toInt range.last.toInt range.elements := by
  unfold elements count
  by_cases h : range.first ≤ range.last
  · have hle := Int64.le_iff_toInt_le.mp h
    have hlast : range.last.toInt
        = range.first.toInt + (range.first.toInt - range.last.toInt).natAbs := by omega
    have hmap : range.element = fun i : Nat => range.first.toInt + i := funext fun i => if_pos h
    rw [hmap]
    nth_rewrite 1 [hlast]
    exact steps_ascending _ _
  · have hlt := Int.not_le.mp (mt Int64.le_iff_toInt_le.mpr h)
    have hlast : range.last.toInt
        = range.first.toInt - (range.first.toInt - range.last.toInt).natAbs := by omega
    have hmap : range.element = fun i : Nat => range.first.toInt - i := funext fun i => if_neg h
    rw [hmap]
    nth_rewrite 1 [hlast]
    exact steps_descending _ _

/-! ## The other way round -/

/-- The range with its bounds exchanged. -/
def swap (range : IndexRange) : IndexRange := ⟨range.last, range.first⟩

theorem count_swap (range : IndexRange) : range.swap.count = range.count := by
  simp only [count, swap]
  omega

theorem elements_swap (range : IndexRange) : range.swap.elements = range.elements.reverse := by
  refine List.ext_getElem (by simp [count_swap]) fun i hi _ => ?_
  rw [length_elements, count_swap] at hi
  rw [List.getElem_reverse]
  simp only [elements, List.getElem_map, List.getElem_range, List.length_map, List.length_range,
    element, count, swap, Int64.le_iff_toInt_le] at hi ⊢
  split_ifs <;> omega

theorem expand_append (before after : List IndexRange) :
    expand (before ++ after) = expand before ++ expand after := List.flatMap_append

theorem expand_reverse (ranges : List IndexRange) :
    expand (ranges.reverse.map swap) = (expand ranges).reverse := by
  induction ranges with
  | nil => rfl
  | cons range ranges ih =>
    rw [List.reverse_cons, List.map_append, expand_append, ih, expand_cons, List.reverse_append,
      ← elements_swap]
    exact congrArg _ (List.append_nil _)

theorem total_eq_sum (ranges : List IndexRange) :
    total ranges
      = (ranges.map fun range => (range.first.toInt - range.last.toInt).natAbs + 1).sum := by
  induction ranges with
  | nil => rfl
  | cons range ranges ih => rw [total, ih, List.map_cons, List.sum_cons, count]

end IndexRange

open IndexRange (upTo length_upTo getElem_upTo expand expand_cons)

/-! ## Ascending ranges -/

theorem toInt_add_one {x y : Int64} (h : x < y) : (x + 1).toInt = x.toInt + 1 := by
  have hlt := Int64.lt_iff_toInt_lt.mp h
  have hx := x.le_toInt
  have hy := y.toInt_lt
  rw [Int64.toInt_add, Int64.toInt_one]
  exact Int.bmod_eq_of_le (by omega) (by omega)

theorem toInt_sub_one {x y : Int64} (h : x < y) : (y - 1).toInt = y.toInt - 1 := by
  have hlt := Int64.lt_iff_toInt_lt.mp h
  have hx := x.le_toInt
  have hy := y.toInt_lt
  rw [Int64.toInt_sub, Int64.toInt_one]
  exact Int.bmod_eq_of_le (by omega) (by omega)

theorem upTo_eq_nil {m n : Int} (h : n < m) : upTo m n = [] := by
  rw [← List.length_eq_zero_iff, length_upTo]
  omega

theorem upTo_eq_cons {m n : Int} (h : m ≤ n) : upTo m n = m :: upTo (m + 1) n := by
  refine List.ext_getElem ?_ fun i _ _ => ?_
  · rw [List.length_cons, length_upTo, length_upTo]
    omega
  · cases i with
    | zero =>
      rw [getElem_upTo, List.getElem_cons_zero]
      exact Int.add_zero m
    | succ i =>
      rw [getElem_upTo, List.getElem_cons_succ, getElem_upTo]
      omega

theorem upTo_eq_append {m n : Int} (h : m ≤ n) : upTo m n = upTo m (n - 1) ++ [n] := by
  refine List.ext_getElem ?_ fun i hi _ => ?_
  · rw [List.length_append, List.length_singleton, length_upTo, length_upTo]
    omega
  · rw [length_upTo] at hi
    rw [getElem_upTo, List.getElem_append]
    split_ifs with hlt
    · rw [getElem_upTo]
    · rw [length_upTo] at hlt
      rw [List.getElem_singleton]
      omega

/-- What is left of an ascending range. As both bounds are elements, a mark tells when there are no
more. -/
structure Cursor where
  first : Int64
  last : Int64
  exhausted : Bool

namespace Cursor

/-- Is no element left? -/
def isEmpty (cursor : Cursor) : Bool := cursor.exhausted || !decide (cursor.first ≤ cursor.last)

/-- Takes the element at one end. If there are others then `moved` is left, and the bounds stay where
they are otherwise. -/
def takeEnd (cursor : Cursor) (element : Int64) (moved : Cursor) : Option (Int64 × Cursor) :=
  if cursor.isEmpty then
    none
  else
    some (element, if cursor.first < cursor.last then moved else { cursor with exhausted := true })

/-- Takes the smallest element. -/
def next? (cursor : Cursor) : Option (Int64 × Cursor) :=
  cursor.takeEnd cursor.first { cursor with first := cursor.first + 1 }

/-- Takes the largest element. -/
def nextBack? (cursor : Cursor) : Option (Int64 × Cursor) :=
  cursor.takeEnd cursor.last { cursor with last := cursor.last - 1 }

/-- The elements that are left, in ascending order. -/
def rest (cursor : Cursor) : List Int :=
  if cursor.isEmpty then [] else upTo cursor.first.toInt cursor.last.toInt

variable {cursor : Cursor}

theorem not_isEmpty_iff :
    ¬ cursor.isEmpty = true ↔ cursor.exhausted = false ∧ cursor.first.toInt ≤ cursor.last.toInt := by
  simp [isEmpty, Int64.le_iff_toInt_le]

theorem rest_of_isEmpty (h : cursor.isEmpty = true) : cursor.rest = [] := if_pos h

theorem rest_of_le {first last : Int64} (h : first.toInt ≤ last.toInt) :
    (Cursor.mk first last false).rest = upTo first.toInt last.toInt := by
  have hsome : ¬ (Cursor.mk first last false).isEmpty = true := not_isEmpty_iff.mpr ⟨rfl, h⟩
  rw [rest, if_neg hsome]

theorem takeEnd_cases (cursor : Cursor) (element : Int64) (moved : Cursor) :
    cursor.takeEnd element moved = none ∧ cursor.rest = []
      ∨ (∃ first last, cursor = ⟨first, last, false⟩ ∧ first < last
        ∧ cursor.takeEnd element moved = some (element, moved))
      ∨ ∃ n, cursor = ⟨n, n, false⟩
        ∧ cursor.takeEnd element moved = some (element, ⟨n, n, true⟩) := by
  unfold takeEnd
  by_cases hempty : cursor.isEmpty = true
  · exact .inl ⟨if_pos hempty, rest_of_isEmpty hempty⟩
  · right
    rw [if_neg hempty]
    obtain ⟨hexhausted, hle⟩ := not_isEmpty_iff.mp hempty
    obtain ⟨first, last, exhausted⟩ := cursor
    cases hexhausted
    by_cases hlt : first < last
    · exact .inl ⟨first, last, rfl, hlt, by rw [if_pos hlt]⟩
    · have heq : first = last := by
        rw [Int64.lt_iff_toInt_lt] at hlt
        exact Int64.toInt_inj.mp (le_antisymm hle (not_lt.mp hlt))
      subst heq
      exact .inr ⟨first, rfl, by rw [if_neg hlt]⟩

/-- Taking the smallest element leaves the others. -/
theorem rest_next? (cursor : Cursor) :
    cursor.rest = match cursor.next? with
      | none => []
      | some (element, left) => element.toInt :: left.rest := by
  obtain ⟨hnext, hrest⟩ | ⟨first, last, rfl, hlt, hnext⟩ | ⟨n, rfl, hnext⟩ :=
    cursor.takeEnd_cases cursor.first { cursor with first := cursor.first + 1 }
  · rw [next?, hnext, hrest]
  · have hsucc := toInt_add_one hlt
    have hint := Int64.lt_iff_toInt_lt.mp hlt
    rw [next?, hnext, rest_of_le hint.le, upTo_eq_cons hint.le, ← hsucc]
    exact congrArg _ (rest_of_le (by omega)).symm
  · rw [next?, hnext, rest_of_le le_rfl, upTo_eq_cons le_rfl]
    exact congrArg _ (upTo_eq_nil (by omega))

/-- Taking the largest element leaves the others. -/
theorem rest_nextBack? (cursor : Cursor) :
    cursor.rest = match cursor.nextBack? with
      | none => []
      | some (element, left) => left.rest ++ [element.toInt] := by
  obtain ⟨hnext, hrest⟩ | ⟨first, last, rfl, hlt, hnext⟩ | ⟨n, rfl, hnext⟩ :=
    cursor.takeEnd_cases cursor.last { cursor with last := cursor.last - 1 }
  · rw [nextBack?, hnext, hrest]
  · have hpred := toInt_sub_one hlt
    have hint := Int64.lt_iff_toInt_lt.mp hlt
    rw [nextBack?, hnext, rest_of_le hint.le, upTo_eq_append hint.le, ← hpred]
    exact congrArg (· ++ _) (rest_of_le (by omega)).symm
  · rw [nextBack?, hnext, rest_of_le le_rfl, upTo_eq_append le_rfl]
    exact congrArg (· ++ _) (upTo_eq_nil (by omega))

end Cursor

/-! ## One range after the other -/

/-- What is left of a range: its elements are taken from the lower end or, if it descends, from the
upper end of what is ascending. -/
inductive Sweep where
  | up (cursor : Cursor)
  | down (cursor : Cursor)

namespace Sweep

def start (range : IndexRange) : Sweep :=
  if range.first ≤ range.last then
    .up ⟨range.first, range.last, false⟩
  else
    .down ⟨range.last, range.first, false⟩

def next? : Sweep → Option (Int64 × Sweep)
  | up cursor => cursor.next?.map (Prod.map id up)
  | down cursor => cursor.nextBack?.map (Prod.map id down)

/-- The elements that are left, in the order in which they are taken. -/
def rest : Sweep → List Int
  | up cursor => cursor.rest
  | down cursor => cursor.rest.reverse

theorem rest_start (range : IndexRange) : (start range).rest = range.elements := by
  rw [IndexRange.elements_eq_walk, start, IndexRange.walk]
  split_ifs with h
  · exact Cursor.rest_of_le (Int64.le_iff_toInt_le.mp h)
  · have hlt := Int.not_le.mp (mt Int64.le_iff_toInt_le.mpr h)
    exact congrArg List.reverse (Cursor.rest_of_le hlt.le)

theorem rest_next? (sweep : Sweep) :
    sweep.rest = match sweep.next? with
      | none => []
      | some (element, left) => element.toInt :: left.rest := by
  cases sweep with
  | up cursor =>
    rw [rest, cursor.rest_next?, next?]
    cases cursor.next? <;> rfl
  | down cursor =>
    rw [rest, cursor.rest_nextBack?, next?]
    cases cursor.nextBack? with
    | none => rfl
    | some taken => exact List.reverse_append

end Sweep

/-- What is left of an index: the range that is being walked through, if one is, and those that
follow. -/
structure Expansion where
  current : Option Sweep
  pending : List IndexRange

namespace Expansion

def start (ranges : List IndexRange) : Expansion := ⟨none, ranges⟩

/-- The first element of the first range that has one. -/
def pull : List IndexRange → Option (Int64 × Expansion)
  | [] => none
  | range :: ranges =>
    match (Sweep.start range).next? with
    | some (element, sweep) => some (element, ⟨some sweep, ranges⟩)
    | none => pull ranges

def next? (expansion : Expansion) : Option (Int64 × Expansion) :=
  match expansion.current.bind Sweep.next? with
  | some (element, sweep) => some (element, ⟨some sweep, expansion.pending⟩)
  | none => pull expansion.pending

/-- The elements that are left. -/
def rest (expansion : Expansion) : List Int :=
  (expansion.current.map Sweep.rest).getD [] ++ expand expansion.pending

theorem expand_eq_pull (ranges : List IndexRange) :
    expand ranges = match pull ranges with
      | none => []
      | some (element, left) => element.toInt :: left.rest := by
  induction ranges with
  | nil => rfl
  | cons range ranges ih =>
    rw [expand_cons, ← Sweep.rest_start, Sweep.rest_next?, pull]
    cases (Sweep.start range).next? with
    | none => exact ih
    | some taken => rfl

theorem rest_next? (expansion : Expansion) :
    expansion.rest = match expansion.next? with
      | none => []
      | some (element, left) => element.toInt :: left.rest := by
  obtain ⟨_ | sweep, pending⟩ := expansion
  · exact expand_eq_pull pending
  · simp only [rest, Option.map_some, Option.getD_some, next?, Option.bind_some]
    rw [sweep.rest_next?]
    cases sweep.next? with
    | none => exact expand_eq_pull pending
    | some taken => rfl

/-- Asked again and again until there are no more, an expansion produces these integers. -/
inductive Yields : Expansion → List Int64 → Prop where
  | done {expansion : Expansion} (h : expansion.next? = none) : Yields expansion []
  | next {expansion left : Expansion} {element : Int64} {others : List Int64}
      (h : expansion.next? = some (element, left)) (hrest : Yields left others) :
      Yields expansion (element :: others)

/-- All elements that are left are produced, after which there are no more. -/
theorem exists_yields (expansion : Expansion) :
    ∃ words, expansion.Yields words ∧ words.map Int64.toInt = expansion.rest := by
  -- with each element that is produced fewer are left
  induction hrest : expansion.rest generalizing expansion with
  | nil =>
    have h := hrest.symm.trans expansion.rest_next?
    cases hnext : expansion.next? with
    | none => exact ⟨[], .done hnext, rfl⟩
    | some taken => simp [hnext] at h
  | cons e es ih =>
    have h := hrest.symm.trans expansion.rest_next?
    cases hnext : expansion.next? with
    | none => simp [hnext] at h
    | some taken =>
      obtain ⟨element, left⟩ := taken
      rw [hnext] at h
      obtain ⟨rfl, hleft⟩ := List.cons.inj h
      obtain ⟨words, hyields, hwords⟩ := ih left hleft.symm
      exact ⟨element :: words, .next hnext hyields, congrArg _ hwords⟩

end Expansion

/-- An index selects the integers from the first to the last bound of each of its ranges in steps of
one, range after range, and no range is shorter or longer than its bounds are apart. The ranges in
reverse with their bounds exchanged select the same elements in reverse. Taken one at a time on 64-bit
integers they are these elements, wherever the bounds are, and so are the first of them. -/
theorem IndexRange.expand_exact (ranges : List IndexRange) :
    (∃ pieces, List.Forall₂ (fun range piece => Steps range.first.toInt range.last.toInt piece)
        ranges pieces
      ∧ expand ranges = pieces.flatten)
    ∧ (expand ranges).length
        = (ranges.map fun range => (range.first.toInt - range.last.toInt).natAbs + 1).sum
    ∧ expand (ranges.reverse.map swap) = (expand ranges).reverse
    ∧ (∃ words, (Expansion.start ranges).Yields words
      ∧ words.map Int64.toInt = expand ranges)
    ∧ ∀ limit, takeAll limit ranges = (expand ranges).take limit := by
  refine ⟨⟨ranges.map elements, ?_, rfl⟩, ?_, expand_reverse ranges,
    (Expansion.start ranges).exists_yields, fun limit => takeAll_eq limit ranges⟩
  · exact List.forall₂_map_right_iff.mpr (List.forall₂_same.mpr fun range _ => steps_elements range)
  · rw [length_expand, total_eq_sum]

/-- The largest integer is an element, and the next range starts behind it. -/
example : IndexRange.takeAll 4 [⟨9223372036854775806, 9223372036854775807⟩, ⟨2, 0⟩]
    = [9223372036854775806, 9223372036854775807, 2, 1] := by decide

end Cqasm.Typed
