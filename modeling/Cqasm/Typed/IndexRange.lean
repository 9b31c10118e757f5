import Cqasm.Typed.Expr

/-!
# The elements of an index

An index selects the elements of its ranges, one range after the other. A range runs from its first
element to its last, upwards or downwards, both ends included. The bounds are any 64-bit integers,
so a range may be far too long to be written out; `IndexRange.takeAll` gives the first elements of
an index without writing out the rest.

## Main definitions

* `IndexRange.count`, `IndexRange.elements` : the elements of one range;
* `IndexRange.expand` : the elements of several ranges;
* `IndexRange.takeAll` : the first of them;
* `IndexRange.total`, `IndexRange.total?` : their number, and whether it is a size.
-/

namespace Cqasm.Typed.IndexRange

/-- The number of elements of the range. -/
def count (range : IndexRange) : Nat := (range.first.toInt - range.last.toInt).natAbs + 1

/-- The element with the given position in the range. -/
def element (range : IndexRange) (position : Nat) : Int :=
  if range.first ≤ range.last then
    range.first.toInt + position
  else
    range.first.toInt - position

/-- The elements of the range in order. -/
def elements (range : IndexRange) : List Int := (List.range range.count).map range.element

/-- The elements of the ranges in order. -/
def expand (ranges : List IndexRange) : List Int := ranges.flatMap elements

/-- The first `limit` elements of the range, or all if there are fewer. -/
def take (limit : Nat) (range : IndexRange) : List Int :=
  (List.range (min limit range.count)).map range.element

/-- The first `limit` elements of the ranges, or all if there are fewer. -/
def takeAll : Nat → List IndexRange → List Int
  | _, [] => []
  | 0, _ => []
  | limit, range :: ranges => range.take limit ++ takeAll (limit - range.count) ranges

/-- The number of elements of the ranges. -/
def total : List IndexRange → Nat
  | [] => 0
  | range :: ranges => range.count + total ranges

/-- The largest size of a reference, the largest 64-bit number. -/
def maxSize : Nat := 0xFFFFFFFFFFFFFFFF

/-- The number of elements of the ranges, if it is a size. -/
def total? (ranges : List IndexRange) : Option Nat :=
  if total ranges ≤ maxSize then some (total ranges) else none

@[simp] theorem length_elements (range : IndexRange) : range.elements.length = range.count := by
  simp [elements]

theorem take_eq (limit : Nat) (range : IndexRange) :
    range.take limit = range.elements.take limit := by
  rw [take, elements, ← List.map_take, List.take_range]

theorem expand_cons (range : IndexRange) (ranges : List IndexRange) :
    expand (range :: ranges) = range.elements ++ expand ranges := rfl

theorem length_expand (ranges : List IndexRange) : (expand ranges).length = total ranges := by
  induction ranges with
  | nil => rfl
  | cons range ranges ih => simp [expand_cons, total, ih]

theorem takeAll_eq (limit : Nat) (ranges : List IndexRange) :
    takeAll limit ranges = (expand ranges).take limit := by
  induction ranges generalizing limit with
  | nil => simp [takeAll, expand]
  | cons range ranges ih =>
    cases limit with
    | zero => simp [takeAll]
    | succ limit =>
      rw [expand_cons, List.take_append, length_elements, ← take_eq, ← ih]
      rfl

end Cqasm.Typed.IndexRange
