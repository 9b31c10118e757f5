import Cqasm.Typed.IndexRange
import Mathlib.Data.Int.Range

/-!
# The elements of a range

A range is walked through upwards, or, if its last element is the smaller one, upwards from there and
then the other way round (`elements_eq_walk`). In both directions every integer between the bounds
is an element (`mem_elements`). So a range has an element outside of a register if and only if one
of its bounds is outside (`exists_outside_iff`), however long it is.

* `IndexRange.walk` : the elements of a range as they are walked through.
-/

namespace Cqasm.Typed.IndexRange

/-! ## Ascending integers -/

/-- The integers from `m` to `n`, both included, in ascending order. -/
def upTo (m n : Int) : List Int := Int.range m (n + 1)

theorem mem_upTo {m n e : Int} : e ∈ upTo m n ↔ m ≤ e ∧ e ≤ n := by
  rw [upTo, Int.mem_range_iff, Int.lt_add_one_iff]

theorem length_upTo (m n : Int) : (upTo m n).length = (n + 1 - m).toNat := by
  simp [upTo, Int.range]

theorem getElem_upTo {m n : Int} {i : Nat} (h : i < (upTo m n).length) : (upTo m n)[i] = m + i := by
  simp [upTo, Int.range]

/-! ## Walking through a range -/

/-- The elements in the order of the walk: ascending from the first to the last, or else what is
ascending from the last to the first in reverse. -/
def walk (range : IndexRange) : List Int :=
  if range.first ≤ range.last then
    upTo range.first.toInt range.last.toInt
  else
    (upTo range.last.toInt range.first.toInt).reverse

theorem elements_eq_walk (range : IndexRange) : range.elements = range.walk := by
  unfold walk
  split
  · next h =>
    have hle := Int64.le_iff_toInt_le.mp h
    refine List.ext_getElem ?_ fun i _ _ => ?_
    · rw [length_elements, length_upTo, count]
      omega
    · rw [getElem_upTo]
      simp [elements, element, h]
  · next h =>
    have hlt := Int.not_le.mp (mt Int64.le_iff_toInt_le.mpr h)
    refine List.ext_getElem ?_ fun i hi _ => ?_
    · rw [length_elements, List.length_reverse, length_upTo, count]
      omega
    · rw [length_elements, count] at hi
      rw [List.getElem_reverse, getElem_upTo, length_upTo]
      simp only [elements, element, h, if_false, List.getElem_map, List.getElem_range]
      omega

theorem expand_eq_walk (ranges : List IndexRange) : expand ranges = ranges.flatMap walk := by
  unfold expand
  rw [funext elements_eq_walk]

/-- The elements are the integers between the bounds, whichever of them is the smaller one. -/
theorem mem_elements {range : IndexRange} {e : Int} :
    e ∈ range.elements ↔ range.first.toInt ≤ e ∧ e ≤ range.last.toInt
      ∨ range.last.toInt ≤ e ∧ e ≤ range.first.toInt := by
  rw [elements_eq_walk, walk]
  split
  · next h =>
    have hle := Int64.le_iff_toInt_le.mp h
    rw [mem_upTo]
    omega
  · next h =>
    have hlt := Int.not_le.mp (mt Int64.le_iff_toInt_le.mpr h)
    rw [List.mem_reverse, mem_upTo]
    omega

/-! ## Registers -/

/-- An integer that is no element of a register of the given size. -/
def Outside (size : Nat) (e : Int) : Prop := e < 0 ∨ size ≤ e

/-- A range with an element outside of a register starts or ends there. -/
theorem exists_outside_iff {range : IndexRange} {size : Nat} :
    (∃ e ∈ range.elements, Outside size e)
      ↔ Outside size range.first.toInt ∨ Outside size range.last.toInt := by
  simp only [mem_elements, Outside]
  constructor
  · rintro ⟨e, hmem, houtside⟩
    omega
  · rintro (hfirst | hlast)
    · exact ⟨range.first.toInt, by omega, hfirst⟩
    · exact ⟨range.last.toInt, by omega, hlast⟩

end Cqasm.Typed.IndexRange
