/-!
# Locations in source text

A location is the line and the column, both counted from one, of the first character of a piece of
source text. Locations are ordered as they follow each other in the text: by line, then by column.
-/

namespace Cqasm

/-- The one-based line and column of a character. -/
structure Location where
  line : Nat
  column : Nat
deriving Repr, DecidableEq, Inhabited

namespace Location

/-- The location as it is quoted in messages, `line:column`. -/
def display (loc : Location) : String := toString loc.line ++ ":" ++ toString loc.column

instance : ToString Location := ⟨display⟩

/-- The order of the text: by line, then by column. -/
instance : LE Location where
  le a b := a.line < b.line ∨ a.line = b.line ∧ a.column ≤ b.column

instance (a b : Location) : Decidable (a ≤ b) :=
  inferInstanceAs (Decidable (a.line < b.line ∨ a.line = b.line ∧ a.column ≤ b.column))

theorem le_def {a b : Location} :
    a ≤ b ↔ a.line < b.line ∨ a.line = b.line ∧ a.column ≤ b.column := Iff.rfl

theorem le_trans {a b c : Location} (hab : a ≤ b) (hbc : b ≤ c) : a ≤ c := by
  simp only [le_def] at *
  omega

theorem le_total (a b : Location) : a ≤ b ∨ b ≤ a := by
  simp only [le_def]
  omega

theorem le_antisymm {a b : Location} (hab : a ≤ b) (hba : b ≤ a) : a = b := by
  obtain ⟨la, ca⟩ := a
  obtain ⟨lb, cb⟩ := b
  simp only [le_def, mk.injEq] at *
  omega

/-- The locations in the order of the text. -/
def sort (locs : List Location) : List Location := locs.mergeSort (decide <| · ≤ ·)

theorem sort_perm (locs : List Location) : (sort locs).Perm locs := List.mergeSort_perm ..

theorem pairwise_sort (locs : List Location) : (sort locs).Pairwise (· ≤ ·) := by
  refine (List.pairwise_mergeSort ?_ ?_ locs).imp (by simp)
  · intro a b c hab hbc
    simp only [decide_eq_true_eq] at *
    exact le_trans hab hbc
  · intro a b
    simpa using le_total a b

end Location

end Cqasm
