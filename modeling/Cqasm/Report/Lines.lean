import Cqasm.Text.Character

/-!
# Lines of source text

A text is cut into lines after the characters that end a line, which stay with their line. There is
no empty line after the last end. Locations count lines that end with a line feed. A displayed line
ends with any line end, a carriage return and the line feed after it being one.

## Main definitions

* `splitLines` : the lines of a text, for a given test of line ends;
* `endsCountedLine`, `endsShownLine` : the two tests.
-/

namespace Cqasm.Report

/-- The lines of a text. A line ends after a character `c` for which `isEnd c next` holds, where
`next` is the character after it. -/
def splitLines (isEnd : Char → Option Char → Bool) : List Char → List (List Char)
  | [] => []
  | c :: rest =>
    if isEnd c rest.head? then
      [c] :: splitLines isEnd rest
    else
      match splitLines isEnd rest with
      | [] => [[c]]
      | line :: lines => (c :: line) :: lines

/-- Does `c` end a line that locations count? -/
def endsCountedLine (c : Char) (_next : Option Char) : Bool := c = '\n'

/-- Does `c` end a displayed line? -/
def endsShownLine (c : Char) (next : Option Char) : Bool :=
  Text.endsLine c && !(c = '\r' && next = some '\n')

theorem flatten_splitLines (isEnd : Char → Option Char → Bool) (text : List Char) :
    (splitLines isEnd text).flatten = text := by
  induction text with
  | nil => rfl
  | cons c rest ih =>
    unfold splitLines
    split
    · simp [ih]
    · split <;> simp_all

theorem ne_nil_of_mem_splitLines {isEnd : Char → Option Char → Bool} {text line : List Char}
    (h : line ∈ splitLines isEnd text) : line ≠ [] := by
  induction text generalizing line with
  | nil => simp [splitLines] at h
  | cons c rest ih =>
    unfold splitLines at h
    split at h
    · rcases List.mem_cons.1 h with rfl | h
      · simp
      · exact ih h
    · split at h
      · simp_all
      · rename_i _ _ _ hlines
        rcases List.mem_cons.1 h with rfl | h
        · simp
        · exact ih (by simp [hlines, h])

end Cqasm.Report
