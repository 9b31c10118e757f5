import Cqasm.Location
import Cqasm.Report.Lines

/-!
# Spans of source text

The span of a location is the character that it points to. A column after the end of its line points
to the last character of the line, and a line that does not exist to the last character of the text.
In an empty text there is nothing to point to, and the span is empty.
-/

namespace Cqasm.Report

/-- The characters from position `start` up to position `stop`, counted from zero. -/
structure Span where
  start : Nat
  stop : Nat
deriving Repr, DecidableEq, Inhabited

/-- The position of a location in the given lines, the first of which has the given number. -/
def offset (loc : Location) : Nat → List (List Char) → Nat
  | _, [] => 0
  | number, line :: lines =>
    if number = loc.line then
      min (loc.column - 1) (line.length - 1)
    else
      line.length + offset loc (number + 1) lines

/-- The character that a location points to. -/
def span (loc : Location) (text : List Char) : Span :=
  if text.isEmpty then
    ⟨0, 0⟩
  else
    let start := min (offset loc 1 (splitLines endsCountedLine text)) (text.length - 1)
    ⟨start, start + 1⟩

end Cqasm.Report
