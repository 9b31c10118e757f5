import Cqasm.Diagnostic.Basic
import Cqasm.Report.Span
import Cqasm.Text.Character

/-!
# Rendered reports

A report shows a message together with the line of the source text that it is about and an arrow to
the character that its location points to. Columns of the displayed line are counted in characters,
but the arrow takes account of their widths: a tab reaches to the next multiple of four columns, and
wide and combining characters have the widths of a terminal.

## Main definitions

* `Source` : a text and the path shown for it;
* `Notice` : what is reported;
* `shownAt` : the displayed line of a position;
* `Notice.render`, `renderAll` : the text of a report and of several reports;
* `Diagnostics.render`, `Diagnostics.printFile` : reports of diagnostics.
-/

namespace Cqasm.Report

/-- A source text and the path that reports show for it. -/
structure Source where
  path : String
  text : String
deriving Repr, DecidableEq, Inhabited

/-- A message about a location. -/
structure Notice where
  message : String
  loc : Location
  isWarning : Bool
deriving Repr, DecidableEq, Inhabited

/-! ## The displayed line -/

/-- A displayed line and a column in it, counted from zero. -/
structure Shown where
  /-- The number of the line, counted from one. -/
  number : Nat
  column : Nat
  line : List Char
deriving Repr, DecidableEq

/-- The line and column of a position in the given lines, the first of which has the given
number. -/
def shownIn (number position : Nat) : List (List Char) → Shown
  | [] => ⟨number, position, []⟩
  | line :: lines =>
    if position < line.length then
      ⟨number, position, line⟩
    else
      shownIn (number + 1) (position - line.length) lines

/-- The displayed line and the column of a position in a text. -/
def shownAt (position : Nat) (text : List Char) : Shown :=
  shownIn 1 position (splitLines endsShownLine text)

/-- The line without the white space at its end. -/
def trimEnd (line : List Char) : List Char := (line.reverse.dropWhile Text.isBlank).reverse

/-! ## Columns -/

/-- The distance between tab stops. -/
def tabStop : Nat := 4

/-- The width of character `c` in the given column. -/
def widthAt (c : Char) (column : Nat) : Nat :=
  if c = '\t' then tabStop - column % tabStop
  else if Text.isBlank c then 1
  else Text.width c

/-- The text that is shown for character `c` in the given column: white space as spaces. -/
def cell (c : Char) (column : Nat) : List Char :=
  if Text.isBlank c then List.replicate (widthAt c column) ' ' else [c]

/-- The text that is shown for a line. -/
def cells (line : List Char) : List Char := line.zipIdx.flatMap fun (c, column) => cell c column

/-- The width of a column of a line. Columns after its end have width one. -/
def columnWidth (chars : List Char) (column : Nat) : Nat :=
  match chars[column]? with
  | none => 1
  | some c => widthAt c column

/-- The arrow to a column of a line. -/
def arrow (line : List Char) (column : Nat) : List Char :=
  ((List.range column).flatMap fun before => List.replicate (columnWidth line before) ' ')
    ++ ('╰' :: List.replicate (columnWidth line column - 1) '─').take (columnWidth line column)
    ++ List.replicate (columnWidth line (column + 1)) '─'

/-! ## Reports -/

/-- So many spaces. -/
def spaces (n : Nat) : String := String.ofList (List.replicate n ' ')

/-- The text of a report. -/
def Notice.render (source : Source) (notice : Notice) : String :=
  let text := source.text.toList
  let span := span notice.loc text
  let shown := shownAt span.start text
  let line := trimEnd shown.line
  let number := toString shown.number
  let arrow := if span.start = span.stop then ['╰'] else arrow line shown.column
  (if notice.isWarning then "Warning: " else "Error: ") ++ notice.message ++ "\n"
    ++ spaces (number.length + 2) ++ "╭─[ " ++ source.path ++ ":" ++ number ++ ":"
    ++ toString (shown.column + 1) ++ " ]\n"
    ++ " " ++ number ++ " │" ++ String.ofList (cells line) ++ "\n"
    ++ spaces (number.length + 2) ++ "│" ++ String.ofList arrow ++ " Near this point\n"
    ++ "\n"

/-- The texts of several reports, one after the other. -/
def renderAll (source : Source) (notices : List Notice) : String :=
  String.join (notices.map (Notice.render source))

/-- Why a source text cannot be read. -/
inductive SourceError where
  | notFound
deriving Repr, DecidableEq, Inhabited

end Cqasm.Report

namespace Cqasm

/-- What is reported about a diagnostic. -/
def Diagnostic.notice (d : Diagnostic) : Report.Notice :=
  { message := d.message, loc := d.loc, isWarning := d.isWarning }

/-- The reports of the diagnostics. -/
def Diagnostics.render (source : Report.Source) (ds : Diagnostics) : String :=
  Report.renderAll source (ds.map (·.notice))

/-- The reports of the diagnostics of a file, given the outcome of reading it. Without diagnostics
the file is not needed. -/
def Diagnostics.printFile (path : String) (contents : Except Report.SourceError String)
    (ds : Diagnostics) : Except Report.SourceError String :=
  if ds.isEmpty then .ok "" else contents.map fun text => ds.render { path, text }

end Cqasm
