import Cqasm.Proofs.Checked.Dialect
import Cqasm.Proofs.Checked.Stmt
import Cqasm.Report.Span

/-!
# No program faults

The analysis of a program chooses a dialect, builds its tables and runs through the statements. None
of these steps faults, whatever the program is, and neither does finding the span of a location.
-/

namespace Cqasm.Checked

open Fault (difference difference_eq)

/-! ## Programs -/

/-- The result for a program of the given dialect. No diagnostics are recorded in front of the first
statement. -/
def analyzeAs (dialect : Dialect) (program : Tree.Program) : Except Fault AnalysisResult := do
  let ((stmts, env), recorded) ← analyzeStmts program.stmts (.new dialect) []
  pure
    { program := { version := program.versionItems, dialect := some dialect, stmts }
      diagnostics := recorded
      table := some env.table }

/-- The result for a program. -/
def analyze (program : Tree.Program) : Except Fault AnalysisResult :=
  match program.versionItems with
  | none => pure program.unsupported
  | some version => do
    match ← ofVersion? version with
    | none => pure program.unsupported
    | some dialect => analyzeAs dialect program

theorem analyzeAs_eq (dialect : Dialect) (program : Tree.Program) :
    analyzeAs dialect program = .ok (program.analyzeAs dialect) :=
  Fault.bind_eq (gives_analyzeStmts .new program.stmts []) rfl

theorem analyze_eq (program : Tree.Program) : analyze program = .ok program.analyze := by
  unfold analyze Tree.Program.analyze
  cases program.versionItems with
  | none => rfl
  | some version =>
    refine Fault.bind_eq (ofVersion?_eq version) ?_
    rw [Option.bind_some]
    cases Dialect.ofVersion? version with
    | none => rfl
    | some dialect => exact analyzeAs_eq dialect program

/-! ## Spans -/

open Report (Span splitLines endsCountedLine)

/-- The position of a location in the given lines, the first of which has the given number. The
column counts from one, and a column of zero is taken for the first one. -/
def offset (loc : Location) : Nat → List (List Char) → Except Fault Nat
  | _, [] => pure 0
  | number, line :: lines =>
    if number = loc.line then do
      let column ← difference (max loc.column 1) 1
      pure (min column (line.length - 1))
    else do
      let rest ← offset loc (number + 1) lines
      pure (line.length + rest)

/-- The character that a location points to. -/
def span (loc : Location) (text : List Char) : Except Fault Span :=
  if text.isEmpty then
    pure ⟨0, 0⟩
  else do
    let offset ← offset loc 1 (splitLines endsCountedLine text)
    let last ← difference text.length 1
    pure ⟨min offset last, min offset last + 1⟩

theorem offset_eq (loc : Location) (lines : List (List Char)) (number : Nat) :
    offset loc number lines = .ok (Report.offset loc number lines) := by
  induction lines generalizing number with
  | nil => rfl
  | cons line lines ih =>
    rw [offset, Report.offset]
    split
    · have hcolumn : max loc.column 1 - 1 = loc.column - 1 := by omega
      refine Fault.bind_eq (difference_eq (Nat.le_max_right _ _)) ?_
      rw [hcolumn]
      rfl
    · exact Fault.bind_eq (ih (number + 1)) rfl

theorem span_eq (loc : Location) (text : List Char) :
    span loc text = .ok (Report.span loc text) := by
  cases text with
  | nil => rfl
  | cons c rest =>
    refine Fault.bind_eq (offset_eq loc _ 1) ?_
    exact Fault.bind_eq (difference_eq (Nat.le_add_left 1 rest.length)) rfl

/-- For every program, with any names, nesting, literals and index entries, the run gives what the
analysis gives: no second global scope is opened, every scope and every symbol asked for is there,
nothing is taken from a smaller number, and no size, index or number of iterations is changed by
keeping it in 64 bits. A statement is valid just if the errors that have been recorded are as many
behind it as in front of it. Nor does finding the span of a location in a text fault. -/
theorem no_fault : (∀ program : Tree.Program, analyze program = .ok program.analyze)
    ∧ ∀ (loc : Location) (text : List Char), span loc text = .ok (Report.span loc text) :=
  ⟨analyze_eq, span_eq⟩

end Cqasm.Checked
