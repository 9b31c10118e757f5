import Cqasm.Analysis.Stmt

/-!
# The analysis of programs

A program is analysed under the dialect of its version directive. Without a supported version
nothing is analysed; otherwise the analysis runs through to the end, whatever errors it finds.
-/

namespace Cqasm

/-- Is a program free of errors? -/
inductive AnalysisState where
  /-- There is no error. There may be warnings. -/
  | resolved
  | failed
deriving Repr, DecidableEq, Inhabited

/-- What the analysis of a program gives. -/
structure AnalysisResult where
  program : Typed.Program
  diagnostics : Diagnostics
  /-- The symbol table at the end, missing if the version is not supported. -/
  table : Option SymbolTable
deriving Inhabited

/-- Is the program free of errors? -/
def AnalysisResult.state (result : AnalysisResult) : AnalysisState :=
  if result.diagnostics.anyErrors then .failed else .resolved

namespace Tree.Program

/-- Where a program without a supported version is in error: at its version directive or else at its
first statement. -/
def versionLoc (program : Program) : Location :=
  match program.version, program.stmts with
  | some version, _ => version.loc
  | none, s :: _ => s.loc
  | none, [] => ⟨1, 1⟩

/-- The components of the version directive. -/
def versionItems (program : Program) : Option (List Int) := program.version.map (·.items)

/-- The result for a program without a supported version. -/
def unsupported (program : Program) : AnalysisResult :=
  { program := { version := none, dialect := none, stmts := [] }
    diagnostics := [⟨.unsupportedVersion program.versionItems, program.versionLoc, none⟩]
    table := none }

/-- The result for a program of the given dialect. -/
def analyzeAs (dialect : Dialect) (program : Program) : AnalysisResult :=
  let result := Stmt.analyzeAll program.stmts (.new dialect)
  { program := { version := program.versionItems, dialect := some dialect, stmts := result.value.1 }
    diagnostics := result.log
    table := some result.value.2.table }

/-- The result for a program. -/
def analyze (program : Program) : AnalysisResult :=
  match program.versionItems.bind Dialect.ofVersion? with
  | none => program.unsupported
  | some dialect => program.analyzeAs dialect

end Tree.Program

end Cqasm
