import Cqasm.Proofs.Analysis.Located
import Cqasm.Proofs.Analysis.Recorded
import Mathlib.Data.List.DropRight

/-!
# The version directive

The version directive is the only thing that stops an analysis. Without a supported version nothing
is analysed and the one diagnostic says so (`Stops`); with one, the whole program is analysed under the
dialect of the version, whatever errors are found (`RunsThrough`). A version is supported if it is one
of a few, followed by any number of zeros.

* `Dialect.Covers` : the versions of a dialect;
* `Tree.Program.Stops`, `Tree.Program.RunsThrough` : the two outcomes;
* `AnalysisResult.quoting` : a result that quotes another version.
-/

namespace Cqasm

/-! ## Supported versions -/

namespace Dialect

/-- The versions of a dialect that do not end in zeros. -/
def families : Dialect → List (List Int)
  | v1 => [[1], [1, 1], [1, 2]]
  | v3 => [[3]]

/-- The version is one of the dialect, followed by any number of zeros. -/
def Covers (dialect : Dialect) (version : List Int) : Prop :=
  ∃ family ∈ dialect.families, ∃ zeros, version = family ++ List.replicate zeros 0

theorem significant_append_zeros (version : List Int) (zeros : Nat) :
    significant (version ++ List.replicate zeros 0) = significant version := by
  induction zeros with
  | zero => rw [List.replicate_zero, List.append_nil]
  | succ zeros ih =>
    rw [List.replicate_succ', ← List.append_assoc, significant_append_zero, ih]

theorem ofVersion?_append_zeros (version : List Int) (zeros : Nat) :
    ofVersion? (version ++ List.replicate zeros 0) = ofVersion? version := by
  rw [ofVersion?, significant_append_zeros, ofVersion?]

theorem exists_eq_significant_append (version : List Int) :
    ∃ zeros, version = significant version ++ List.replicate zeros 0 := by
  have hsplit : significant version ++ version.rtakeWhile (· = 0) = version :=
    List.rdropWhile_append_rtakeWhile
  have hzeros : ∀ item ∈ version.rtakeWhile (· = 0), item = 0 := fun item hitem => by
    simpa using List.mem_rtakeWhile_imp hitem
  refine ⟨(version.rtakeWhile (· = 0)).length, ?_⟩
  rw [← List.eq_replicate_of_mem hzeros, hsplit]

theorem significant_of_mem_families {dialect : Dialect} {family : List Int}
    (h : family ∈ dialect.families) : significant family = family := by
  cases dialect with
  | v1 => exact (by decide : ∀ family ∈ families v1, significant family = family) family h
  | v3 => exact (by decide : ∀ family ∈ families v3, significant family = family) family h

theorem covers_iff {dialect : Dialect} {version : List Int} :
    dialect.Covers version ↔ significant version ∈ dialect.families := by
  constructor
  · rintro ⟨family, hfamily, zeros, rfl⟩
    rw [significant_append_zeros, significant_of_mem_families hfamily]
    exact hfamily
  · exact fun h => ⟨significant version, h, exists_eq_significant_append version⟩

/-- A version has the dialect that covers it. -/
theorem ofVersion?_eq_some_iff {dialect : Dialect} {version : List Int} :
    ofVersion? version = some dialect ↔ dialect.Covers version := by
  rw [covers_iff, ofVersion?]
  split
  all_goals
    cases dialect <;> simp_all [families]

end Dialect

/-! ## The two outcomes -/

namespace Tree.Program

/-- Nothing is analysed, and the one diagnostic says that the version is not supported. -/
structure Stops (program : Program) : Prop where
  table : program.analyze.table = none
  stmts : program.analyze.program.stmts = []
  version : program.analyze.program.version = none
  dialect : program.analyze.program.dialect = none
  diagnostics : program.analyze.diagnostics
    = [⟨.unsupportedVersion program.versionItems, program.versionLoc, none⟩]

/-- The whole program is analysed under the given dialect. -/
structure RunsThrough (under : Dialect) (program : Program) : Prop where
  table : ∃ table, program.analyze.table = some table ∧ table.dialect = under
  stmts : program.analyze.program.stmts.map (·.loc) = program.stmts.map (·.loc)
  version : program.analyze.program.version = program.versionItems
  dialect : program.analyze.program.dialect = some under
  supported : ∀ d ∈ program.analyze.diagnostics, ∀ version, d.cause ≠ .unsupportedVersion version
  diagnostics : ∀ d ∈ program.analyze.diagnostics, d.dialect = some under

variable {program : Program} {dialect : Dialect}

theorem analyze_eq_unsupported (h : program.dialect? = none) :
    program.analyze = program.unsupported := by
  unfold dialect? at h
  rw [analyze, h]

theorem stops_of_dialect? (h : program.dialect? = none) : program.Stops := by
  constructor <;> rw [analyze_eq_unsupported h, unsupported]

end Tree.Program

namespace Tree.Stmt

/-- There is one typed statement for each statement, at the same place. -/
theorem locs_analyzeAll (env : Env) (ss : List Stmt) :
    (analyzeAll ss env).value.1.map (·.loc) = ss.map (·.loc) := by
  induction ss generalizing env with
  | nil => rfl
  | cons s ss ih =>
    rw [(analyzeAll_cons env s ss).1, List.map_cons, List.map_cons, ih, Typed.Stmt.loc, mark_analyze,
      markAt]

end Tree.Stmt

namespace Tree.Program

variable {program : Program} {dialect : Dialect}

theorem runsThrough_of_dialect? (h : program.dialect? = some dialect) :
    RunsThrough dialect program where
  table := ⟨_, table_analyze h, dialect_finalTable dialect program⟩
  stmts := by
    rw [analyze_eq h]
    exact Stmt.locs_analyzeAll _ program.stmts
  version := by
    rw [analyze_eq h]
    rfl
  dialect := by
    rw [analyze_eq h]
    rfl
  supported d hd version hcause := by
    rw [analyze_eq h] at hd
    have hrecorded := inProgram_analyzeAs dialect program d hd
    rw [hcause] at hrecorded
    exact hrecorded
  diagnostics := dialect_of_mem_diagnostics h

theorem dialect?_eq_some_iff :
    program.dialect? = some dialect
      ↔ ∃ version, program.versionItems = some version ∧ dialect.Covers version := by
  rw [dialect?, Option.bind_eq_some_iff]
  exact exists_congr fun version => and_congr_right fun _ => Dialect.ofVersion?_eq_some_iff

/-- The version directive is missing or its version is none of any dialect. -/
theorem dialect?_eq_none_iff :
    program.dialect? = none ↔ program.versionItems = none
      ∨ ∃ version, program.versionItems = some version
        ∧ ∀ dialect, ¬ Dialect.Covers dialect version := by
  rw [dialect?, Option.bind_eq_none_iff]
  cases program.versionItems with
  | none => simp
  | some version =>
    simp [← Dialect.ofVersion?_eq_some_iff, Option.eq_none_iff_forall_ne_some]

theorem stops_iff : program.Stops ↔ program.dialect? = none := by
  refine ⟨fun hstops => ?_, stops_of_dialect?⟩
  cases hdialect : program.dialect? with
  | none => rfl
  | some dialect =>
    have htable := hstops.table
    rw [table_analyze hdialect] at htable
    cases htable

end Tree.Program

/-! ## Quoted versions -/

/-- The cause, with another version if it quotes one. -/
def Cause.quoting (version : Option (List Int)) : Cause → Cause
  | unsupportedVersion _ => unsupportedVersion version
  | cause => cause

/-- The diagnostic, with another version if it quotes one. -/
def Diagnostic.quoting (version : Option (List Int)) (d : Diagnostic) : Diagnostic :=
  { d with cause := d.cause.quoting version }

/-- The result, with another version wherever it quotes one. -/
def AnalysisResult.quoting (version : Option (List Int)) (result : AnalysisResult) :
    AnalysisResult :=
  { result with
    program := { result.program with version := result.program.version.bind fun _ => version }
    diagnostics := result.diagnostics.map (·.quoting version) }

theorem Diagnostic.quoting_eq_self {d : Diagnostic}
    (h : ∀ version, d.cause ≠ .unsupportedVersion version) (version : Option (List Int)) :
    d.quoting version = d := by
  obtain ⟨cause, loc, dialect⟩ := d
  cases cause with
  | unsupportedVersion version => exact absurd rfl (h version)
  | _ => rfl

namespace Tree.Program

/-- The program with more zeros at the end of its version. -/
def padded (zeros : Nat) (program : Program) : Program :=
  { program with
    version := program.version.map fun version =>
      { version with items := version.items ++ List.replicate zeros 0 } }

variable (zeros : Nat) (program : Program)

theorem versionItems_padded :
    (program.padded zeros).versionItems
      = program.versionItems.map (· ++ List.replicate zeros 0) := by
  rw [versionItems, padded, versionItems, Option.map_map, Option.map_map]
  rfl

theorem dialect?_padded : (program.padded zeros).dialect? = program.dialect? := by
  rw [dialect?, versionItems_padded, dialect?]
  cases program.versionItems with
  | none => rfl
  | some version => exact Dialect.ofVersion?_append_zeros version zeros

theorem versionLoc_padded : (program.padded zeros).versionLoc = program.versionLoc := by
  rw [versionLoc, versionLoc, padded]
  cases program.version <;> rfl

theorem unsupported_padded :
    (program.padded zeros).unsupported
      = program.unsupported.quoting (program.padded zeros).versionItems := by
  rw [unsupported, versionLoc_padded]
  rfl

theorem analyzeAs_padded (dialect : Dialect)
    (h : ∀ d ∈ (program.analyzeAs dialect).diagnostics, ∀ version,
      d.cause ≠ .unsupportedVersion version) :
    (program.padded zeros).analyzeAs dialect
      = (program.analyzeAs dialect).quoting (program.padded zeros).versionItems := by
  have hversion : (program.padded zeros).versionItems
      = program.versionItems.bind fun _ => (program.padded zeros).versionItems := by
    rw [versionItems_padded]
    cases program.versionItems <;> rfl
  have hlog : (program.analyzeAs dialect).diagnostics.map
      (·.quoting (program.padded zeros).versionItems) = (program.analyzeAs dialect).diagnostics :=
    (List.map_congr_left fun d hd => Diagnostic.quoting_eq_self (h d hd) _).trans (List.map_id _)
  rw [AnalysisResult.quoting, hlog]
  simp only [analyzeAs]
  rw [← hversion]
  rfl

/-- Zeros at the end of the version change nothing but the version that is quoted. -/
theorem analyze_padded :
    (program.padded zeros).analyze
      = program.analyze.quoting (program.padded zeros).versionItems := by
  have hpadded := dialect?_padded zeros program
  cases hdialect : program.dialect? with
  | none =>
    rw [analyze_eq_unsupported (hpadded.trans hdialect), analyze_eq_unsupported hdialect,
      unsupported_padded]
  | some dialect =>
    have hsupported := (runsThrough_of_dialect? hdialect).supported
    rw [analyze_eq hdialect] at hsupported
    rw [analyze_eq (hpadded.trans hdialect), analyze_eq hdialect,
      analyzeAs_padded zeros program dialect hsupported]

/-- An analysis stops if and only if the version directive is missing or not supported, and runs
through under the dialect of the version otherwise. Zeros at the end of the version change nothing but
the version that is quoted. -/
theorem version_analyze :
    (program.Stops ↔ program.versionItems = none
        ∨ ∃ version, program.versionItems = some version
          ∧ ∀ dialect, ¬ Dialect.Covers dialect version)
      ∧ (∀ version dialect, program.versionItems = some version → dialect.Covers version →
        RunsThrough dialect program)
      ∧ (program.padded zeros).analyze
        = program.analyze.quoting (program.padded zeros).versionItems := by
  refine ⟨stops_iff.trans dialect?_eq_none_iff, ?_, analyze_padded zeros program⟩
  intro version dialect hversion hcovers
  exact runsThrough_of_dialect? (dialect?_eq_some_iff.mpr ⟨version, hversion, hcovers⟩)

/-- A `break` outside of a loop in a program of the given version. -/
def versioned (items : List Int) : Program :=
  { version := some ⟨items, ⟨1, 1⟩⟩, stmts := [.loopControl .breakLoop ⟨2, 1⟩] }

/-- The version `1.2.0` is one of cQASM 1.x, which `1.0.2` is not. -/
theorem version_analyze_versioned :
    RunsThrough .v1 (versioned [1, 2, 0])
      ∧ (versioned [1, 2, 0]).analyze.diagnostics
        = [⟨.loopControlOutsideLoop "break", ⟨2, 1⟩, some .v1⟩]
      ∧ (versioned [1, 0, 2]).Stops := by
  obtain ⟨-, hruns, -⟩ := version_analyze 0 (versioned [1, 2, 0])
  obtain ⟨hstops, -, -⟩ := version_analyze 0 (versioned [1, 0, 2])
  refine ⟨hruns [1, 2, 0] .v1 rfl ⟨[1, 2], by decide, 1, rfl⟩, by decide +kernel, hstops.mpr ?_⟩
  refine Or.inr ⟨[1, 0, 2], rfl, fun dialect => ?_⟩
  rw [Dialect.covers_iff]
  cases dialect <;> decide

end Tree.Program

end Cqasm
