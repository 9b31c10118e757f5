import Cqasm.Proofs.Analysis.Execution
import Cqasm.Proofs.Dialect.Tables

/-!
# Warnings

A warning says that an instruction is deprecated, and is recorded where the overload of the
instruction is chosen. So there is one for each instruction of the typed program whose overload has a
replacement, in program order (`warnings_analyze`). No overload of cQASM 3.0 has one.

* `Typed.GateCall.replacement?` : what is to be used instead of an instruction;
* `Tree.Program.instructions` : the instructions of a program as written.
-/

namespace Cqasm

open Analysis
open Diagnostics (select select_append select_of_causes select_flatMap)

/-- What is to be used instead of the overload of the instruction, if it is deprecated. -/
def Typed.GateCall.replacement? (call : Typed.GateCall) : Option String :=
  call.overload.bind (·.replacement)

namespace Tree

/-- The instructions of a program, at any depth and those of bundles one by one. -/
def Program.instructions (program : Program) : List Instruction :=
  program.nodes.flatMap Stmt.ownInstructions

/-- The warning about an instruction, if it is deprecated. -/
def Instruction.warning? (dialect : Dialect) (i : Instruction) (call : Typed.GateCall) :
    Option Diagnostic :=
  call.replacement?.map fun replacement =>
    ⟨.deprecatedInstruction i.name.name replacement, i.loc, some dialect⟩

end Tree

/-! ## The sort of warnings -/

/-- Is it a warning rather than an error? -/
def Cause.isWarning (cause : Cause) : Bool := cause.severity = .warning

theorem Diagnostics.warnings_eq_select (log : Diagnostics) :
    log.warnings = log.select Cause.isWarning := rfl

theorem Cause.executed_isWarning : Executed isWarning where
  incompatibleTypes _ _ := rfl
  expectedConstInteger := rfl
  invalidRegisterSize _ := rfl
  invalidIterationCount _ := rfl
  notAssignable _ := rfl
  inExpr {_ cause} h := by
    cases cause with
    | deprecatedInstruction name replacement => exact h.elim
    | _ => rfl
  duplicateDeclaration _ := rfl

/-! ## Overloads -/

namespace Dialect

/-- Nothing is deprecated in cQASM 3.0. -/
theorem replacement_of_get?_v3 {name : String} {set : OverloadSet}
    (hset : v3.instructions.get? name = some set) : ∀ o ∈ set.overloads, o.replacement = none := by
  rw [instructions, instructionTable3] at hset
  refine OverloadTable.forall_get?_ofList (fun o ho => ?_) hset
  have hall : ∀ o ∈ Builtin.instructions3, o.replacement = none := by decide
  exact hall o ho

end Dialect

namespace SymbolTable

variable (table : SymbolTable)

/-- The overload of an instruction is chosen with a warning if and only if it has a replacement. -/
theorem select_resolveInstruction (name : String) (args : List Ty) (loc : Location) :
    select Cause.isWarning (table.resolveInstruction name args loc).log
      = (((table.resolveInstruction name args loc).value.bind (·.replacement)).map fun replacement =>
          ⟨.deprecatedInstruction name replacement, loc, some table.dialect⟩).toList := by
  have hcall : select Cause.isWarning (table.resolveCall (.unknownInstruction name)
      (table.instruction? name) name args loc).log = [] :=
    select_of_causes (causes_resolveCall rfl (fun _ _ => rfl) fun _ _ _ _ => rfl)
  unfold resolveInstruction
  rw [Logged.log_bind, Logged.value_bind, select_append, hcall, List.nil_append]
  split
  · rfl
  · next o _ =>
    cases hreplacement : o.replacement with
    | none => simp [warnDeprecated, hreplacement, select]
    | some replacement =>
      simp [warnDeprecated, hreplacement, select, Cause.isWarning, Cause.severity]

theorem replacement_resolveInstruction_v3 (h : table.dialect = .v3) {name : String} {args : List Ty}
    {loc : Location} {o : Overload}
    (ho : (table.resolveInstruction name args loc).value = some o) : o.replacement = none := by
  rw [value_resolveInstruction] at ho
  obtain ⟨⟨set, hset, hmem⟩, -⟩ := accepts_of_resolve (resolve_of_toOption ho)
  rw [instruction?, h] at hset
  exact Dialect.replacement_of_get?_v3 hset o hmem

end SymbolTable

/-! ## Instructions -/

namespace Tree.Stmt

variable (env : Env) (i : Instruction)

theorem overload_analyzeInstruction :
    (analyzeInstruction i env).value.1.overload = (choice env i).value := by
  rw [(analyzeInstruction_eq env i).1, choice]

theorem warnings_choice :
    select Cause.isWarning (choice env i).log
      = (i.warning? env.table.dialect (analyzeInstruction i env).value.1).toList := by
  rw [choice, SymbolTable.select_resolveInstruction, Instruction.warning?,
    Typed.GateCall.replacement?, overload_analyzeInstruction, choice]

theorem warnings_analyzeInstruction :
    Diagnostics.warnings (analyzeInstruction i env).log
      = (i.warning? env.table.dialect (analyzeInstruction i env).value.1).toList := by
  rw [Diagnostics.warnings_eq_select, Cause.executed_isWarning.select_analyzeInstruction,
    warnings_choice]

theorem replacement_analyzeInstruction_v3 (h : env.table.dialect = .v3) :
    (analyzeInstruction i env).value.1.replacement? = none := by
  rw [Typed.GateCall.replacement?, overload_analyzeInstruction]
  exact Option.bind_eq_none_iff.mpr fun o ho =>
    env.table.replacement_resolveInstruction_v3 h ho

end Tree.Stmt

namespace Site

open Tree.Stmt

/-- The instructions of the statement itself, as written and after analysis. -/
def calls (site : Site) : List (Tree.Instruction × Typed.GateCall) :=
  site.stmt.ownInstructions.map fun i => (i, (analyzeInstruction i site.env).value.1)

theorem executed_isWarning (site : Site) :
    site.executed Cause.isWarning
      = site.calls.filterMap fun (i, call) => i.warning? site.env.table.dialect call := by
  have hcontrol : select Cause.isWarning site.control = [] := by
    unfold control
    split
    · exact select_of_causes (causes_checkLoopControl rfl)
    · rfl
  rw [executed, hcontrol, List.append_nil, choices, select_flatMap, calls, List.filterMap_map,
    List.filterMap_eq_flatMap_toList]
  exact List.flatMap_congr fun i _ => warnings_choice site.env i

end Site

/-! ## Programs -/

namespace Tree.Program

variable {program : Program} {dialect : Dialect}

/-- The instructions of a program of the given dialect, as written and after analysis. -/
def calls (dialect : Dialect) (program : Program) : List (Instruction × Typed.GateCall) :=
  (program.sites dialect).flatMap Site.calls

theorem fst_calls (dialect : Dialect) (program : Program) :
    (program.calls dialect).map Prod.fst = program.instructions := by
  rw [instructions, ← stmts_eq dialect, List.flatMap_map, calls, List.map_flatMap]
  refine List.flatMap_congr fun site _ => ?_
  rw [Site.calls, List.map_map]
  exact List.map_id _

theorem snd_calls (h : program.dialect? = some dialect) :
    (program.calls dialect).map Prod.snd = program.analyze.program.gateCalls := by
  rw [Typed.Program.gateCalls, nodes_eq h, List.flatMap_map, calls, List.map_flatMap]
  refine List.flatMap_congr fun site _ => ?_
  rw [site.ownCalls_node, Site.calls, List.map_map]
  rfl

theorem names_calls (dialect : Dialect) (program : Program) :
    ∀ pair ∈ program.calls dialect, pair.2.name = pair.1.name.name := by
  intro pair hpair
  obtain ⟨site, -, hpair⟩ := List.mem_flatMap.mp hpair
  obtain ⟨i, -, rfl⟩ := List.mem_map.mp hpair
  rw [(Stmt.analyzeInstruction_eq site.env i).1]

theorem zip_gateCalls (h : program.dialect? = some dialect) :
    program.instructions.zip program.analyze.program.gateCalls = program.calls dialect :=
  (List.zip_of_prod (fst_calls dialect program) (snd_calls h)).symm

theorem warnings_calls (h : program.dialect? = some dialect) :
    program.analyze.diagnostics.warnings
      = (program.calls dialect).filterMap fun (i, call) => i.warning? dialect call := by
  rw [Diagnostics.warnings_eq_select, select_analyze Cause.executed_isWarning h, calls,
    List.filterMap_flatMap]
  refine List.flatMap_congr fun site hsite => ?_
  rw [site.executed_isWarning, dialect_of_mem_sites hsite]

theorem warnings_v3 (h : program.dialect? = some .v3) :
    program.analyze.diagnostics.warnings = [] := by
  rw [warnings_calls h, List.filterMap_eq_nil_iff]
  intro pair hpair
  obtain ⟨site, hsite, hpair⟩ := List.mem_flatMap.mp hpair
  obtain ⟨i, -, rfl⟩ := List.mem_map.mp hpair
  dsimp only
  rw [Instruction.warning?, Stmt.replacement_analyzeInstruction_v3 _ _ (dialect_of_mem_sites hsite)]
  rfl

/-- The warnings are those about the instructions whose overloads have a replacement, in program
order. There is none in cQASM 3.0, none about an expression and none about an instruction without an
overload. -/
theorem warnings_analyze (h : program.dialect? = some dialect) :
    program.analyze.program.gateCalls.map (·.name) = program.instructions.map (·.name.name)
      ∧ program.analyze.diagnostics.warnings
        = (program.instructions.zip program.analyze.program.gateCalls).filterMap
          (fun (i, call) => i.warning? dialect call)
      ∧ (dialect = .v3 → program.analyze.diagnostics.warnings = [])
      ∧ (∀ (table : SymbolTable) (e : Expr), Diagnostics.warnings (e.analyze table).log = [])
      ∧ ∀ (env : Env) (i : Instruction),
        (Stmt.analyzeInstruction i env).value.1.overload = none →
          Diagnostics.warnings (Stmt.analyzeInstruction i env).log = [] := by
  refine ⟨?_, ?_, ?_, ?_, ?_⟩
  · rw [← snd_calls h, ← fst_calls dialect, List.map_map, List.map_map]
    exact List.map_congr_left (names_calls dialect program)
  · rw [zip_gateCalls h]
    exact warnings_calls h
  · rintro rfl
    exact warnings_v3 h
  · exact fun table e => Cause.executed_isWarning.select_expr table e
  · intro env i hnone
    rw [Stmt.warnings_analyzeInstruction, Instruction.warning?, Typed.GateCall.replacement?, hnone]
    rfl

/-- `version 1.2; qubits 2; Prep q[0]; { measure q[0] | x q[1] }; .s { prep b[0]; measure y }`, where
`y` is not declared. -/
def oldNames : Program :=
  let loc : Location := ⟨1, 1⟩
  let on (name : String) (operand : Expr) : Instruction := ⟨⟨name, loc⟩, none, [operand], loc⟩
  { version := some ⟨[1, 2], loc⟩
    stmts :=
      [.qubits (.int loc 2) loc,
        .instruction (on "Prep" (.items loc "q" [0])),
        .bundle [on "measure" (.items loc "q" [0]), on "x" (.items loc "q" [1])] loc,
        .subcircuit ⟨"s", loc⟩ none
          [.instruction (on "prep" (.items loc "b" [0])),
            .instruction (on "measure" (.name ⟨"y", loc⟩))] loc] }

/-- There is no `prep` of a bit, so nothing warns of it. -/
theorem warnings_analyze_oldNames :
    oldNames.dialect? = some .v1
      ∧ oldNames.analyze.program.gateCalls.map (fun call => (call.name, call.replacement?))
        = [("Prep", some "prep_z"), ("measure", some "measure_z"), ("x", none), ("prep", none),
          ("measure", some "measure_z")]
      ∧ oldNames.analyze.diagnostics.warnings
        = [("Prep", "prep_z"), ("measure", "measure_z"), ("measure", "measure_z")].map
          fun (name, replacement) =>
            ⟨.deprecatedInstruction name replacement, ⟨1, 1⟩, some .v1⟩ := by
  have hdialect : oldNames.dialect? = some .v1 := rfl
  obtain ⟨-, hwarnings, -, -, -⟩ := warnings_analyze hdialect
  exact ⟨hdialect, by decide +kernel, hwarnings.trans (by decide +kernel)⟩

end Tree.Program

end Cqasm
