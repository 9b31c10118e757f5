import Cqasm.Proofs.Analysis.Selection
import Cqasm.Proofs.Scoping.FirstWins
import Mathlib.Data.List.Dedup

/-!
# Duplicates are reported once

A name may be taken in two ways: a scope binds it to a symbol, or it is the name of a subcircuit
anywhere in the program. Each declaration whose name is taken is reported once, and nothing else is
reported in these words (`duplicates_analyze`).

* `Diagnostics.duplicates` : the reports of names that are taken;
* `Typed.alreadyBound` : the number of declarations that failed;
* `Typed.Program.subcircuits` : the names of the subcircuits of a program;
* `Tallies` : what is counted from one point of the analysis to another one.
-/

namespace Cqasm

/-- Is it a declaration of a name that is taken? -/
def Cause.isDuplicateDeclaration : Cause → Bool
  | duplicateDeclaration _ => true
  | _ => false

/-- The reports of declarations whose names are taken. -/
def Diagnostics.duplicates (log : Diagnostics) : Diagnostics :=
  log.select Cause.isDuplicateDeclaration

namespace Typed

/-- Did the declaration fail since its name was bound already? -/
def isAlreadyBound : SymbolRef → Bool
  | .error .alreadyBound => true
  | _ => false

/-- The number of declarations that failed. -/
def alreadyBound (symbols : List SymbolRef) : Nat := symbols.countP isAlreadyBound

@[simp] theorem alreadyBound_append (symbols symbols' : List SymbolRef) :
    alreadyBound (symbols ++ symbols') = alreadyBound symbols + alreadyBound symbols' :=
  List.countP_append ..

/-- The name of a subcircuit. -/
def Stmt.subcircuit? : Stmt → Option String
  | subcircuit _ name _ _ => some name
  | _ => none

/-- The names of the subcircuits of a program, at any depth. -/
def Program.subcircuits (program : Program) : List String :=
  program.nodes.filterMap Stmt.subcircuit?

end Typed

open Typed (alreadyBound alreadyBound_append)

/-! ## Checks -/

namespace Cause

/-- The checks declare nothing. -/
theorem unchecked_isDuplicateDeclaration : Unchecked isDuplicateDeclaration where
  incompatibleTypes _ _ := rfl
  expectedConstInteger := rfl
  invalidRegisterSize _ := rfl
  invalidIterationCount _ := rfl
  notAssignable _ := rfl

/-- No name is declared in an expression. -/
theorem InExpr.isDuplicateDeclaration {dialect : Dialect} {cause : Cause}
    (h : cause.InExpr dialect) : cause.isDuplicateDeclaration = false := by
  cases cause with
  | duplicateDeclaration name => exact h.elim
  | _ => rfl

end Cause

@[simp] theorem Diagnostics.duplicates_append (log log' : Diagnostics) :
    duplicates (log ++ log') = duplicates log ++ duplicates log' := select_append ..

open Cause (unchecked_isDuplicateDeclaration)
open Diagnostics (duplicates duplicates_append select_of_causes)

namespace Tree

theorem Expr.selectAll_isDuplicateDeclaration (table : SymbolTable) (es : List Expr) :
    selectAll Cause.isDuplicateDeclaration table es = [] :=
  selectAll_eq_nil table (fun _ => Cause.InExpr.isDuplicateDeclaration) es

theorem Expr.duplicates_log (table : SymbolTable) (e : Expr) :
    duplicates (e.analyze table).log = [] := by
  rw [duplicates, ← selectAll_singleton, selectAll_isDuplicateDeclaration]

namespace Stmt

open Analysis Tree.Expr

variable (env : Env)

theorem duplicates_condition (e : Expr) : duplicates (condition e env).log = [] := by
  rw [duplicates, select_condition unchecked_isDuplicateDeclaration,
    selectAll_isDuplicateDeclaration]

theorem duplicates_analyzeBound (e : Expr) : duplicates (analyzeBound e env).log = [] := by
  rw [duplicates, select_analyzeBound unchecked_isDuplicateDeclaration,
    selectAll_isDuplicateDeclaration]

theorem duplicates_choice (i : Instruction) : duplicates (choice env i).log = [] :=
  select_of_causes (SymbolTable.causes_resolveInstruction rfl (fun _ _ => rfl)
    (fun _ _ _ _ => rfl) fun _ => rfl)

theorem duplicates_analyzeInstructions (is : List Instruction) :
    duplicates (analyzeInstructions is env).log = [] := by
  refine List.Perm.eq_nil
    ((perm_select_analyzeInstructions unchecked_isDuplicateDeclaration env is).trans ?_)
  rw [selectAll_isDuplicateDeclaration, List.nil_append]
  exact .of_eq (List.flatMap_eq_nil_iff.mpr fun i _ => duplicates_choice env i)

end Stmt

end Tree

/-! ## Tallies -/

/-- From one point of the analysis to another one, the diagnostics are recorded, the symbols declared
and subcircuits of the names found, while the names of the subcircuits so far go from `taken` to
`taken'`. Names are not taken twice, and for each declaration and each subcircuit whose name was taken
there is one report. -/
structure Tallies (taken : List String) (log : Diagnostics) (symbols : List SymbolRef)
    (names : List String) (taken' : List String) : Prop where
  nodup : taken.Nodup → taken'.Nodup
  mem_iff : ∀ name, name ∈ taken' ↔ name ∈ taken ∨ name ∈ names
  count : log.duplicates.length + taken'.length = alreadyBound symbols + names.length + taken.length

namespace Tallies

variable {taken taken₁ taken₂ names names' : List String} {log log' : Diagnostics}
  {symbols symbols' : List SymbolRef}

theorem silent (taken : List String) (h : log.duplicates = []) : Tallies taken log [] [] taken where
  nodup hnodup := hnodup
  mem_iff name := by simp
  count := by
    rw [h]
    rfl

theorem trans (h : Tallies taken log symbols names taken₁)
    (h' : Tallies taken₁ log' symbols' names' taken₂) :
    Tallies taken (log ++ log') (symbols ++ symbols') (names ++ names') taken₂ where
  nodup hnodup := h'.nodup (h.nodup hnodup)
  mem_iff name := by rw [h'.mem_iff, h.mem_iff, List.mem_append, or_assoc]
  count := by
    have hcount := h.count
    have hcount' := h'.count
    rw [duplicates_append, alreadyBound_append, List.length_append, List.length_append]
    omega

/-- Checks in front that report no duplicates. -/
theorem behind (hlog : log.duplicates = []) (h : Tallies taken log' symbols names taken₁) :
    Tallies taken (log ++ log') symbols names taken₁ := (silent taken hlog).trans h

/-- Checks behind that report no duplicates. -/
theorem before (h : Tallies taken log symbols names taken₁) (hlog : log'.duplicates = []) :
    Tallies taken (log ++ log') symbols names taken₁ := by
  have htrans := h.trans (silent taken₁ hlog)
  rwa [List.append_nil, List.append_nil] at htrans

end Tallies

namespace Analysis

theorem tallies_declareSymbol (symbol : Symbol) (env : Env) :
    Tallies env.subcircuits (declareSymbol symbol env).log [(declareSymbol symbol env).value.1] []
      (declareSymbol symbol env).value.2.subcircuits := by
  cases hbinds : env.table.current.binds symbol.name with
  | true =>
    obtain ⟨hvalue, hlog⟩ := declareSymbol_of_binds hbinds
    rw [hvalue, hlog]
    exact ⟨id, fun name => by simp, rfl⟩
  | false =>
    obtain ⟨hvalue, hlog⟩ := declareSymbol_of_not_binds hbinds
    rw [hvalue, hlog]
    exact ⟨id, fun name => by simp [Env.bindCurrent], rfl⟩

theorem tallies_nameSubcircuit (ident : Tree.Ident) (env : Env) :
    Tallies env.subcircuits (nameSubcircuit ident env).log [] [ident.name]
      (nameSubcircuit ident env).value.2.subcircuits := by
  unfold nameSubcircuit
  split
  · next hmem =>
    refine ⟨id, fun name => ?_, ?_⟩
    · show name ∈ env.subcircuits ↔ _
      rw [List.mem_singleton, or_iff_left_of_imp]
      rintro rfl
      exact hmem
    · show 1 + env.subcircuits.length = 0 + 1 + env.subcircuits.length
      rw [Nat.zero_add]
  · next hmem =>
    refine ⟨fun hnodup => List.nodup_cons.mpr ⟨hmem, hnodup⟩, fun name => ?_, ?_⟩
    · show name ∈ ident.name :: env.subcircuits ↔ _
      rw [List.mem_cons, List.mem_singleton, or_comm]
    · show 0 + (env.subcircuits.length + 1) = 0 + 1 + env.subcircuits.length
      omega

end Analysis

/-! ## Statements -/

/-- The tally of typed statements at any depth. -/
def Tallied (taken : List String) (log : Diagnostics) (nodes : List Typed.Stmt)
    (taken' : List String) : Prop :=
  Tallies taken log (nodes.flatMap Typed.Stmt.ownSymbols) (nodes.filterMap Typed.Stmt.subcircuit?)
    taken'

theorem Tallied.append {taken taken₁ taken₂ : List String} {log log' : Diagnostics}
    {nodes nodes' : List Typed.Stmt} (h : Tallied taken log nodes taken₁)
    (h' : Tallied taken₁ log' nodes' taken₂) : Tallied taken (log ++ log') (nodes ++ nodes') taken₂ := by
  unfold Tallied
  rw [List.flatMap_append, List.filterMap_append]
  exact h.trans h'

namespace Tree.Stmt

open Analysis

mutual

theorem tallied_analyze (env : Env) : (s : Stmt) →
    Tallied env.subcircuits (s.analyze env).log (s.analyze env).value.1.nodes
      (s.analyze env).value.2.subcircuits
  | .qubits size loc => by
    rw [(analyze_qubits env size loc).1, (analyze_qubits env size loc).2]
    have hchecks : duplicates ((size.analyze env.table).log
        ++ (env.table.registerSize (size.analyze env.table).value).log) = [] := by
      rw [duplicates_append, Expr.duplicates_log, duplicates,
        SymbolTable.select_registerSize unchecked_isDuplicateDeclaration, List.append_nil]
    exact (Tallies.behind hchecks (tallies_declareSymbol _ env)).trans (tallies_declareSymbol _ _)
  | .declare name type init loc => by
    rw [(analyze_declare env name type init loc).1, (analyze_declare env name type init loc).2]
    refine Tallies.behind ?_ (tallies_declareSymbol _ env)
    rw [duplicates, Diagnostics.select_append, select_analyzeType unchecked_isDuplicateDeclaration,
      select_analyzeInit unchecked_isDuplicateDeclaration, Expr.selectAll_isDuplicateDeclaration,
      Expr.selectAll_isDuplicateDeclaration, List.append_nil]
  | .map target name loc => by
    rw [(analyze_map env target name loc).1, (analyze_map env target name loc).2]
    exact Tallies.behind (Expr.duplicates_log _ target) (tallies_declareSymbol _ env)
  | .instruction i => by
    rw [(analyze_instruction env i).1, (analyze_instruction env i).2]
    refine Tallies.silent _ ?_
    rw [duplicates, select_analyzeInstruction unchecked_isDuplicateDeclaration,
      Expr.selectAll_isDuplicateDeclaration, List.nil_append]
    exact duplicates_choice env i
  | .bundle is loc => by
    rw [(analyze_bundle env is loc).1, (analyze_bundle env is loc).2]
    exact Tallies.silent _ (duplicates_analyzeInstructions env is)
  | .subcircuit name iterations body loc => by
    have hbody := tallied_analyzeAll ((nameSubcircuit name env).value.2.enter .subcircuit) body
    rw [(analyze_subcircuit env name iterations body loc).1,
      (analyze_subcircuit env name iterations body loc).2, Typed.Stmt.nodes]
    refine ((tallies_nameSubcircuit name env).before ?_).trans hbody
    rw [duplicates, select_analyzeIterations unchecked_isDuplicateDeclaration,
      Expr.selectAll_isDuplicateDeclaration]
  | .assign lhs rhs loc => by
    rw [(analyze_assign env lhs rhs loc).1, (analyze_assign env lhs rhs loc).2]
    refine Tallies.silent _ ?_
    rw [duplicates_append, duplicates_append, Expr.duplicates_log, Expr.duplicates_log, duplicates,
      select_checkAssign unchecked_isDuplicateDeclaration, List.append_nil, List.append_nil]
  | .ifElse branches otherwise loc => by
    have hotherwise := tallied_analyzeOtherwise (analyzeBranches branches env).value.2 otherwise
    rw [(analyze_ifElse env branches otherwise loc).1,
      (analyze_ifElse env branches otherwise loc).2, Typed.Stmt.nodes]
    exact (tallied_analyzeBranches env branches).append hotherwise
  | .whileLoop cond body loc => by
    have hbody := tallied_analyzeAll (env.enter .loop) body
    rw [(analyze_whileLoop env cond body loc).1, (analyze_whileLoop env cond body loc).2,
      Typed.Stmt.nodes]
    exact Tallies.behind (duplicates_condition env cond) hbody
  | .repeatUntil body cond loc => by
    have hbody := tallied_analyzeAll (env.enter .loop) body
    rw [(analyze_repeatUntil env body cond loc).1, (analyze_repeatUntil env body cond loc).2,
      Typed.Stmt.nodes]
    exact Tallies.before hbody (duplicates_condition _ cond)
  | .foreach name first last body loc => by
    have hname := tallies_declareSymbol ⟨name.name, .var, .int, name.loc⟩ (env.enter .loop)
    have hbody := tallied_analyzeAll
      (declareSymbol ⟨name.name, .var, .int, name.loc⟩ (env.enter .loop)).value.2 body
    have hbounds : duplicates ((analyzeBound first env).log ++ (analyzeBound last env).log) = [] := by
      rw [duplicates_append, duplicates_analyzeBound, duplicates_analyzeBound, List.append_nil]
    rw [(analyze_foreach env name first last body loc).1,
      (analyze_foreach env name first last body loc).2, Typed.Stmt.nodes]
    exact (Tallies.behind hbounds hname).trans hbody
  | .loopControl control loc => by
    rw [(analyze_loopControl env control loc).1, (analyze_loopControl env control loc).2]
    exact Tallies.silent _ (select_of_causes (causes_checkLoopControl rfl))

theorem tallied_analyzeAll (env : Env) : (ss : List Stmt) →
    Tallied env.subcircuits (analyzeAll ss env).log (Typed.Stmt.nodesAll (analyzeAll ss env).value.1)
      (analyzeAll ss env).value.2.subcircuits
  | [] => Tallies.silent _ rfl
  | s :: ss => by
    rw [(analyzeAll_cons env s ss).1, (analyzeAll_cons env s ss).2, Typed.Stmt.nodesAll]
    exact (tallied_analyze env s).append (tallied_analyzeAll _ ss)

theorem tallied_analyzeBranches (env : Env) : (branches : List (Expr × List Stmt)) →
    Tallied env.subcircuits (analyzeBranches branches env).log
      (Typed.Stmt.nodesBranches (analyzeBranches branches env).value.1)
      (analyzeBranches branches env).value.2.subcircuits
  | [] => Tallies.silent _ rfl
  | (cond, body) :: branches => by
    have hbody := tallied_analyzeAll (env.enter .branch) body
    have hrest := tallied_analyzeBranches
      (env.leave (analyzeAll body (env.enter .branch)).value.2) branches
    rw [(analyzeBranches_cons env cond body branches).1,
      (analyzeBranches_cons env cond body branches).2, Typed.Stmt.nodesBranches]
    exact Tallied.append (Tallies.behind (duplicates_condition env cond) hbody) hrest

theorem tallied_analyzeOtherwise (env : Env) : (otherwise : Option (List Stmt)) →
    Tallied env.subcircuits (analyzeOtherwise otherwise env).log
      (Typed.Stmt.nodesOtherwise (analyzeOtherwise otherwise env).value.1)
      (analyzeOtherwise otherwise env).value.2.subcircuits
  | none => Tallies.silent _ rfl
  | some body => by
    rw [(analyzeOtherwise_some env body).1, (analyzeOtherwise_some env body).2,
      Typed.Stmt.nodesOtherwise]
    exact tallied_analyzeAll (env.enter .branch) body

end

end Tree.Stmt

/-! ## Programs -/

/-- A list without duplicates that has the members of another one is as long as that one is without
its duplicates. -/
theorem length_eq_of_mem_iff {names taken : List String} (hnodup : taken.Nodup)
    (h : ∀ name, name ∈ taken ↔ name ∈ names) : taken.length = names.dedup.length := by
  refine List.Perm.length_eq ((List.perm_ext_iff_of_nodup hnodup names.nodup_dedup).mpr fun name => ?_)
  rw [h, List.mem_dedup]

namespace Tree.Program

variable {program : Program} {dialect : Dialect}

theorem tallies_analyze (h : program.dialect? = some dialect) :
    program.analyze.diagnostics.duplicates.length + program.analyze.program.subcircuits.dedup.length
      = alreadyBound program.analyze.program.symbols
        + program.analyze.program.subcircuits.length := by
  have htallied := Stmt.tallied_analyzeAll (Env.new dialect) program.stmts
  rw [analyze_eq h]
  have hlength := length_eq_of_mem_iff (htallied.nodup List.nodup_nil) fun name =>
    (htallied.mem_iff name).trans (or_iff_right List.not_mem_nil)
  have hcount := htallied.count
  rw [hlength] at hcount
  exact hcount

/-- Each duplicate is reported once: a declaration fails if and only if there is an earlier one of its
name in its block, and there is one report for each that fails and one for each subcircuit but the
first one of a name. -/
theorem duplicates_analyze (h : program.dialect? = some dialect) :
    program.analyze.diagnostics.duplicates.length + program.analyze.program.subcircuits.dedup.length
        = alreadyBound program.analyze.program.symbols + program.analyze.program.subcircuits.length
      ∧ List.Forall₂ FirstWins program.blocks program.analyze.program.blocks
      ∧ program.blocks.flatten.Perm program.declarations
      ∧ program.analyze.program.blocks.flatten.Perm program.analyze.program.symbols :=
  ⟨tallies_analyze h, firstWins_blocks h, Stmt.perm_blocksAll program.stmts,
    Typed.Stmt.perm_blocksAll program.analyze.program.stmts⟩

/-- `version 3; int x; .s { int x }; .s { foreach x = 0 .. 1 { int x } }; float x`. -/
def fourOfOneName : Program :=
  let loc : Location := ⟨1, 1⟩
  let x (type : ScalarKind) : Stmt := .declare ⟨"x", loc⟩ (.scalar type) none loc
  { version := some ⟨[3], loc⟩
    stmts :=
      [x .int,
        .subcircuit ⟨"s", loc⟩ none [x .int] loc,
        .subcircuit ⟨"s", loc⟩ none
          [.foreach ⟨"x", loc⟩ (.int loc 0) (.int loc 1) [x .int] loc] loc,
        x .float] }

/-- The second global `x`, the `x` in the loop over `x` and the second subcircuit are duplicates; the
`x` in the first subcircuit is none. -/
theorem duplicates_analyze_fourOfOneName :
    fourOfOneName.dialect? = some .v3
      ∧ fourOfOneName.analyze.diagnostics.duplicates.length = 3
      ∧ alreadyBound fourOfOneName.analyze.program.symbols = 2
      ∧ fourOfOneName.analyze.program.subcircuits = ["s", "s"]
      ∧ fourOfOneName.analyze.program.blocks
        = [[.ok 0, .error .alreadyBound], [.ok 1], [], [.ok 2, .error .alreadyBound]]
      ∧ List.Forall₂ FirstWins fourOfOneName.blocks fourOfOneName.analyze.program.blocks := by
  have hdialect : fourOfOneName.dialect? = some .v3 := rfl
  obtain ⟨hcount, hblocks, -, -⟩ := duplicates_analyze hdialect
  have hbound : alreadyBound fourOfOneName.analyze.program.symbols = 2 := by decide +kernel
  have hnames : fourOfOneName.analyze.program.subcircuits = ["s", "s"] := by decide +kernel
  refine ⟨hdialect, ?_, hbound, hnames, by decide +kernel, hblocks⟩
  rw [hbound, hnames, show ["s", "s"].dedup = ["s"] by decide] at hcount
  exact Nat.add_right_cancel hcount

end Tree.Program

end Cqasm
