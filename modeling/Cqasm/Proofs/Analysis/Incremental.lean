import Cqasm.Proofs.Scoping.Blocks

/-!
# More statements at the end of a program

A program with more statements at its end is analysed as it is without them and then on from there
(`analyzeAll_append`). Nothing that has been found out is taken back: the statements, diagnostics and
symbols so far stay in front of the new ones, and since only the global scope is open between two
statements outside of all blocks, a name that is bound there stays bound to its symbol
(`extends_analyze`).

* `SymbolTable.Extends`, `AnalysisResult.Extends` : nothing is taken back.
-/

namespace Cqasm

namespace SymbolTable

/-- Symbols come behind those of the first table, and what a name stands for there it stands for in
the second one. -/
structure Extends (table table' : SymbolTable) : Prop where
  symbols : table.symbols <+: table'.symbols
  lookup : ∀ name record, table.lookup name = .ok record → table'.lookup name = .ok record

end SymbolTable

/-- What is declared in the outermost scope takes no name from what was declared there before. -/
theorem Env.Gains.extends {env env' : Env} {declared : List (Declaration × SymbolRef)}
    (h : env.Gains declared env') (hformed : env.table.Formed) (hformed' : env'.table.Formed)
    (hgrows : env.table.Grows env'.table) (houtermost : env.table.frames = [env.table.current]) :
    env.table.Extends env'.table where
  symbols := hgrows.symbols
  lookup name record hlookup := by
    rw [SymbolTable.lookup_eq_ok_iff] at hlookup ⊢
    obtain ⟨hbinding, hget⟩ := hlookup
    refine ⟨?_, hgrows.getElem? hget⟩
    have hframes' : env'.table.frames = [env.table.current.bindAll (bound declared)] := by
      rw [h.frames, houtermost, List.tail_cons]
    rw [SymbolTable.binding?_of_frames hformed houtermost] at hbinding
    rw [SymbolTable.binding?_of_frames hformed' hframes', Scope.find?_bindAll]
    cases hfind : env.table.current.find? name with
    | none =>
      rw [hfind] at hbinding
      cases hbinding
    | some id =>
      rw [hfind] at hbinding
      exact hbinding

/-! ## Statements one after the other -/

namespace Tree.Stmt

theorem analyzeAll_append (env : Env) (ss more : List Stmt) :
    let first := analyzeAll ss env
    let rest := analyzeAll more first.value.2
    (analyzeAll (ss ++ more) env).value = (first.value.1 ++ rest.value.1, rest.value.2)
      ∧ (analyzeAll (ss ++ more) env).log = first.log ++ rest.log := by
  intro first rest
  induction ss generalizing env with
  | nil => exact ⟨rfl, rfl⟩
  | cons s ss ih =>
    obtain ⟨hvalue, hlog⟩ := ih (s.analyze env).value.2
    rw [List.cons_append, (analyzeAll_cons env s (ss ++ more)).1,
      (analyzeAll_cons env s (ss ++ more)).2, hvalue, hlog, ← List.append_assoc]
    simp [first, rest, (analyzeAll_cons env s ss).1, (analyzeAll_cons env s ss).2]

/-- Between two statements outside of all blocks, the global scope alone is open. -/
theorem frames_analyzeAll_new (dialect : Dialect) (ss : List Stmt) :
    let behind := (analyzeAll ss (Env.new dialect)).value.2
    behind.table.frames = [behind.table.current] := by
  intro behind
  have hnew : (Env.new dialect).table.Formed := SymbolTable.formed_new dialect
  have hframes := (gains_analyzeAll hnew ss).frames
  rw [SymbolTable.frames_eq]
  exact congrArg _ (congrArg List.tail hframes)

theorem extends_analyzeAll (dialect : Dialect) (ss more : List Stmt) :
    let behind := (analyzeAll ss (Env.new dialect)).value.2
    behind.table.Extends (analyzeAll more behind).value.2.table := by
  intro behind
  have hnew : (Env.new dialect).table.Formed := SymbolTable.formed_new dialect
  have hformed : behind.table.Formed := stable_formed.analyzeAll ss _ hnew
  exact (gains_analyzeAll hformed more).extends hformed (stable_formed.analyzeAll more _ hformed)
    (stable_grows.analyzeAll more _) (frames_analyzeAll_new dialect ss)

end Tree.Stmt

/-! ## Programs -/

/-- Nothing of the first result is taken back in the second one: both are about the same version, and
statements, diagnostics and symbols only come behind those of the first. -/
structure AnalysisResult.Extends (result result' : AnalysisResult) : Prop where
  version : result'.program.version = result.program.version
  dialect : result'.program.dialect = result.program.dialect
  stmts : result.program.stmts <+: result'.program.stmts
  diagnostics : result.diagnostics <+: result'.diagnostics
  table : ∃ table table', result.table = some table ∧ result'.table = some table'
    ∧ table.Extends table'

namespace Tree.Program

/-- The program with more statements at its end. -/
def followedBy (more : List Stmt) (program : Program) : Program :=
  { program with stmts := program.stmts ++ more }

variable {program : Program} {dialect : Dialect}

/-- More statements at the end of a program leave everything as it is that has been found out without
them. -/
theorem extends_analyze (h : program.dialect? = some dialect) (more : List Stmt) :
    program.analyze.Extends (program.followedBy more).analyze := by
  have hmore : (program.followedBy more).dialect? = some dialect := h
  obtain ⟨hvalue, hlog⟩ := Stmt.analyzeAll_append (Env.new dialect) program.stmts more
  rw [analyze_eq h, analyze_eq hmore]
  refine ⟨rfl, rfl, ?_, ?_, _, _, rfl, rfl, ?_⟩
  · exact ⟨_, congrArg Prod.fst hvalue.symm⟩
  · exact ⟨_, hlog.symm⟩
  · rw [show (program.followedBy more).stmts = program.stmts ++ more from rfl, hvalue]
    exact Stmt.extends_analyzeAll dialect program.stmts more

/-- `version 3; int x; y = 1`, where `y` is not declared. -/
def unfinished : Program :=
  let loc : Location := ⟨1, 1⟩
  { version := some ⟨[3], loc⟩
    stmts :=
      [.declare ⟨"x", loc⟩ (.scalar .int) none loc, .assign (.name ⟨"y", loc⟩) (.int loc 1) loc] }

/-- Declaring `y` afterwards, and `x` once more, takes nothing back: `x` is what it was and `y` was
missing. -/
theorem extends_analyze_unfinished :
    let loc : Location := ⟨1, 1⟩
    let more : List Stmt :=
      [.declare ⟨"y", loc⟩ (.scalar .int) none loc, .declare ⟨"x", loc⟩ (.scalar .float) none loc]
    unfinished.dialect? = some .v3
      ∧ unfinished.analyze.Extends (unfinished.followedBy more).analyze
      ∧ (unfinished.followedBy more).analyze.diagnostics.map (·.cause)
        = [.undeclaredIdentifier "y", .duplicateDeclaration "x"] := by
  intro loc more
  have hdialect : unfinished.dialect? = some .v3 := rfl
  exact ⟨hdialect, extends_analyze hdialect more, by decide +kernel⟩

end Tree.Program

end Cqasm
