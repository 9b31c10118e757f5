import Cqasm.Proofs.Analysis.Selection

/-!
# Diagnostics about execution

Most of what is recorded is about expressions, their types and declared names. A sort of diagnostics
that leaves these out is only about what is executed: about the overload that is chosen for an
instruction and about the place of a loop control. Diagnostics of such a sort come in the order of
the statements they are about (`select_analyze`). Those of all sorts together do not: what a condition
records may come behind the blocks of its statement.

* `Cause.Executed` : a sort that is only about what is executed;
* `Site.choices`, `Site.control` : what is recorded about the overloads of the instructions of a
  statement, and about its place if it is a loop control.
-/

namespace Cqasm

open Analysis
open Diagnostics (select select_append select_of_causes select_flatMap)

/-- Nothing of the sort is recorded in expressions, by checks, or where a name is declared. -/
structure Cause.Executed (p : Cause → Bool) : Prop extends Unchecked p where
  inExpr : ∀ {dialect : Dialect} {cause : Cause}, cause.InExpr dialect → p cause = false
  duplicateDeclaration : ∀ name, p (.duplicateDeclaration name) = false

namespace Site

open Tree.Stmt

/-- What is recorded about the overloads of the instructions of the statement itself. -/
def choices (site : Site) : Diagnostics :=
  site.stmt.ownInstructions.flatMap fun i => (choice site.env i).log

/-- What is recorded about the place of the statement, which matters for a loop control. -/
def control (site : Site) : Diagnostics :=
  match site.stmt with
  | .loopControl control loc => (checkLoopControl control loc site.env).log
  | _ => []

end Site

variable {p : Cause → Bool}

/-! ## Parts of statements -/

namespace Cause.Executed

open Cqasm.Tree Tree.Stmt

variable (hp : Executed p) (env : Env)

include hp

theorem selectAll_eq_nil (table : SymbolTable) (es : List Expr) :
    Expr.selectAll p table es = [] := Expr.selectAll_eq_nil table (fun _ => hp.inExpr) es

theorem select_expr (table : SymbolTable) (e : Expr) : select p (e.analyze table).log = [] := by
  rw [← Expr.selectAll_singleton, hp.selectAll_eq_nil]

theorem select_condition (e : Expr) : select p (condition e env).log = [] := by
  rw [Tree.Stmt.select_condition hp.toUnchecked, hp.selectAll_eq_nil]

theorem select_analyzeBound (e : Expr) : select p (analyzeBound e env).log = [] := by
  rw [Tree.Stmt.select_analyzeBound hp.toUnchecked, hp.selectAll_eq_nil]

theorem select_analyzeIterations (count : Option Expr) :
    select p (analyzeIterations count env).log = [] := by
  rw [Tree.Stmt.select_analyzeIterations hp.toUnchecked, hp.selectAll_eq_nil]

theorem select_declareSymbol (symbol : Symbol) : select p (declareSymbol symbol env).log = [] :=
  select_of_causes (causes_declareSymbol (hp.duplicateDeclaration symbol.name))

theorem select_nameSubcircuit (ident : Ident) : select p (nameSubcircuit ident env).log = [] :=
  select_of_causes (causes_nameSubcircuit (hp.duplicateDeclaration ident.name))

theorem select_analyzeInstruction (i : Instruction) :
    select p (analyzeInstruction i env).log = select p (choice env i).log := by
  rw [Tree.Stmt.select_analyzeInstruction hp.toUnchecked, hp.selectAll_eq_nil, List.nil_append]

theorem select_analyzeInstructions (is : List Instruction) :
    select p (analyzeInstructions is env).log
      = is.flatMap fun i => select p (choice env i).log := by
  induction is with
  | nil => rfl
  | cons i is ih =>
    rw [(analyzeInstructions_cons env i is).2, select_append, hp.select_analyzeInstruction, ih,
      List.flatMap_cons]

/-! ## Blocks -/

omit hp in
theorem select_analyzeAll (inLoop : Bool) (ss : List Stmt) :
    select p (analyzeAll ss env).log
      = (blockSites inLoop env ss).flatMap fun inner => select p inner.log := by
  rw [log_analyzeAll inLoop, ← List.flatMap_def, select_flatMap]

theorem select_analyzeBranches (inLoop : Bool) (branches : List (Expr × List Stmt)) :
    select p (analyzeBranches branches env).log
      = (branchSites inLoop env branches).flatMap fun inner => select p inner.log := by
  induction branches generalizing env with
  | nil => rfl
  | cons branch branches ih =>
    obtain ⟨cond, body⟩ := branch
    rw [(analyzeBranches_cons env cond body branches).2, select_append, select_append,
      hp.select_condition, List.nil_append, select_analyzeAll _ inLoop, ih, branchSites,
      List.flatMap_append]
    rfl

omit hp in
theorem select_analyzeOtherwise (inLoop : Bool) (otherwise : Option (List Stmt)) :
    select p (analyzeOtherwise otherwise env).log
      = (otherwiseSites inLoop env otherwise).flatMap fun inner => select p inner.log := by
  rw [log_analyzeOtherwise inLoop, ← List.flatMap_def, select_flatMap]

end Cause.Executed

open Cause.Executed (select_analyzeAll select_analyzeOtherwise)

/-! ## Sites -/

namespace Site

open Tree.Stmt

/-- What a statement records of the sort about itself. -/
def executed (p : Cause → Bool) (site : Site) : Diagnostics :=
  select p site.choices ++ select p site.control

/-- A statement with blocks executes nothing itself, and what it records of the sort is what the
statements in its blocks record. -/
theorem select_log (hp : Cause.Executed p) (site : Site) :
    select p site.log
      = site.executed p ++ site.nested.flatMap fun inner => select p inner.log := by
  obtain ⟨s, env, inLoop⟩ := site
  unfold executed nested choices control log
  cases s with
  | qubits size loc =>
    show select p ((qubits size loc).analyze env).log = []
    rw [(analyze_qubits env size loc).2, select_append, select_append, select_append,
      hp.select_expr, SymbolTable.select_registerSize hp.toUnchecked, hp.select_declareSymbol,
      hp.select_declareSymbol]
    rfl
  | declare name type init loc =>
    show select p ((declare name type init loc).analyze env).log = []
    rw [(analyze_declare env name type init loc).2, select_append, select_append,
      select_analyzeType hp.toUnchecked, select_analyzeInit hp.toUnchecked, hp.selectAll_eq_nil,
      hp.selectAll_eq_nil, hp.select_declareSymbol]
    rfl
  | map target name loc =>
    show select p ((map target name loc).analyze env).log = []
    rw [(analyze_map env target name loc).2, select_append, hp.select_expr, hp.select_declareSymbol]
    rfl
  | instruction i =>
    show select p ((instruction i).analyze env).log
      = select p ([i].flatMap fun i => (choice env i).log) ++ [] ++ []
    rw [(analyze_instruction env i).2, hp.select_analyzeInstruction, List.flatMap_singleton,
      List.append_nil, List.append_nil]
  | bundle is loc =>
    show select p ((bundle is loc).analyze env).log
      = select p (is.flatMap fun i => (choice env i).log) ++ [] ++ []
    rw [(analyze_bundle env is loc).2, hp.select_analyzeInstructions, select_flatMap,
      List.append_nil, List.append_nil]
  | subcircuit name iterations body loc =>
    dsimp only
    rw [(analyze_subcircuit env name iterations body loc).2, select_append, select_append,
      hp.select_nameSubcircuit, hp.select_analyzeIterations, select_analyzeAll _ inLoop]
    rfl
  | assign lhs rhs loc =>
    show select p ((assign lhs rhs loc).analyze env).log = []
    rw [(analyze_assign env lhs rhs loc).2, select_append, select_append, hp.select_expr,
      hp.select_expr, select_checkAssign hp.toUnchecked]
    rfl
  | ifElse branches otherwise loc =>
    dsimp only
    rw [(analyze_ifElse env branches otherwise loc).2, select_append,
      hp.select_analyzeBranches _ inLoop, select_analyzeOtherwise _ inLoop, List.flatMap_append]
    rfl
  | whileLoop cond body loc =>
    dsimp only
    rw [(analyze_whileLoop env cond body loc).2, select_append, hp.select_condition,
      select_analyzeAll _ true]
    rfl
  | repeatUntil body cond loc =>
    dsimp only
    rw [(analyze_repeatUntil env body cond loc).2, select_append, hp.select_condition,
      select_analyzeAll _ true, List.append_nil]
    rfl
  | foreach name first last body loc =>
    dsimp only
    rw [(analyze_foreach env name first last body loc).2, select_append, select_append,
      select_append, hp.select_analyzeBound, hp.select_analyzeBound, hp.select_declareSymbol,
      select_analyzeAll _ true]
    rfl
  | loopControl control loc =>
    show select p ((loopControl control loc).analyze env).log
      = [] ++ select p (checkLoopControl control loc env).log ++ []
    rw [(analyze_loopControl env control loc).2, List.nil_append, List.append_nil]

theorem select_inside (hp : Cause.Executed p) (site : Site) :
    select p site.log = site.inside.flatMap (executed p) := by
  induction site using induct with
  | h site ih =>
    rw [select_log hp, inside_eq, List.flatMap_cons, List.flatMap_assoc, List.flatMap_congr ih]

end Site

/-! ## Programs -/

/-- The diagnostics of a sort that is only about what is executed come in the order of the
statements. -/
theorem Tree.Program.select_analyze (hp : Cause.Executed p) {program : Program} {dialect : Dialect}
    (h : program.dialect? = some dialect) :
    program.analyze.diagnostics.select p = (program.sites dialect).flatMap (Site.executed p) := by
  rw [diagnostics_analyze h, ← List.flatMap_def, select_flatMap, sites_eq_flatMap,
    List.flatMap_assoc]
  exact List.flatMap_congr fun site _ => site.select_inside hp

end Cqasm
