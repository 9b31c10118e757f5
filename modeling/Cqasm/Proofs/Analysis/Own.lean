import Cqasm.Proofs.Analysis.Validity
import Mathlib.Data.List.Perm.Basic

/-!
# What a statement finds out itself

What is recorded in a statement is recorded in the statement itself or in one nested in it, so the
diagnostics of a program are those of its sites in another order (`perm_diagnostics`). What a
statement finds out itself comes from the expressions and instructions that it holds, each of them
analysed in some environment on the way.

* `Site.ownLog` : what is recorded in the statement but in none of the statements nested in it;
* `Query` : an expression with the table it is analysed with;
* `Site.queries`, `Site.counts` : the expressions of the statement itself, those that are left in the
  typed statement and those that are not;
* `Tree.Stmt.ownInstructions` : the instructions of the statement itself.
-/

namespace Cqasm

open Analysis

/-! ## Diagnostics -/

namespace Tree.Stmt

/-- What the conditions of the branches of a conditional record, without the blocks. -/
def conditionsLog (env : Env) : List (Expr × List Stmt) → Diagnostics
  | [] => []
  | (cond, body) :: branches =>
    (condition cond env).log ++ conditionsLog (inBlock .branch (analyzeAll body) env).value.2 branches

end Tree.Stmt

namespace Site

open Tree.Stmt

/-- What is recorded in the statement but in none of the statements nested in it. -/
def ownLog (site : Site) : Diagnostics :=
  match site.stmt with
  | .subcircuit name iterations _ _ =>
    (nameSubcircuit name site.env).log ++ (analyzeIterations iterations site.env).log
  | .ifElse branches _ _ => conditionsLog site.env branches
  | .whileLoop cond _ _ => (condition cond site.env).log
  | .repeatUntil body cond _ =>
    (condition cond (inBlock .loop (analyzeAll body) site.env).value.2).log
  | .foreach name first last _ _ =>
    (analyzeBound first site.env).log ++ (analyzeBound last site.env).log
      ++ (declareSymbol ⟨name.name, .var, .int, name.loc⟩ (site.env.enter .loop)).log
  | _ => site.log

end Site

namespace Tree.Stmt

theorem perm_analyzeBranches (inLoop : Bool) (env : Env) (branches : List (Expr × List Stmt)) :
    (analyzeBranches branches env).log.Perm
      (conditionsLog env branches ++ ((branchSites inLoop env branches).map Site.log).flatten) := by
  induction branches generalizing env with
  | nil => exact .nil
  | cons branch branches ih =>
    obtain ⟨cond, body⟩ := branch
    rw [(analyzeBranches_cons env cond body branches).2, conditionsLog, branchSites, List.map_append,
      List.flatten_append, ← log_analyzeAll, List.append_assoc, List.append_assoc]
    refine List.Perm.append_left _ ?_
    -- the block comes before the conditions of the branches behind it
    exact ((ih _).append_left _).trans (List.perm_append_comm_assoc _ _ _)

theorem log_analyzeOtherwise (inLoop : Bool) (env : Env) (otherwise : Option (List Stmt)) :
    (analyzeOtherwise otherwise env).log
      = ((otherwiseSites inLoop env otherwise).map Site.log).flatten := by
  cases otherwise with
  | none => rfl
  | some body => rw [(analyzeOtherwise_some env body).2, otherwiseSites, ← log_analyzeAll]

/-- The count of a subcircuit is analysed as if the subcircuit had not been named. -/
theorem analyzeIterations_named (name : Ident) (iterations : Option Expr) (env : Env) :
    (analyzeIterations iterations (nameSubcircuit name env).value.2).log
      = (analyzeIterations iterations env).log := by
  cases iterations with
  | none => rfl
  | some e =>
    rw [(analyzeIterations_some _ e).2, (analyzeIterations_some env e).2, table_nameSubcircuit]

end Tree.Stmt

namespace Site

open Tree.Stmt

theorem perm_log (site : Site) :
    site.log.Perm (site.ownLog ++ (site.nested.map log).flatten) := by
  obtain ⟨s, env, inLoop⟩ := site
  unfold nested ownLog
  cases s with
  | subcircuit name iterations body loc =>
    dsimp only
    rw [log, (analyze_subcircuit env name iterations body loc).2, analyzeIterations_named,
      ← log_analyzeAll]
  | ifElse branches otherwise loc =>
    dsimp only
    rw [log, (analyze_ifElse env branches otherwise loc).2, List.map_append, List.flatten_append,
      ← List.append_assoc, ← log_analyzeOtherwise]
    exact (perm_analyzeBranches inLoop env branches).append_right _
  | whileLoop cond body loc =>
    dsimp only
    rw [log, (analyze_whileLoop env cond body loc).2, ← log_analyzeAll]
  | repeatUntil body cond loc =>
    dsimp only
    rw [log, (analyze_repeatUntil env body cond loc).2, ← log_analyzeAll]
    exact List.perm_append_comm
  | foreach name first last body loc =>
    dsimp only
    rw [log, (analyze_foreach env name first last body loc).2, ← log_analyzeAll]
  | _ =>
    dsimp only
    rw [List.map_nil, List.flatten_nil, List.append_nil]

/-- What is recorded in a statement is what is recorded in it and in the statements inside of it
themselves. -/
theorem perm_inside (site : Site) : site.log.Perm (site.inside.flatMap ownLog) := by
  induction site using induct with
  | h site ih =>
    rw [inside_eq, List.flatMap_cons, List.flatMap_assoc]
    refine site.perm_log.trans (List.Perm.append_left _ ?_)
    rw [← List.flatMap_def]
    exact List.Perm.flatMap_left _ ih

end Site

theorem Tree.Program.perm_diagnostics {program : Program} {dialect : Dialect}
    (h : program.dialect? = some dialect) :
    program.analyze.diagnostics.Perm ((program.sites dialect).flatMap Site.ownLog) := by
  rw [diagnostics_analyze h, sites_eq_flatMap, List.flatMap_assoc, ← List.flatMap_def]
  exact List.Perm.flatMap_left _ fun site _ => site.perm_inside

/-! ## Expressions -/

/-- A written expression and the table that it is analysed with. -/
structure Query where
  expr : Tree.Expr
  table : SymbolTable

namespace Query

/-- The typed expression. -/
def typed (query : Query) : Typed.Expr := (query.expr.analyze query.table).value

/-- What is recorded about the expression. -/
def log (query : Query) : Diagnostics := (query.expr.analyze query.table).log

end Query

namespace Tree

/-- The expressions of an instruction. -/
def Instruction.exprs (i : Instruction) : List Expr := i.operands ++ i.condition.toList

namespace Stmt

/-- The conditions of the branches of a conditional. -/
def conditions (env : Env) : List (Expr × List Stmt) → List Query
  | [] => []
  | (cond, body) :: branches =>
    ⟨cond, env.table⟩ :: conditions (inBlock .branch (analyzeAll body) env).value.2 branches

/-- The instructions of the statement itself. -/
def ownInstructions : Stmt → List Instruction
  | instruction i => [i]
  | bundle is _ => is
  | _ => []

/-- The overload that is found for an instruction. -/
def choice (env : Env) (i : Instruction) : Logged (Option Overload) :=
  env.table.resolveInstruction i.name.name
    ((Expr.analyzeAll env.table i.operands).value.map (·.ty)) i.loc

end Stmt

end Tree

namespace Site

open Tree.Stmt

/-- The expressions of the statement itself, in the order in which they stand in the typed one. The
conditions of branches, and that of a repeat loop, stand behind blocks. -/
def queries (site : Site) : List Query :=
  match site.stmt with
  | .ifElse branches _ _ => conditions site.env branches
  | .repeatUntil body cond _ => [⟨cond, (inBlock .loop (analyzeAll body) site.env).value.2.table⟩]
  | s => s.ownExprs.map (⟨·, site.env.table⟩)

/-- The expression that is written as the number of iterations of a subcircuit. -/
def counts (site : Site) : List Query :=
  match site.stmt with
  | .subcircuit _ iterations _ _ => iterations.toList.map (⟨·, site.env.table⟩)
  | _ => []

end Site

namespace Tree.Stmt

theorem exprs_analyzeInstruction (env : Env) (i : Instruction) :
    (analyzeInstruction i env).value.1.operands ++ (analyzeInstruction i env).value.1.condition.toList
      = i.exprs.map fun e => (e.analyze env.table).value := by
  rw [(analyzeInstruction_eq env i).1, Instruction.exprs, List.map_append,
    ← Expr.analyzeAll_eq_map]
  cases i.condition with
  | none => rfl
  | some e => rw [(analyzeCondition_some env e).1]; rfl

theorem value_analyzeInstructions (env : Env) (is : List Instruction) :
    (analyzeInstructions is env).value.1 = is.map fun i => (analyzeInstruction i env).value.1 := by
  induction is with
  | nil => rfl
  | cons i is ih => rw [(analyzeInstructions_cons env i is).1, List.map_cons, ih]

theorem exprs_analyzeInstructions (env : Env) (is : List Instruction) :
    ((analyzeInstructions is env).value.1.flatMap fun call =>
        call.operands ++ call.condition.toList)
      = (is.flatMap Instruction.exprs).map fun e => (e.analyze env.table).value := by
  rw [value_analyzeInstructions, List.flatMap_map, List.map_flatMap]
  exact List.flatMap_congr fun i _ => exprs_analyzeInstruction env i

theorem conditions_analyzeBranches (env : Env) (branches : List (Expr × List Stmt)) :
    (analyzeBranches branches env).value.1.map (·.1) = (conditions env branches).map Query.typed := by
  induction branches generalizing env with
  | nil => rfl
  | cons branch branches ih =>
    obtain ⟨cond, body⟩ := branch
    rw [(analyzeBranches_cons env cond body branches).1, List.map_cons, ih, conditions,
      List.map_cons]
    rfl

theorem exprs_analyzeDeclare (env : Env) (type : TypeSpec) (init : Option Expr) (ty : Ty)
    (name : Ident) (loc : Location) :
    (analyzeType type env).value.1.1.toList ++ (analyzeInit ty init env).value.1.toList
      = (declare name type init loc).ownExprs.map fun e => (e.analyze env.table).value := by
  cases type with
  | scalar kind => cases init <;> rfl
  | register kind size => cases size <;> cases init <;> rfl

end Tree.Stmt

namespace Site

open Tree.Stmt

/-- The expressions of a typed statement itself are those of the statement. -/
theorem ownExprs_node (site : Site) : site.node.ownExprs = site.queries.map Query.typed := by
  obtain ⟨s, env, inLoop⟩ := site
  unfold node queries
  cases s with
  | qubits size loc =>
    rw [(analyze_qubits env size loc).1]
    rfl
  | declare name type init loc =>
    rw [(analyze_declare env name type init loc).1]
    dsimp only
    rw [List.map_map]
    exact exprs_analyzeDeclare env type init _ name loc
  | map target name loc =>
    rw [(analyze_map env target name loc).1]
    rfl
  | instruction i =>
    rw [(analyze_instruction env i).1]
    dsimp only
    rw [List.map_map]
    exact exprs_analyzeInstruction env i
  | bundle is loc =>
    rw [(analyze_bundle env is loc).1]
    dsimp only
    rw [List.map_map]
    exact exprs_analyzeInstructions env is
  | subcircuit name iterations body loc =>
    rw [(analyze_subcircuit env name iterations body loc).1]
    rfl
  | assign lhs rhs loc =>
    rw [(analyze_assign env lhs rhs loc).1]
    rfl
  | ifElse branches otherwise loc =>
    rw [(analyze_ifElse env branches otherwise loc).1]
    exact conditions_analyzeBranches env branches
  | whileLoop cond body loc =>
    rw [(analyze_whileLoop env cond body loc).1]
    rfl
  | repeatUntil body cond loc =>
    rw [(analyze_repeatUntil env body cond loc).1]
    rfl
  | foreach name first last body loc =>
    rw [(analyze_foreach env name first last body loc).1]
    rfl
  | loopControl control loc =>
    rw [(analyze_loopControl env control loc).1]
    rfl

/-- The instructions of a typed statement itself are those of the statement. -/
theorem ownCalls_node (site : Site) :
    site.node.ownCalls
      = site.stmt.ownInstructions.map fun i => (analyzeInstruction i site.env).value.1 := by
  obtain ⟨s, env, inLoop⟩ := site
  unfold node
  cases s with
  | instruction i =>
    rw [(analyze_instruction env i).1]
    rfl
  | bundle is loc =>
    rw [(analyze_bundle env is loc).1]
    exact value_analyzeInstructions env is
  | _ =>
    rw [analyze]
    rfl

end Site

end Cqasm
