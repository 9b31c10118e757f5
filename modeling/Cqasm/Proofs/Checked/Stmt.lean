import Cqasm.Proofs.Checked.Expr

/-!
# Statements do not fault

Statements are run in the environments that the analysis reaches. There every table is sound, and so
no expression faults, no declaration, no assignment to a symbol and no end of a block
(`gives_analyzeStmt`). The walk follows the analysis of statements step by step.
-/

namespace Cqasm

namespace CheckedAnalysis

variable {α β : Type} {env : Env}

/-- After a step that only reads, the next one runs in the same environment. -/
theorem gives_bind_reads {step : CheckedAnalysis α} {next : α → CheckedAnalysis β}
    {step' : Analysis α} {next' : α → Analysis β} (hreads : Analysis.Reads step')
    (h : (step env).Gives (step' env))
    (hnext : (next (step' env).value.1 env).Gives (next' (step' env).value.1 env)) :
    ((step >>= next) env).Gives ((step' >>= next') env) := by
  refine gives_bind h ?_
  rw [hreads env]
  exact hnext

end CheckedAnalysis

namespace Checked

open CheckedAnalysis (reading gives_reading gives_pure gives_lift gives_bind gives_bind_reads
  gives_map)
open Analysis (Reads)
open Cqasm.Tree (Ident Instruction LoopControl TypeSpec)
open Typed (Mark GateCall)

/-! ## Parts of statements -/

/-- The typed expression of an expression. -/
def expr (e : Tree.Expr) : CheckedAnalysis Typed.Expr := reading fun table => analyzeExpr table e

/-- The typed expression of a condition, which has to convert to a Boolean. -/
def condition (e : Tree.Expr) : CheckedAnalysis Typed.Expr := do
  let e ← expr e
  Analysis.checkConversion e .bool
  pure e

/-- A bound of a loop over integers. -/
def analyzeBound (e : Tree.Expr) : CheckedAnalysis Typed.Expr := do
  let e ← expr e
  Analysis.checkConversion e .int
  pure e

/-- The declaration of the registers `q` and `b`. -/
def analyzeQubits (size : Tree.Expr) (loc : Location) : CheckedAnalysis (Mark → Typed.Stmt) := do
  let size ← expr size
  let n ← reading fun table => registerSize table size
  let q ← declareSymbol ⟨"q", .qubitRegister, Tree.RegisterKind.qubit.ty n, loc⟩
  let b ← declareSymbol ⟨"b", .bitRegister, Tree.RegisterKind.bit.ty n, loc⟩
  pure fun mark => .qubits mark q b size

/-- The size, the type and the kind of symbol that a declaration gives. -/
def analyzeType : TypeSpec → CheckedAnalysis (Option Typed.Expr × Ty × SymbolKind)
  | .register kind none => pure (none, kind.ty (some 1), kind.symbolKind)
  | .register kind (some size) => do
    let size ← expr size
    let n ← reading fun table => registerSize table size
    pure (some size, kind.ty n, kind.symbolKind)
  | .scalar kind => pure (none, kind.ty, .var)

/-- The initial value of a variable of type `ty`. -/
def analyzeInit (ty : Ty) : Option Tree.Expr → CheckedAnalysis (Option Typed.Expr)
  | none => pure none
  | some e => do
    let e ← expr e
    Analysis.checkConversion e ty
    pure (some e)

/-- The declaration of a variable or register. -/
def analyzeDeclare (name : Ident) (type : TypeSpec) (init : Option Tree.Expr) :
    CheckedAnalysis (Mark → Typed.Stmt) := do
  let (size, ty, kind) ← analyzeType type
  let init ← analyzeInit ty init
  let symbol ← declareSymbol ⟨name.name, kind, ty, name.loc⟩
  pure fun mark => .declare mark symbol size init

/-- The declaration of another name for the target. -/
def analyzeMap (target : Tree.Expr) (name : Ident) : CheckedAnalysis (Mark → Typed.Stmt) := do
  let target ← expr target
  let symbol ← declareSymbol ⟨name.name, .mapping, target.ty, name.loc⟩
  pure fun mark => .map mark symbol target

/-- The condition of an instruction, if it has one. -/
def analyzeCondition : Option Tree.Expr → CheckedAnalysis (Option Typed.Expr)
  | none => pure none
  | some e => some <$> condition e

/-- The overload, the condition and the operands of an instruction. -/
def analyzeInstruction (i : Instruction) : CheckedAnalysis GateCall := do
  let operands ← reading fun table => analyzeExprs table i.operands
  let cond ← analyzeCondition i.condition
  let overload ← Analysis.reading fun table =>
    table.resolveInstruction i.name.name (operands.map (·.ty)) i.loc
  pure { name := i.name.name, overload, condition := cond, operands }

/-- The instructions of a bundle. -/
def analyzeInstructions : List Instruction → CheckedAnalysis (List GateCall)
  | [] => pure []
  | i :: is => do
    let call ← analyzeInstruction i
    let calls ← analyzeInstructions is
    pure (call :: calls)

/-- The number of iterations of a subcircuit, one if none is written. -/
def analyzeIterations : Option Tree.Expr → CheckedAnalysis (Option Nat)
  | none => pure (some 1)
  | some e => do
    let e ← expr e
    reading fun table => iterationCount table e

/-- Checks that the left side of an assignment is a variable, which is asked for by its number, and
that the type of the right side converts to its type. -/
def checkAssign (lhs rhs : Typed.Expr) : CheckedAnalysis Unit :=
  match lhs with
  | .name note (.ok id) => fun env => do
    let symbol ← getSymbol env.table id
    match symbol.kind with
    | .var => Analysis.checkConversion rhs note.ty env
    | .mapping =>
      Analysis.report (.notAssignable ("mapping " ++ Cause.quote symbol.name)) note.loc env
    | _ => Analysis.report (.notAssignable ("register " ++ Cause.quote symbol.name)) note.loc env
  | .name _ (.error _) => pure ()
  | lhs => Analysis.report (.notAssignable "an expression") lhs.loc

/-- The two sides of an assignment. -/
def analyzeAssign (lhs rhs : Tree.Expr) : CheckedAnalysis (Mark → Typed.Stmt) := do
  let lhs ← expr lhs
  let rhs ← expr rhs
  checkAssign lhs rhs
  pure fun mark => .assign mark lhs rhs

/-- Checks that a statement which leaves a loop stands in one. -/
def checkLoopControl (control : LoopControl) (loc : Location) : CheckedAnalysis Unit :=
  fun env => do
    if ← inLoop env.table then
      pure ((), env)
    else
      Analysis.report (.loopControlOutsideLoop control.keyword) loc env

/-! ## Statements -/

mutual

/-- The typed statement of a statement. -/
def analyzeStmt : Tree.Stmt → CheckedAnalysis Typed.Stmt
  | .qubits size loc => marked loc (analyzeQubits size loc)
  | .declare name type init loc => marked loc (analyzeDeclare name type init)
  | .map target name loc => marked loc (analyzeMap target name)
  | .instruction i => marked i.loc do
    let call ← analyzeInstruction i
    pure fun mark => .instruction mark call
  | .bundle is loc => marked loc do
    let calls ← analyzeInstructions is
    pure fun mark => .bundle mark calls
  | .subcircuit name iterations body loc => marked loc do
    Analysis.nameSubcircuit name
    let iterations ← analyzeIterations iterations
    let body ← inBlock .subcircuit (analyzeStmts body)
    pure fun mark => .subcircuit mark name.name iterations body
  | .assign lhs rhs loc => marked loc (analyzeAssign lhs rhs)
  | .ifElse branches otherwise loc => marked loc do
    let branches ← analyzeBranches branches
    let otherwise ← analyzeOtherwise otherwise
    pure fun mark => .ifElse mark branches otherwise
  | .whileLoop cond body loc => marked loc do
    let cond ← condition cond
    let body ← inBlock .loop (analyzeStmts body)
    pure fun mark => .whileLoop mark cond body
  | .repeatUntil body cond loc => marked loc do
    let body ← inBlock .loop (analyzeStmts body)
    let cond ← condition cond
    pure fun mark => .repeatUntil mark body cond
  | .foreach name first last body loc => marked loc do
    let first ← analyzeBound first
    let last ← analyzeBound last
    let (symbol, body) ← inBlock .loop do
      let symbol ← declareSymbol ⟨name.name, .var, .int, name.loc⟩
      let body ← analyzeStmts body
      pure (symbol, body)
    pure fun mark => .foreach mark symbol first last body
  | .loopControl control loc => marked loc do
    checkLoopControl control loc
    pure fun mark => .loopControl mark control

/-- The typed statements of a block in order. -/
def analyzeStmts : List Tree.Stmt → CheckedAnalysis (List Typed.Stmt)
  | [] => pure []
  | s :: ss => do
    let s ← analyzeStmt s
    let ss ← analyzeStmts ss
    pure (s :: ss)

/-- The branches of a conditional in order. -/
def analyzeBranches : List (Tree.Expr × List Tree.Stmt) →
    CheckedAnalysis (List (Typed.Expr × List Typed.Stmt))
  | [] => pure []
  | (cond, body) :: branches => do
    let cond ← condition cond
    let body ← inBlock .branch (analyzeStmts body)
    let branches ← analyzeBranches branches
    pure ((cond, body) :: branches)

/-- The block of a conditional that is executed if no condition holds. -/
def analyzeOtherwise : Option (List Tree.Stmt) → CheckedAnalysis (Option (List Typed.Stmt))
  | none => pure none
  | some body => some <$> inBlock .branch (analyzeStmts body)

end

/-! ## No part of a statement faults -/

section Parts

variable {env : Env}

theorem gives_expr (h : Sound env.table) (e : Tree.Expr) :
    (expr e env).Gives (Analysis.expr e env) := gives_reading (gives_analyzeExpr h e)

theorem gives_condition (h : Sound env.table) (e : Tree.Expr) :
    (condition e env).Gives (Analysis.condition e env) := by
  refine gives_bind_reads (.reading _) (gives_expr h e) ?_
  exact gives_bind (gives_lift _) (gives_pure _)

theorem reads_analyzeBound (e : Tree.Expr) : Reads (Tree.Stmt.analyzeBound e) :=
  .bind (.reading _) fun _ => .bind (.reading _) fun _ => .pure _

theorem gives_analyzeBound (h : Sound env.table) (e : Tree.Expr) :
    (analyzeBound e env).Gives (Tree.Stmt.analyzeBound e env) := by
  refine gives_bind_reads (.reading _) (gives_expr h e) ?_
  exact gives_bind (gives_lift _) (gives_pure _)

theorem gives_analyzeType (h : Sound env.table) (type : TypeSpec) :
    (analyzeType type env).Gives (Tree.Stmt.analyzeType type env) := by
  cases type with
  | scalar kind => exact gives_pure _
  | register kind size =>
    cases size with
    | none => exact gives_pure _
    | some size =>
      refine gives_bind_reads (.reading _) (gives_expr h size) ?_
      exact gives_bind_reads (.reading _) (gives_reading (gives_registerSize _ _)) (gives_pure _)

theorem gives_analyzeInit (h : Sound env.table) (ty : Ty) (init : Option Tree.Expr) :
    (analyzeInit ty init env).Gives (Tree.Stmt.analyzeInit ty init env) := by
  cases init with
  | none => exact gives_pure _
  | some e =>
    refine gives_bind_reads (.reading _) (gives_expr h e) ?_
    exact gives_bind (gives_lift _) (gives_pure _)

theorem gives_analyzeCondition (h : Sound env.table) (cond : Option Tree.Expr) :
    (analyzeCondition cond env).Gives (Tree.Stmt.analyzeCondition cond env) := by
  cases cond with
  | none => exact gives_pure _
  | some e => exact gives_map some (gives_condition h e)

theorem gives_analyzeInstruction (h : Sound env.table) (i : Instruction) :
    (analyzeInstruction i env).Gives (Tree.Stmt.analyzeInstruction i env) := by
  refine gives_bind_reads (.reading _) (gives_reading (gives_analyzeExprs h i.operands)) ?_
  refine gives_bind_reads (Tree.Stmt.reads_analyzeCondition _)
    (gives_analyzeCondition h i.condition) ?_
  exact gives_bind (gives_lift _) (gives_pure _)

theorem gives_analyzeInstructions (h : Sound env.table) (is : List Instruction) :
    (analyzeInstructions is env).Gives (Tree.Stmt.analyzeInstructions is env) := by
  induction is with
  | nil => exact gives_pure _
  | cons i is ih =>
    refine gives_bind_reads (Tree.Stmt.reads_analyzeInstruction i)
      (gives_analyzeInstruction h i) ?_
    exact gives_bind_reads (Tree.Stmt.reads_analyzeInstructions is) ih (gives_pure _)

theorem gives_analyzeIterations (h : Sound env.table) (iterations : Option Tree.Expr) :
    (analyzeIterations iterations env).Gives (Tree.Stmt.analyzeIterations iterations env) := by
  cases iterations with
  | none => exact gives_pure _
  | some e =>
    refine gives_bind_reads (.reading _) (gives_expr h e) ?_
    exact gives_reading (gives_iterationCount _ _)

/-- A name on the left side of an assignment refers to a symbol of the table. -/
theorem gives_checkAssign {lhs : Typed.Expr} (h : lhs.Consistent env.table) (rhs : Typed.Expr) :
    (checkAssign lhs rhs env).Gives (Tree.Stmt.checkAssign lhs rhs env) := by
  cases lhs with
  | name note symbol =>
    cases symbol with
    | error error => exact gives_pure ()
    | ok id =>
      obtain ⟨found, hget, -⟩ := h
      refine .bind_lift (Fault.element_eq hget) ?_
      rw [Tree.Stmt.checkAssign]
      simp only [hget]
      cases found.kind <;> exact .lift _
  | literal | index | call | axis => exact gives_lift _

theorem gives_analyzeAssign (h : Sound env.table) (lhs rhs : Tree.Expr) :
    (analyzeAssign lhs rhs env).Gives (Tree.Stmt.analyzeAssign lhs rhs env) := by
  refine gives_bind_reads (.reading _) (gives_expr h lhs) ?_
  refine gives_bind_reads (.reading _) (gives_expr h rhs) ?_
  have hlhs : (lhs.analyze env.table).value.Consistent env.table :=
    Tree.Expr.consistent_expr env.table lhs _ (Typed.Expr.mem_subexprs _)
  exact gives_bind_reads (Tree.Stmt.reads_checkAssign _ _) (gives_checkAssign hlhs _)
    (gives_pure _)

theorem gives_checkLoopControl (h : Sound env.table) (control : LoopControl) (loc : Location) :
    (checkLoopControl control loc env).Gives (Tree.Stmt.checkLoopControl control loc env) := by
  refine .bind_lift (inLoop_eq h.formed) ?_
  rw [Tree.Stmt.checkLoopControl]
  cases env.table.inLoop with
  | true => exact .pure _
  | false => exact .lift _

theorem gives_analyzeQubits (h : Sound env.table) (size : Tree.Expr) (loc : Location) :
    (analyzeQubits size loc env).Gives (Tree.Stmt.analyzeQubits size loc env) := by
  refine gives_bind_reads (.reading _) (gives_expr h size) ?_
  refine gives_bind_reads (.reading _) (gives_reading (gives_registerSize _ _)) ?_
  have hsize (n : Nat)
      (hn : (env.table.registerSize (size.analyze env.table).value).value = some n) :
      IsRegisterSize n := Tree.Stmt.isRegisterSize_registerSize hn
  have hfits := Tree.Stmt.fits_register .qubit hsize "q" loc
  have hformed := stable_formed.declareSymbol hfits env h.formed
  refine gives_bind (gives_declareSymbol h.formed _) ?_
  exact gives_bind (gives_declareSymbol hformed _) (gives_pure _)

theorem gives_analyzeDeclare (h : Sound env.table) (name : Ident) (type : TypeSpec)
    (init : Option Tree.Expr) :
    (analyzeDeclare name type init env).Gives (Tree.Stmt.analyzeDeclare name type init env) := by
  refine gives_bind_reads (Tree.Stmt.reads_analyzeType type) (gives_analyzeType h type) ?_
  refine gives_bind_reads (Tree.Stmt.reads_analyzeInit _ init) (gives_analyzeInit h _ init) ?_
  exact gives_bind (gives_declareSymbol h.formed _) (gives_pure _)

theorem gives_analyzeMap (h : Sound env.table) (target : Tree.Expr) (name : Ident) :
    (analyzeMap target name env).Gives (Tree.Stmt.analyzeMap target name env) := by
  refine gives_bind_reads (.reading _) (gives_expr h target) ?_
  exact gives_bind (gives_declareSymbol h.formed _) (gives_pure _)

end Parts

/-! ## No statement faults -/

section Statements

open Env (Reached)

variable {dialect : Dialect} {env : Env}

mutual

/-- In an environment that the analysis reaches no statement faults. -/
theorem gives_analyzeStmt {env : Env} (h : Reached dialect env) : (s : Tree.Stmt) →
    (analyzeStmt s env).Gives (s.analyze env)
  | .qubits size loc => by
    rw [analyzeStmt, Tree.Stmt.analyze]
    exact gives_marked (gives_analyzeQubits (sound_of_reached h) size loc)
  | .declare name type init loc => by
    rw [analyzeStmt, Tree.Stmt.analyze]
    exact gives_marked (gives_analyzeDeclare (sound_of_reached h) name type init)
  | .map target name loc => by
    rw [analyzeStmt, Tree.Stmt.analyze]
    exact gives_marked (gives_analyzeMap (sound_of_reached h) target name)
  | .instruction i => by
    rw [analyzeStmt, Tree.Stmt.analyze]
    refine gives_marked (gives_bind ?_ (gives_pure _))
    exact gives_analyzeInstruction (sound_of_reached h) i
  | .bundle is loc => by
    rw [analyzeStmt, Tree.Stmt.analyze]
    refine gives_marked (gives_bind ?_ (gives_pure _))
    exact gives_analyzeInstructions (sound_of_reached h) is
  | .subcircuit name iterations body loc => by
    have hname := h.name name
    have hbody := Tree.Stmt.reached_analyzeAll (hname.enter .subcircuit) body
    rw [analyzeStmt, Tree.Stmt.analyze]
    refine gives_marked (gives_bind (gives_lift _) ?_)
    refine gives_bind_reads (Tree.Stmt.reads_analyzeIterations iterations)
      (gives_analyzeIterations (sound_of_reached hname) iterations) ?_
    refine gives_bind (gives_inBlock ?_ hbody.formed) (gives_pure _)
    exact gives_analyzeStmts (hname.enter .subcircuit) body
  | .assign lhs rhs loc => by
    rw [analyzeStmt, Tree.Stmt.analyze]
    exact gives_marked (gives_analyzeAssign (sound_of_reached h) lhs rhs)
  | .ifElse branches otherwise loc => by
    rw [analyzeStmt, Tree.Stmt.analyze]
    refine gives_marked (gives_bind (gives_analyzeBranches h branches) ?_)
    refine gives_bind ?_ (gives_pure _)
    exact gives_analyzeOtherwise (Tree.Stmt.reached_analyzeBranches h branches) otherwise
  | .whileLoop cond body loc => by
    have hbody := Tree.Stmt.reached_analyzeAll (h.enter .loop) body
    rw [analyzeStmt, Tree.Stmt.analyze]
    refine gives_marked (gives_bind_reads (.condition cond) ?_ ?_)
    · exact gives_condition (sound_of_reached h) cond
    · refine gives_bind (gives_inBlock ?_ hbody.formed) (gives_pure _)
      exact gives_analyzeStmts (h.enter .loop) body
  | .repeatUntil body cond loc => by
    have hbody := Tree.Stmt.reached_analyzeAll (h.enter .loop) body
    have hafter := h.leave_analyzeAll rfl hbody
    rw [analyzeStmt, Tree.Stmt.analyze]
    refine gives_marked (gives_bind (gives_inBlock ?_ hbody.formed) ?_)
    · exact gives_analyzeStmts (h.enter .loop) body
    · exact gives_bind (gives_condition (sound_of_reached hafter) cond) (gives_pure _)
  | .foreach name first last body loc => by
    have hname := (Tree.Stmt.reached_loopVariable h name).1
    have hbody := Tree.Stmt.reached_analyzeAll hname body
    rw [analyzeStmt, Tree.Stmt.analyze]
    refine gives_marked (gives_bind_reads (reads_analyzeBound first)
      (gives_analyzeBound (sound_of_reached h) first) ?_)
    refine gives_bind_reads (reads_analyzeBound last)
      (gives_analyzeBound (sound_of_reached h) last) ?_
    refine gives_bind (gives_inBlock ?_ hbody.formed) (gives_pure _)
    refine gives_bind (gives_declareSymbol (h.enter .loop).formed _) ?_
    exact gives_bind (gives_analyzeStmts hname body) (gives_pure _)
  | .loopControl control loc => by
    rw [analyzeStmt, Tree.Stmt.analyze]
    refine gives_marked (gives_bind ?_ (gives_pure _))
    exact gives_checkLoopControl (sound_of_reached h) control loc

theorem gives_analyzeStmts {env : Env} (h : Reached dialect env) : (ss : List Tree.Stmt) →
    (analyzeStmts ss env).Gives (Tree.Stmt.analyzeAll ss env)
  | [] => by
    rw [analyzeStmts, Tree.Stmt.analyzeAll]
    exact gives_pure _
  | s :: ss => by
    rw [analyzeStmts, Tree.Stmt.analyzeAll]
    refine gives_bind (gives_analyzeStmt h s) ?_
    exact gives_bind (gives_analyzeStmts (Tree.Stmt.reached_analyze h s) ss) (gives_pure _)

theorem gives_analyzeBranches {env : Env} (h : Reached dialect env) :
    (branches : List (Tree.Expr × List Tree.Stmt)) →
    (analyzeBranches branches env).Gives (Tree.Stmt.analyzeBranches branches env)
  | [] => by
    rw [analyzeBranches, Tree.Stmt.analyzeBranches]
    exact gives_pure _
  | (cond, body) :: branches => by
    have hbody := Tree.Stmt.reached_analyzeAll (h.enter .branch) body
    have hafter := h.leave_analyzeAll rfl hbody
    rw [analyzeBranches, Tree.Stmt.analyzeBranches]
    refine gives_bind_reads (.condition cond) (gives_condition (sound_of_reached h) cond) ?_
    refine gives_bind (gives_inBlock ?_ hbody.formed) ?_
    · exact gives_analyzeStmts (h.enter .branch) body
    · exact gives_bind (gives_analyzeBranches hafter branches) (gives_pure _)

theorem gives_analyzeOtherwise {env : Env} (h : Reached dialect env) :
    (otherwise : Option (List Tree.Stmt)) →
    (analyzeOtherwise otherwise env).Gives (Tree.Stmt.analyzeOtherwise otherwise env)
  | none => by
    rw [analyzeOtherwise, Tree.Stmt.analyzeOtherwise]
    exact gives_pure _
  | some body => by
    have hbody := Tree.Stmt.reached_analyzeAll (h.enter .branch) body
    rw [analyzeOtherwise, Tree.Stmt.analyzeOtherwise]
    exact gives_map some (gives_inBlock (gives_analyzeStmts (h.enter .branch) body) hbody.formed)

end

end Statements

end Checked

end Cqasm
