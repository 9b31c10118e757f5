import Cqasm.Proofs.Analysis.Environment

/-!
# The analysis of each kind of statement

For each kind of statement, what its analysis gives: the typed statement, the environment behind it
and the diagnostics, in terms of the analysis of its parts. Later proofs rewrite with these and do
not open the analysis itself.
-/

namespace Cqasm

namespace Analysis

/-! ## Steps that only read -/

@[simp] theorem value_expr (e : Tree.Expr) (env : Env) :
    (expr e env).value = ((e.analyze env.table).value, env) := rfl

@[simp] theorem log_expr (e : Tree.Expr) (env : Env) :
    (expr e env).log = (e.analyze env.table).log := log_reading _ _

@[simp] theorem value_checkConversion (e : Typed.Expr) (ty : Ty) (env : Env) :
    (checkConversion e ty env).value = ((), env) := rfl

@[simp] theorem log_checkConversion (e : Typed.Expr) (ty : Ty) (env : Env) :
    (checkConversion e ty env).log = (env.table.checkConversion e ty).log := by
  rw [checkConversion, log_reading, Logged.log_bind, Logged.log_pure, List.append_nil]

@[simp] theorem value_condition (e : Tree.Expr) (env : Env) :
    (condition e env).value = ((e.analyze env.table).value, env) := rfl

@[simp] theorem log_condition (e : Tree.Expr) (env : Env) :
    (condition e env).log = (e.analyze env.table).log
      ++ (env.table.checkConversion (e.analyze env.table).value .bool).log := by
  simp [condition]

end Analysis

namespace Tree.Stmt

open Analysis

variable (env : Env)

@[simp] theorem value_analyzeBound (e : Expr) :
    (analyzeBound e env).value = ((e.analyze env.table).value, env) := rfl

@[simp] theorem log_analyzeBound (e : Expr) :
    (analyzeBound e env).log = (e.analyze env.table).log
      ++ (env.table.checkConversion (e.analyze env.table).value .int).log := by
  simp [analyzeBound]

@[simp] theorem env_analyzeType (type : TypeSpec) : (analyzeType type env).value.2 = env :=
  reads_analyzeType type env

@[simp] theorem env_analyzeInit (ty : Ty) (init : Option Expr) :
    (analyzeInit ty init env).value.2 = env := reads_analyzeInit ty init env

@[simp] theorem env_analyzeCondition (cond : Option Expr) :
    (analyzeCondition cond env).value.2 = env := reads_analyzeCondition cond env

@[simp] theorem env_analyzeInstruction (i : Instruction) :
    (analyzeInstruction i env).value.2 = env := reads_analyzeInstruction i env

@[simp] theorem env_analyzeInstructions (is : List Instruction) :
    (analyzeInstructions is env).value.2 = env := reads_analyzeInstructions is env

@[simp] theorem env_analyzeIterations (count : Option Expr) :
    (analyzeIterations count env).value.2 = env := reads_analyzeIterations count env

@[simp] theorem env_checkAssign (lhs rhs : Typed.Expr) : (checkAssign lhs rhs env).value.2 = env :=
  reads_checkAssign lhs rhs env

@[simp] theorem env_checkLoopControl (control : LoopControl) (loc : Location) :
    (checkLoopControl control loc env).value.2 = env := reads_checkLoopControl control loc env

/-! ## Parts of statements -/

theorem analyzeInstruction_eq (i : Instruction) :
    let operands := Expr.analyzeAll env.table i.operands
    let cond := analyzeCondition i.condition env
    let overload :=
      env.table.resolveInstruction i.name.name (operands.value.map (·.ty)) i.loc
    (analyzeInstruction i env).value.1
        = ⟨i.name.name, overload.value, cond.value.1, operands.value⟩
      ∧ (analyzeInstruction i env).log = operands.log ++ cond.log ++ overload.log := by
  intro operands cond overload
  simp [analyzeInstruction, operands, cond, overload, List.append_assoc]

theorem analyzeInstructions_cons (i : Instruction) (is : List Instruction) :
    (analyzeInstructions (i :: is) env).value.1
        = (analyzeInstruction i env).value.1 :: (analyzeInstructions is env).value.1
      ∧ (analyzeInstructions (i :: is) env).log
        = (analyzeInstruction i env).log ++ (analyzeInstructions is env).log := by
  simp [analyzeInstructions]

theorem analyzeCondition_some (e : Expr) :
    (analyzeCondition (some e) env).value.1 = some (e.analyze env.table).value
      ∧ (analyzeCondition (some e) env).log = (condition e env).log := by
  simp [analyzeCondition]

theorem analyzeInit_some (ty : Ty) (e : Expr) :
    (analyzeInit ty (some e) env).value.1 = some (e.analyze env.table).value
      ∧ (analyzeInit ty (some e) env).log = (e.analyze env.table).log
        ++ (env.table.checkConversion (e.analyze env.table).value ty).log := by
  simp [analyzeInit]

theorem analyzeType_some (kind : RegisterKind) (size : Expr) :
    let n := env.table.registerSize (size.analyze env.table).value
    (analyzeType (.register kind (some size)) env).value.1
        = (some (size.analyze env.table).value, kind.ty n.value, kind.symbolKind)
      ∧ (analyzeType (.register kind (some size)) env).log
        = (size.analyze env.table).log ++ n.log := by
  simp [analyzeType]

theorem analyzeIterations_some (e : Expr) :
    let count := env.table.iterationCount (e.analyze env.table).value
    (analyzeIterations (some e) env).value.1 = count.value
      ∧ (analyzeIterations (some e) env).log = (e.analyze env.table).log ++ count.log := by
  simp [analyzeIterations]

/-! ## Statements -/

/-- The mark of the typed statement. -/
def markAt (s : Stmt) : Typed.Mark := ⟨s.loc, !(s.analyze env).log.anyErrors⟩

theorem mark_analyze (s : Stmt) : (s.analyze env).value.1.mark = s.markAt env := by
  cases s <;> rw [markAt, analyze] <;> rfl

theorem valid_analyze (s : Stmt) :
    (s.analyze env).value.1.valid = !(s.analyze env).log.anyErrors := by
  rw [Typed.Stmt.valid, mark_analyze, markAt]

theorem analyze_qubits (size : Expr) (loc : Location) :
    let n := (env.table.registerSize (size.analyze env.table).value).value
    let q := declareSymbol ⟨"q", .qubitRegister, RegisterKind.qubit.ty n, loc⟩ env
    let b := declareSymbol ⟨"b", .bitRegister, RegisterKind.bit.ty n, loc⟩ q.value.2
    ((qubits size loc).analyze env).value = (.qubits (markAt env (qubits size loc)) q.value.1
        b.value.1 (size.analyze env.table).value, b.value.2)
      ∧ ((qubits size loc).analyze env).log = (size.analyze env.table).log
        ++ (env.table.registerSize (size.analyze env.table).value).log ++ q.log ++ b.log := by
  intro n q b
  unfold markAt
  rw [analyze]
  refine ⟨rfl, ?_⟩
  simp [analyzeQubits, n, q, b, List.append_assoc]

theorem analyze_declare (name : Ident) (type : TypeSpec) (init : Option Expr) (loc : Location) :
    let type' := analyzeType type env
    let init' := analyzeInit type'.value.1.2.1 init env
    let symbol := declareSymbol ⟨name.name, type'.value.1.2.2, type'.value.1.2.1, name.loc⟩ env
    ((declare name type init loc).analyze env).value
        = (.declare (markAt env (declare name type init loc)) symbol.value.1 type'.value.1.1
          init'.value.1, symbol.value.2)
      ∧ ((declare name type init loc).analyze env).log = type'.log ++ init'.log ++ symbol.log := by
  intro type' init' symbol
  unfold markAt
  rw [analyze]
  simp [marked, analyzeDeclare, type', init', symbol, Stmt.loc, List.append_assoc]

theorem analyze_map (target : Expr) (name : Ident) (loc : Location) :
    let symbol :=
      declareSymbol ⟨name.name, .mapping, (target.analyze env.table).value.ty, name.loc⟩ env
    ((map target name loc).analyze env).value = (.map (markAt env (map target name loc))
        symbol.value.1 (target.analyze env.table).value, symbol.value.2)
      ∧ ((map target name loc).analyze env).log = (target.analyze env.table).log ++ symbol.log := by
  intro symbol
  unfold markAt
  rw [analyze]
  simp [marked, analyzeMap, symbol, Stmt.loc]

theorem analyze_instruction (i : Instruction) :
    ((instruction i).analyze env).value = (.instruction (markAt env (instruction i))
        (analyzeInstruction i env).value.1, env)
      ∧ ((instruction i).analyze env).log = (analyzeInstruction i env).log := by
  unfold markAt
  rw [analyze]
  simp [marked, Stmt.loc]

theorem analyze_bundle (is : List Instruction) (loc : Location) :
    ((bundle is loc).analyze env).value = (.bundle (markAt env (bundle is loc))
        (analyzeInstructions is env).value.1, env)
      ∧ ((bundle is loc).analyze env).log = (analyzeInstructions is env).log := by
  unfold markAt
  rw [analyze]
  simp [marked, Stmt.loc]

theorem analyze_subcircuit (name : Ident) (iterations : Option Expr) (body : List Stmt)
    (loc : Location) :
    let named := (nameSubcircuit name env).value.2
    let body' := analyzeAll body (named.enter .subcircuit)
    ((subcircuit name iterations body loc).analyze env).value
        = (.subcircuit (markAt env (subcircuit name iterations body loc)) name.name
          (analyzeIterations iterations named).value.1 body'.value.1, named.leave body'.value.2)
      ∧ ((subcircuit name iterations body loc).analyze env).log = (nameSubcircuit name env).log
        ++ (analyzeIterations iterations named).log ++ body'.log := by
  intro named body'
  unfold markAt
  rw [analyze]
  simp [marked, Stmt.loc, named, body', Env.enter, List.append_assoc]

theorem analyze_assign (lhs rhs : Expr) (loc : Location) :
    ((assign lhs rhs loc).analyze env).value = (.assign (markAt env (assign lhs rhs loc))
        (lhs.analyze env.table).value (rhs.analyze env.table).value, env)
      ∧ ((assign lhs rhs loc).analyze env).log = (lhs.analyze env.table).log
        ++ (rhs.analyze env.table).log
        ++ (checkAssign (lhs.analyze env.table).value (rhs.analyze env.table).value env).log := by
  unfold markAt
  rw [analyze]
  simp [marked, analyzeAssign, Stmt.loc, List.append_assoc]

theorem analyze_ifElse (branches : List (Expr × List Stmt)) (otherwise : Option (List Stmt))
    (loc : Location) :
    let branches' := analyzeBranches branches env
    let otherwise' := analyzeOtherwise otherwise branches'.value.2
    ((ifElse branches otherwise loc).analyze env).value
        = (.ifElse (markAt env (ifElse branches otherwise loc)) branches'.value.1
          otherwise'.value.1, otherwise'.value.2)
      ∧ ((ifElse branches otherwise loc).analyze env).log = branches'.log ++ otherwise'.log := by
  intro branches' otherwise'
  unfold markAt
  rw [analyze]
  simp [marked, Stmt.loc, branches', otherwise']

theorem analyze_whileLoop (cond : Expr) (body : List Stmt) (loc : Location) :
    let body' := analyzeAll body (env.enter .loop)
    ((whileLoop cond body loc).analyze env).value
        = (.whileLoop (markAt env (whileLoop cond body loc)) (cond.analyze env.table).value
          body'.value.1, env.leave body'.value.2)
      ∧ ((whileLoop cond body loc).analyze env).log = (condition cond env).log ++ body'.log := by
  intro body'
  unfold markAt
  rw [analyze]
  simp [marked, Stmt.loc, body', Env.enter]

theorem analyze_repeatUntil (body : List Stmt) (cond : Expr) (loc : Location) :
    let body' := analyzeAll body (env.enter .loop)
    let behind := env.leave body'.value.2
    ((repeatUntil body cond loc).analyze env).value
        = (.repeatUntil (markAt env (repeatUntil body cond loc)) body'.value.1
          (cond.analyze behind.table).value, behind)
      ∧ ((repeatUntil body cond loc).analyze env).log = body'.log ++ (condition cond behind).log := by
  intro body' behind
  unfold markAt
  rw [analyze]
  simp [marked, Stmt.loc, body', behind, Env.enter]

theorem analyze_foreach (name : Ident) (first last : Expr) (body : List Stmt) (loc : Location) :
    let symbol := declareSymbol ⟨name.name, .var, .int, name.loc⟩ (env.enter .loop)
    let body' := analyzeAll body symbol.value.2
    ((foreach name first last body loc).analyze env).value
        = (.foreach (markAt env (foreach name first last body loc)) symbol.value.1
          (first.analyze env.table).value (last.analyze env.table).value body'.value.1,
          env.leave body'.value.2)
      ∧ ((foreach name first last body loc).analyze env).log = (analyzeBound first env).log
        ++ (analyzeBound last env).log ++ symbol.log ++ body'.log := by
  intro symbol body'
  unfold markAt
  rw [analyze]
  simp [marked, Stmt.loc, symbol, body', Env.enter, List.append_assoc]

theorem analyze_loopControl (control : LoopControl) (loc : Location) :
    ((loopControl control loc).analyze env).value
        = (.loopControl (markAt env (loopControl control loc)) control, env)
      ∧ ((loopControl control loc).analyze env).log = (checkLoopControl control loc env).log := by
  unfold markAt
  rw [analyze]
  simp [marked, Stmt.loc]

/-! ## Blocks -/

theorem analyzeAll_cons (s : Stmt) (ss : List Stmt) :
    let rest := analyzeAll ss (s.analyze env).value.2
    (analyzeAll (s :: ss) env).value = ((s.analyze env).value.1 :: rest.value.1, rest.value.2)
      ∧ (analyzeAll (s :: ss) env).log = (s.analyze env).log ++ rest.log := by
  intro rest
  rw [analyzeAll]
  simp [rest]

theorem analyzeBranches_cons (cond : Expr) (body : List Stmt) (branches : List (Expr × List Stmt)) :
    let body' := analyzeAll body (env.enter .branch)
    let rest := analyzeBranches branches (env.leave body'.value.2)
    (analyzeBranches ((cond, body) :: branches) env).value
        = (((cond.analyze env.table).value, body'.value.1) :: rest.value.1, rest.value.2)
      ∧ (analyzeBranches ((cond, body) :: branches) env).log
        = (condition cond env).log ++ body'.log ++ rest.log := by
  intro body' rest
  rw [analyzeBranches]
  simp [body', rest, Env.enter, List.append_assoc]

theorem analyzeOtherwise_some (body : List Stmt) :
    let body' := analyzeAll body (env.enter .branch)
    (analyzeOtherwise (some body) env).value = (some body'.value.1, env.leave body'.value.2)
      ∧ (analyzeOtherwise (some body) env).log = body'.log := by
  intro body'
  rw [analyzeOtherwise]
  simp [body', Env.enter]

end Tree.Stmt

end Cqasm
