import Cqasm.Analysis.Env

/-!
# The analysis of statements

Every statement becomes a typed one, whether or not it is in error. An expression is resolved before
the name that the same statement declares is bound. The blocks of subcircuits, conditionals and
loops have scopes of their own; their conditions, bounds and counts stand outside of them.
-/

namespace Cqasm.Tree

/-- The type of a register of the given size, undefined if the size is in error. -/
def RegisterKind.ty : RegisterKind → Option Nat → Ty
  | _, none => .undefined
  | qubit, some size => .qubit size
  | bit, some size => .bit size

/-- The kind of symbol that a register is. -/
def RegisterKind.symbolKind : RegisterKind → SymbolKind
  | qubit => .qubitRegister
  | bit => .bitRegister

/-- The type of a variable. -/
def ScalarKind.ty : ScalarKind → Ty
  | bool => .bool
  | int => .int
  | float => .float
  | complex => .complex
  | axis => .axis

namespace Stmt

open Analysis
open Typed (Mark GateCall)

/-- The declaration of the registers `q` and `b`. -/
def analyzeQubits (size : Expr) (loc : Location) : Analysis (Mark → Typed.Stmt) := do
  let size ← expr size
  let n ← reading fun table => table.registerSize size
  let q ← declareSymbol ⟨"q", .qubitRegister, RegisterKind.qubit.ty n, loc⟩
  let b ← declareSymbol ⟨"b", .bitRegister, RegisterKind.bit.ty n, loc⟩
  pure fun mark => .qubits mark q b size

/-- The size, the type and the kind of symbol that a declaration gives. A register without a written
size has one element. -/
def analyzeType : TypeSpec → Analysis (Option Typed.Expr × Ty × SymbolKind)
  | .register kind none => pure (none, kind.ty (some 1), kind.symbolKind)
  | .register kind (some size) => do
    let size ← expr size
    let n ← reading fun table => table.registerSize size
    pure (some size, kind.ty n, kind.symbolKind)
  | .scalar kind => pure (none, kind.ty, .var)

/-- The initial value of a variable of type `ty`. -/
def analyzeInit (ty : Ty) : Option Expr → Analysis (Option Typed.Expr)
  | none => pure none
  | some e => do
    let e ← expr e
    checkConversion e ty
    pure (some e)

/-- The declaration of a variable or register. -/
def analyzeDeclare (name : Ident) (type : TypeSpec) (init : Option Expr) :
    Analysis (Mark → Typed.Stmt) := do
  let (size, ty, kind) ← analyzeType type
  let init ← analyzeInit ty init
  let symbol ← declareSymbol ⟨name.name, kind, ty, name.loc⟩
  pure fun mark => .declare mark symbol size init

/-- The declaration of another name for the target. -/
def analyzeMap (target : Expr) (name : Ident) : Analysis (Mark → Typed.Stmt) := do
  let target ← expr target
  let symbol ← declareSymbol ⟨name.name, .mapping, target.ty, name.loc⟩
  pure fun mark => .map mark symbol target

/-- The condition of an instruction, if it has one. -/
def analyzeCondition : Option Expr → Analysis (Option Typed.Expr)
  | none => pure none
  | some e => some <$> condition e

/-- The overload, the condition and the operands of an instruction. -/
def analyzeInstruction (i : Instruction) : Analysis GateCall := do
  let operands ← reading fun table => Expr.analyzeAll table i.operands
  let cond ← analyzeCondition i.condition
  let overload ← reading fun table =>
    table.resolveInstruction i.name.name (operands.map (·.ty)) i.loc
  pure { name := i.name.name, overload, condition := cond, operands }

/-- The instructions of a bundle. -/
def analyzeInstructions : List Instruction → Analysis (List GateCall)
  | [] => pure []
  | i :: is => do
    let call ← analyzeInstruction i
    let calls ← analyzeInstructions is
    pure (call :: calls)

/-- The number of iterations of a subcircuit, one if none is written. -/
def analyzeIterations : Option Expr → Analysis (Option Nat)
  | none => pure (some 1)
  | some e => do
    let e ← expr e
    reading fun table => table.iterationCount e

/-- Checks that the left side of an assignment is a variable and that the type of the right side
converts to its type. -/
def checkAssign (lhs rhs : Typed.Expr) : Analysis Unit :=
  match lhs with
  | .name note (.ok id) => fun env =>
    match env.table.symbols[id]? with
    | none => pure ((), env)
    | some symbol =>
      match symbol.kind with
      | .var => checkConversion rhs note.ty env
      | .mapping => report (.notAssignable ("mapping " ++ Cause.quote symbol.name)) note.loc env
      | _ => report (.notAssignable ("register " ++ Cause.quote symbol.name)) note.loc env
  | .name _ (.error _) => pure ()
  | lhs => report (.notAssignable "an expression") lhs.loc

/-- The two sides of an assignment. -/
def analyzeAssign (lhs rhs : Expr) : Analysis (Mark → Typed.Stmt) := do
  let lhs ← expr lhs
  let rhs ← expr rhs
  checkAssign lhs rhs
  pure fun mark => .assign mark lhs rhs

/-- A bound of a loop over integers. -/
def analyzeBound (e : Expr) : Analysis Typed.Expr := do
  let e ← expr e
  checkConversion e .int
  pure e

/-- Checks that a statement which leaves a loop stands in one. -/
def checkLoopControl (control : LoopControl) (loc : Location) : Analysis Unit := fun env =>
  if env.table.inLoop then
    pure ((), env)
  else
    report (.loopControlOutsideLoop control.keyword) loc env

mutual

/-- The typed statement of a statement. -/
def analyze : Stmt → Analysis Typed.Stmt
  | qubits size loc => marked loc (analyzeQubits size loc)
  | declare name type init loc => marked loc (analyzeDeclare name type init)
  | map target name loc => marked loc (analyzeMap target name)
  | instruction i => marked i.loc do
    let call ← analyzeInstruction i
    pure fun mark => .instruction mark call
  | bundle is loc => marked loc do
    let calls ← analyzeInstructions is
    pure fun mark => .bundle mark calls
  | subcircuit name iterations body loc => marked loc do
    nameSubcircuit name
    let iterations ← analyzeIterations iterations
    let body ← inBlock .subcircuit (analyzeAll body)
    pure fun mark => .subcircuit mark name.name iterations body
  | assign lhs rhs loc => marked loc (analyzeAssign lhs rhs)
  | ifElse branches otherwise loc => marked loc do
    let branches ← analyzeBranches branches
    let otherwise ← analyzeOtherwise otherwise
    pure fun mark => .ifElse mark branches otherwise
  | whileLoop cond body loc => marked loc do
    let cond ← condition cond
    let body ← inBlock .loop (analyzeAll body)
    pure fun mark => .whileLoop mark cond body
  | repeatUntil body cond loc => marked loc do
    let body ← inBlock .loop (analyzeAll body)
    let cond ← condition cond
    pure fun mark => .repeatUntil mark body cond
  | foreach name first last body loc => marked loc do
    let first ← analyzeBound first
    let last ← analyzeBound last
    let (symbol, body) ← inBlock .loop do
      let symbol ← declareSymbol ⟨name.name, .var, .int, name.loc⟩
      let body ← analyzeAll body
      pure (symbol, body)
    pure fun mark => .foreach mark symbol first last body
  | loopControl control loc => marked loc do
    checkLoopControl control loc
    pure fun mark => .loopControl mark control

/-- The typed statements of a block in order. -/
def analyzeAll : List Stmt → Analysis (List Typed.Stmt)
  | [] => pure []
  | s :: ss => do
    let s ← analyze s
    let ss ← analyzeAll ss
    pure (s :: ss)

/-- The branches of a conditional in order. -/
def analyzeBranches : List (Expr × List Stmt) → Analysis (List (Typed.Expr × List Typed.Stmt))
  | [] => pure []
  | (cond, body) :: branches => do
    let cond ← condition cond
    let body ← inBlock .branch (analyzeAll body)
    let branches ← analyzeBranches branches
    pure ((cond, body) :: branches)

/-- The block of a conditional that is executed if no condition holds. -/
def analyzeOtherwise : Option (List Stmt) → Analysis (Option (List Typed.Stmt))
  | none => pure none
  | some body => some <$> inBlock .branch (analyzeAll body)

end

end Stmt

end Cqasm.Tree
