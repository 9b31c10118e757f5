import Cqasm.Proofs.Analysis.Site
import Cqasm.Proofs.Typed.Resolved

/-!
# Typed programs mirror their trees

The analysis drops nothing and moves nothing. What is left of a typed program without its notes,
symbols, overloads and marks is the outline of the tree it comes from, whatever is in error
(`outline_analyze`). Two parts of a tree have no typed expressions: of an index the constant bounds
are left, and of the count of a subcircuit the number of iterations. An operator is left as the name
of its function, from which it can be told together with the number of operands.

* `Outline.Expr`, `Outline.Instruction`, `Outline.Stmt`, `Outline` : outlines;
* `Typed.Expr.outline`, `Typed.Stmt.outline` : a typed program without what the analysis found out;
* `Tree.Expr.outline`, `Tree.Stmt.outline` : a tree without names of symbols and types.
-/

namespace Cqasm

/-! ## Outlines -/

namespace Outline

/-- The outline of an expression. -/
inductive Expr where
  | literal (value : Literal) (loc : Location)
  | name (loc : Location)
  /-- An index, its target and those of its entries that are not constant left out. -/
  | index (ranges : List Typed.IndexRange) (loc : Location)
  /-- The call of a function or operator. -/
  | call (function : String) (args : List Expr) (loc : Location)
  | array (elements : List Expr) (loc : Location)
deriving Repr, Inhabited

/-- The outline of an instruction. -/
structure Instruction where
  name : String
  condition : Option Expr
  operands : List Expr
deriving Repr, Inhabited

/-- The outline of a statement. -/
inductive Stmt where
  | qubits (size : Expr) (loc : Location)
  | declare (size init : Option Expr) (loc : Location)
  | map (target : Expr) (loc : Location)
  | instruction (instruction : Instruction) (loc : Location)
  | bundle (instructions : List Instruction) (loc : Location)
  | subcircuit (name : String) (iterations : Option Nat) (body : List Stmt) (loc : Location)
  | assign (lhs rhs : Expr) (loc : Location)
  | ifElse (branches : List (Expr × List Stmt)) (otherwise : Option (List Stmt)) (loc : Location)
  | whileLoop (condition : Expr) (body : List Stmt) (loc : Location)
  | repeatUntil (body : List Stmt) (condition : Expr) (loc : Location)
  | foreach (first last : Expr) (body : List Stmt) (loc : Location)
  | loopControl (control : Tree.LoopControl) (loc : Location)
deriving Repr, Inhabited

end Outline

/-- The outline of a program. -/
structure Outline where
  version : Option (List Int)
  stmts : List Outline.Stmt
deriving Repr, Inhabited

/-! ## Of typed programs -/

namespace Typed

namespace Expr

mutual

/-- The expression without its notes, symbols and overloads. -/
def outline : Expr → Outline.Expr
  | literal note value => .literal value note.loc
  | name note _ => .name note.loc
  | index note _ ranges => .index ranges note.loc
  | call note function _ args => .call function (outlineAll args) note.loc
  | axis note elements => .array (outlineAll elements) note.loc

/-- The outlines of several expressions in order. -/
def outlineAll : List Expr → List Outline.Expr
  | [] => []
  | e :: es => outline e :: outlineAll es

end

end Expr

/-- The instruction without its overload. -/
def GateCall.outline (call : GateCall) : Outline.Instruction where
  name := call.name
  condition := call.condition.map Expr.outline
  operands := Expr.outlineAll call.operands

namespace Stmt

mutual

/-- The statement without its marks, symbols and overloads. -/
def outline : Stmt → Outline.Stmt
  | qubits mark _ _ size => .qubits size.outline mark.loc
  | declare mark _ size init => .declare (size.map Expr.outline) (init.map Expr.outline) mark.loc
  | map mark _ target => .map target.outline mark.loc
  | instruction mark call => .instruction call.outline mark.loc
  | bundle mark calls => .bundle (calls.map GateCall.outline) mark.loc
  | subcircuit mark name iterations body =>
    .subcircuit name iterations (outlineAll body) mark.loc
  | assign mark lhs rhs => .assign lhs.outline rhs.outline mark.loc
  | ifElse mark branches otherwise =>
    .ifElse (outlineBranches branches) (outlineOtherwise otherwise) mark.loc
  | whileLoop mark condition body => .whileLoop condition.outline (outlineAll body) mark.loc
  | repeatUntil mark body condition => .repeatUntil (outlineAll body) condition.outline mark.loc
  | foreach mark _ first last body =>
    .foreach first.outline last.outline (outlineAll body) mark.loc
  | loopControl mark control => .loopControl control mark.loc

/-- The outlines of the statements of a block in order. -/
def outlineAll : List Stmt → List Outline.Stmt
  | [] => []
  | s :: ss => outline s :: outlineAll ss

/-- The outlines of the branches of a conditional in order. -/
def outlineBranches : List (Expr × List Stmt) → List (Outline.Expr × List Outline.Stmt)
  | [] => []
  | (condition, body) :: branches =>
    (condition.outline, outlineAll body) :: outlineBranches branches

/-- The outline of a block that may be missing. -/
def outlineOtherwise : Option (List Stmt) → Option (List Outline.Stmt)
  | none => none
  | some body => some (outlineAll body)

end

end Stmt

/-- The program without what the analysis has found out about it. -/
def Program.outline (program : Program) : Outline where
  version := program.version
  stmts := Stmt.outlineAll program.stmts

end Typed

/-! ## Of trees -/

namespace Tree

theorem UnaryOp.functionName_injective : Function.Injective UnaryOp.functionName := by
  intro op op'
  cases op <;> cases op' <;> simp [functionName]

theorem BinaryOp.functionName_injective : Function.Injective BinaryOp.functionName := by
  intro op op'
  cases op <;> cases op' <;> simp [functionName]

namespace Expr

mutual

/-- The expression without the names of symbols. -/
def outline (dialect : Dialect) : Expr → Outline.Expr
  | literal value loc => .literal value loc
  | name ident => .name ident.loc
  | index _ entries loc => .index (entries.filterMap (constRange? dialect)) loc
  | unary op operand loc => .call op.functionName [outline dialect operand] loc
  | binary op lhs rhs loc =>
    .call op.functionName [outline dialect lhs, outline dialect rhs] loc
  | call function args loc => .call function.name (outlineAll dialect args) loc
  | array elements loc => .array (outlineAll dialect elements) loc

/-- The outlines of several expressions in order. -/
def outlineAll (dialect : Dialect) : List Expr → List Outline.Expr
  | [] => []
  | e :: es => outline dialect e :: outlineAll dialect es

end

end Expr

/-- The instruction with its name as written. -/
def Instruction.outline (dialect : Dialect) (i : Instruction) : Outline.Instruction where
  name := i.name.name
  condition := i.condition.map (Expr.outline dialect)
  operands := Expr.outlineAll dialect i.operands

/-- The number of iterations of a subcircuit, one if none is written and none if what is written is
no constant natural number. -/
def iterations? (dialect : Dialect) : Option Expr → Option Nat
  | none => some 1
  | some e => (e.constant? dialect).bind fun n => if 0 ≤ n.toInt then some n.toInt.toNat else none

namespace Stmt

mutual

/-- The statement without the names of symbols and the types that it declares. -/
def outline (dialect : Dialect) : Stmt → Outline.Stmt
  | qubits size loc => .qubits (size.outline dialect) loc
  | declare _ type init loc =>
    .declare (type.size?.map (Expr.outline dialect)) (init.map (Expr.outline dialect)) loc
  | map target _ loc => .map (target.outline dialect) loc
  | instruction i => .instruction (i.outline dialect) i.loc
  | bundle is loc => .bundle (is.map (Instruction.outline dialect)) loc
  | subcircuit name iterations body loc =>
    .subcircuit name.name (iterations? dialect iterations) (outlineAll dialect body) loc
  | assign lhs rhs loc => .assign (lhs.outline dialect) (rhs.outline dialect) loc
  | ifElse branches otherwise loc =>
    .ifElse (outlineBranches dialect branches) (outlineOtherwise dialect otherwise) loc
  | whileLoop condition body loc =>
    .whileLoop (condition.outline dialect) (outlineAll dialect body) loc
  | repeatUntil body condition loc =>
    .repeatUntil (outlineAll dialect body) (condition.outline dialect) loc
  | foreach _ first last body loc =>
    .foreach (first.outline dialect) (last.outline dialect) (outlineAll dialect body) loc
  | loopControl control loc => .loopControl control loc

/-- The outlines of the statements of a block in order. -/
def outlineAll (dialect : Dialect) : List Stmt → List Outline.Stmt
  | [] => []
  | s :: ss => outline dialect s :: outlineAll dialect ss

/-- The outlines of the branches of a conditional in order. -/
def outlineBranches (dialect : Dialect) :
    List (Expr × List Stmt) → List (Outline.Expr × List Outline.Stmt)
  | [] => []
  | (condition, body) :: branches =>
    (condition.outline dialect, outlineAll dialect body) :: outlineBranches dialect branches

/-- The outline of a block that may be missing. -/
def outlineOtherwise (dialect : Dialect) : Option (List Stmt) → Option (List Outline.Stmt)
  | none => none
  | some body => some (outlineAll dialect body)

end

end Stmt

/-- The program without the names of symbols and the types that it declares. -/
def Program.outline (dialect : Dialect) (program : Program) : Outline where
  version := program.versionItems
  stmts := Stmt.outlineAll dialect program.stmts

/-! ## Expressions -/

theorem outline_typedCall (table : SymbolTable) (name : String) (args : List Typed.Expr)
    (loc : Location) : (typedCall table name args loc).value.outline
      = .call name (Typed.Expr.outlineAll args) loc := by
  rw [(typedCall_eq table name args loc).1, Typed.Expr.outline]

theorem outline_typedAxis (table : SymbolTable) (elements : List Typed.Expr) (loc : Location) :
    (typedAxis table elements loc).value.outline
      = .array (Typed.Expr.outlineAll elements) loc := by
  rw [(typedAxis_eq table elements loc).1, Typed.Expr.outline]

namespace Expr

variable (table : SymbolTable)

mutual

theorem outline_expr : (e : Expr) →
    (e.analyze table).value.outline = e.outline table.dialect
  | .literal value loc => rfl
  | .name ident => by
    rw [(analyze_name table ident).1]
    rfl
  | .index target entries loc => by
    rw [(analyze_index table target entries loc).1, Typed.Expr.outline, ranges_analyzeEntries,
      outline]
  | .unary op operand loc => by
    rw [(analyze_unary table op operand loc).1, outline_typedCall, outline, ← outline_expr operand]
    rfl
  | .binary op lhs rhs loc => by
    rw [(analyze_binary table op lhs rhs loc).1, outline_typedCall, outline, ← outline_expr lhs,
      ← outline_expr rhs]
    rfl
  | .call function args loc => by
    rw [(analyze_call table function args loc).1, outline_typedCall, outline, outline_exprs args]
  | .array elements loc => by
    rw [(analyze_array table elements loc).1, outline_typedAxis, outline, outline_exprs elements]

theorem outline_exprs : (es : List Expr) →
    Typed.Expr.outlineAll (analyzeAll table es).value = outlineAll table.dialect es
  | [] => rfl
  | e :: es => by
    rw [(analyzeAll_cons table e es).1, Typed.Expr.outlineAll, outlineAll, outline_expr e,
      outline_exprs es]

end

end Expr

/-! ## Statements -/

namespace Stmt

open Analysis

variable (env : Env)

theorem outline_analyzeType (type : TypeSpec) :
    (analyzeType type env).value.1.1.map Typed.Expr.outline
      = type.size?.map (Expr.outline env.table.dialect) := by
  cases type with
  | scalar kind => rfl
  | register kind size =>
    cases size with
    | none => rfl
    | some size =>
      rw [(analyzeType_some env kind size).1]
      exact congrArg some (Expr.outline_expr env.table size)

theorem outline_analyzeInit (ty : Ty) (init : Option Expr) :
    (analyzeInit ty init env).value.1.map Typed.Expr.outline
      = init.map (Expr.outline env.table.dialect) := by
  cases init with
  | none => rfl
  | some e =>
    rw [(analyzeInit_some env ty e).1]
    exact congrArg some (Expr.outline_expr env.table e)

theorem outline_analyzeCondition (cond : Option Expr) :
    (analyzeCondition cond env).value.1.map Typed.Expr.outline
      = cond.map (Expr.outline env.table.dialect) := by
  cases cond with
  | none => rfl
  | some e =>
    rw [(analyzeCondition_some env e).1]
    exact congrArg some (Expr.outline_expr env.table e)

theorem outline_analyzeInstruction (i : Instruction) :
    (analyzeInstruction i env).value.1.outline = i.outline env.table.dialect := by
  rw [(analyzeInstruction_eq env i).1, Typed.GateCall.outline, Instruction.outline,
    outline_analyzeCondition, Expr.outline_exprs]

theorem outline_analyzeInstructions (is : List Instruction) :
    (analyzeInstructions is env).value.1.map Typed.GateCall.outline
      = is.map (Instruction.outline env.table.dialect) := by
  induction is with
  | nil => rfl
  | cons i is ih =>
    rw [(analyzeInstructions_cons env i is).1, List.map_cons, List.map_cons, ih,
      outline_analyzeInstruction]

theorem value_analyzeIterations (count : Option Expr) :
    (analyzeIterations count env).value.1 = iterations? env.table.dialect count := by
  cases count with
  | none => rfl
  | some e =>
    rw [(analyzeIterations_some env e).1, SymbolTable.value_iterationCount, Expr.constInt?_analyze,
      iterations?]

variable {dialect : Dialect}

theorem dialect_enter {env : Env} (h : env.table.dialect = dialect) (kind : BlockKind) :
    (env.enter kind).table.dialect = dialect := h

mutual

/-- The outline of a statement does not change when it is analysed. -/
theorem outline_stmt {env : Env} (h : env.table.dialect = dialect) : (s : Stmt) →
    (s.analyze env).value.1.outline = s.outline dialect
  | .qubits size loc => by
    rw [(analyze_qubits env size loc).1, Typed.Stmt.outline, outline, Expr.outline_expr, h]
    rfl
  | .declare name type init loc => by
    rw [(analyze_declare env name type init loc).1, Typed.Stmt.outline, outline,
      outline_analyzeType, outline_analyzeInit, h]
    rfl
  | .map target name loc => by
    rw [(analyze_map env target name loc).1, Typed.Stmt.outline, outline, Expr.outline_expr, h]
    rfl
  | .instruction i => by
    rw [(analyze_instruction env i).1, Typed.Stmt.outline, outline, outline_analyzeInstruction, h]
    rfl
  | .bundle is loc => by
    rw [(analyze_bundle env is loc).1, Typed.Stmt.outline, outline, outline_analyzeInstructions, h]
    rfl
  | .subcircuit name iterations body loc => by
    have hnamed : (nameSubcircuit name env).value.2.table.dialect = dialect := by
      rw [table_nameSubcircuit, h]
    have hbody := outline_block (dialect_enter hnamed .subcircuit) body
    rw [(analyze_subcircuit env name iterations body loc).1, Typed.Stmt.outline, outline,
      value_analyzeIterations, hnamed, hbody]
    rfl
  | .assign lhs rhs loc => by
    rw [(analyze_assign env lhs rhs loc).1, Typed.Stmt.outline, outline, Expr.outline_expr,
      Expr.outline_expr, h]
    rfl
  | .ifElse branches otherwise loc => by
    have hbehind := (stable_grows.analyzeBranches branches env).dialect.trans h
    rw [(analyze_ifElse env branches otherwise loc).1, Typed.Stmt.outline, outline,
      outline_branches h, outline_otherwise hbehind]
    rfl
  | .whileLoop cond body loc => by
    rw [(analyze_whileLoop env cond body loc).1, Typed.Stmt.outline, outline, Expr.outline_expr, h,
      outline_block (dialect_enter h .loop) body]
    rfl
  | .repeatUntil body cond loc => by
    have hbehind := (stable_grows.inBlock .loop (stable_grows.analyzeAll body) env).dialect.trans h
    rw [value_inBlock] at hbehind
    rw [(analyze_repeatUntil env body cond loc).1, Typed.Stmt.outline, outline, Expr.outline_expr,
      hbehind, outline_block (dialect_enter h .loop) body]
    rfl
  | .foreach name first last body loc => by
    have hfits : (Symbol.mk name.name .var .int name.loc).Fits := rfl
    have hname := (stable_grows.declareSymbol hfits (env.enter .loop)).dialect.trans h
    rw [(analyze_foreach env name first last body loc).1, Typed.Stmt.outline, outline,
      Expr.outline_expr, Expr.outline_expr, h, outline_block hname body]
    rfl
  | .loopControl control loc => by
    rw [(analyze_loopControl env control loc).1, Typed.Stmt.outline, outline]
    rfl

theorem outline_block {env : Env} (h : env.table.dialect = dialect) : (ss : List Stmt) →
    Typed.Stmt.outlineAll (analyzeAll ss env).value.1 = outlineAll dialect ss
  | [] => rfl
  | s :: ss => by
    have hbehind := (stable_grows.analyze s env).dialect.trans h
    rw [(analyzeAll_cons env s ss).1, Typed.Stmt.outlineAll, outlineAll, outline_stmt h s,
      outline_block hbehind ss]

theorem outline_branches {env : Env} (h : env.table.dialect = dialect) :
    (branches : List (Expr × List Stmt)) →
    Typed.Stmt.outlineBranches (analyzeBranches branches env).value.1
      = outlineBranches dialect branches
  | [] => rfl
  | (cond, body) :: branches => by
    have hbehind :=
      (stable_grows.inBlock .branch (stable_grows.analyzeAll body) env).dialect.trans h
    rw [value_inBlock] at hbehind
    rw [(analyzeBranches_cons env cond body branches).1, Typed.Stmt.outlineBranches,
      outlineBranches, Expr.outline_expr, h, outline_block (dialect_enter h .branch) body,
      outline_branches hbehind branches]

theorem outline_otherwise {env : Env} (h : env.table.dialect = dialect) :
    (otherwise : Option (List Stmt)) →
    Typed.Stmt.outlineOtherwise (analyzeOtherwise otherwise env).value.1
      = outlineOtherwise dialect otherwise
  | none => rfl
  | some body => by
    rw [(analyzeOtherwise_some env body).1, Typed.Stmt.outlineOtherwise, outlineOtherwise,
      outline_block (dialect_enter h .branch) body]

end

end Stmt

/-! ## Programs -/

namespace Program

variable {program : Program} {dialect : Dialect}

/-- A typed program has the outline of its tree, whatever is in error, and operators can be told by
the names of their functions. -/
theorem outline_analyze (h : program.dialect? = some dialect) :
    program.analyze.program.outline = program.outline dialect
      ∧ Function.Injective UnaryOp.functionName ∧ Function.Injective BinaryOp.functionName := by
  refine ⟨?_, UnaryOp.functionName_injective, BinaryOp.functionName_injective⟩
  have hnew : (Env.new dialect).table.dialect = dialect := rfl
  have hblock := Stmt.outline_block hnew program.stmts
  rw [analyze_eq h]
  exact congrArg (Outline.mk _) hblock

/-- `version 3; if (!y) { x q[2, n] } else { .s(n) { break } }`, where nothing is declared. -/
def undeclaredThroughout : Program :=
  let loc : Location := ⟨1, 1⟩
  let n : Expr := .name ⟨"n", loc⟩
  { version := some ⟨[3], loc⟩
    stmts :=
      [.ifElse
        [(.unary .not (.name ⟨"y", loc⟩) loc,
          [.instruction ⟨⟨"x", loc⟩, none,
            [.index ⟨"q", loc⟩ [.item (.int loc 2), .item n] loc], loc⟩])]
        (some [.subcircuit ⟨"s", loc⟩ (some n) [.loopControl .breakLoop loc] loc]) loc] }

/-- Six things are wrong, and of the index and the count only what is constant is left. -/
theorem outline_analyze_undeclaredThroughout :
    undeclaredThroughout.dialect? = some .v3
      ∧ undeclaredThroughout.analyze.diagnostics.length = 6
      ∧ undeclaredThroughout.analyze.program.outline
        = ⟨some [3], [.ifElse
            [(.call "operator!" [.name ⟨1, 1⟩] ⟨1, 1⟩,
              [.instruction ⟨"x", none, [.index [⟨2, 2⟩] ⟨1, 1⟩]⟩ ⟨1, 1⟩])]
            (some [.subcircuit "s" none [.loopControl .breakLoop ⟨1, 1⟩] ⟨1, 1⟩]) ⟨1, 1⟩]⟩ := by
  have hdialect : undeclaredThroughout.dialect? = some .v3 := rfl
  refine ⟨hdialect, by decide +kernel, (outline_analyze hdialect).1.trans ?_⟩
  rfl

end Program

end Tree

end Cqasm
