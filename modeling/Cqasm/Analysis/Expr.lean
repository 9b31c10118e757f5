import Cqasm.Analysis.Index

/-!
# The analysis of expressions

Every expression becomes a typed one, whether or not it is in error. The parts of an expression are
analysed from left to right, and then the expression itself. The symbol table is only read.
-/

namespace Cqasm.Tree

open Typed (Note)

/-- The typed expression of a written value. -/
def typedLiteral (value : Literal) (loc : Location) : Typed.Expr :=
  .literal ⟨value.ty, true, loc⟩ value

/-- The typed call of the function or operator `name`. It is constant if it is resolved and its
arguments are constant. -/
def typedCall (table : SymbolTable) (name : String) (args : List Typed.Expr) (loc : Location) :
    Logged Typed.Expr := do
  let overload ← table.resolveFunction name (args.map (·.ty)) loc
  let ty := (overload.map (·.result)).getD .undefined
  pure (.call ⟨ty, overload.isSome && args.all (·.isConst), loc⟩ name overload args)

/-- Records a diagnostic unless an array has the size of an axis. -/
def checkAxisSize (table : SymbolTable) (size : Nat) (loc : Location) : Logged Unit :=
  if size = 3 then pure () else table.report (.invalidAxis size) loc

/-- The typed array with the given elements, which has to be an axis. -/
def typedAxis (table : SymbolTable) (elements : List Typed.Expr) (loc : Location) :
    Logged Typed.Expr := do
  checkAxisSize table elements.length loc
  let convertible ← table.checkConversions .float elements
  let ty := if elements.length = 3 ∧ convertible then .axis else .undefined
  pure (.axis ⟨ty, elements.all (·.isConst), loc⟩ elements)

namespace Expr

mutual

/-- The typed expression of an expression, with names looked up in `table`. -/
def analyze (table : SymbolTable) : Expr → Logged Typed.Expr
  | literal value loc => pure (typedLiteral value loc)
  | name ident => do
    let (symbol, ty) ← table.resolveName ident.name ident.loc
    pure (.name ⟨ty, false, ident.loc⟩ symbol)
  | index target entries loc => do
    let (symbol, targetTy) ← table.resolveName target.name target.loc
    let entries ← analyzeEntries table entries
    let ty ← table.indexType target.name target.loc targetTy entries
    pure (.index ⟨ty, false, loc⟩ symbol ((entries.filterMap id).map (·.range)))
  | unary op operand loc => do
    let operand ← analyze table operand
    typedCall table op.functionName [operand] loc
  | binary op lhs rhs loc => do
    let lhs ← analyze table lhs
    let rhs ← analyze table rhs
    typedCall table op.functionName [lhs, rhs] loc
  | call function args loc => do
    let args ← analyzeAll table args
    typedCall table function.name args loc
  | array elements loc => do
    let elements ← analyzeAll table elements
    typedAxis table elements loc

/-- The typed expressions of several expressions in order. -/
def analyzeAll (table : SymbolTable) : List Expr → Logged (List Typed.Expr)
  | [] => pure []
  | e :: es => do
    let e ← analyze table e
    let es ← analyzeAll table es
    pure (e :: es)

/-- The bounds of an entry of an index, if they are constant. -/
def analyzeEntry (table : SymbolTable) : IndexEntry Expr → Logged (Option IndexSpan)
  | .item e => do
    let e ← analyze table e
    let value ← table.constInteger e
    pure (value.map fun n => ⟨⟨n, e.loc⟩, ⟨n, e.loc⟩⟩)
  | .range first last => do
    let first ← analyze table first
    let last ← analyze table last
    let lower ← table.constInteger first
    let upper ← table.constInteger last
    pure (lower.bind fun m => upper.map fun n => ⟨⟨m, first.loc⟩, ⟨n, last.loc⟩⟩)

/-- The bounds of the entries of an index in order. -/
def analyzeEntries (table : SymbolTable) :
    List (IndexEntry Expr) → Logged (List (Option IndexSpan))
  | [] => pure []
  | entry :: entries => do
    let entry ← analyzeEntry table entry
    let entries ← analyzeEntries table entries
    pure (entry :: entries)

end

end Expr

end Cqasm.Tree
