import Cqasm.Proofs.Checked.Size
import Cqasm.Proofs.Checked.Table
import Cqasm.Proofs.Typed.Kinds

/-!
# Expressions do not fault

An expression asks for scopes and symbols wherever a name stands, and for the size of a type where a
register is indexed. Both are there in the tables that the analysis reaches (`Sound`).
-/

namespace Cqasm.Checked

open Cqasm.Tree (typedLiteral typedCall typedAxis)

/-- All scopes and symbols that are asked for are there, and all sizes are 64-bit numbers. -/
structure Sound (table : SymbolTable) : Prop where
  formed : table.Formed
  arises : ∀ symbol ∈ table.symbols, symbol.ty.Arises

theorem sound_of_reached {dialect : Dialect} {env : Env} (h : env.Reached dialect) :
    Sound env.table := ⟨h.formed, arises_of_reached h⟩

mutual

/-- The typed expression of an expression. -/
def analyzeExpr (table : SymbolTable) : Tree.Expr → Checked Typed.Expr
  | .literal value loc => pure (typedLiteral value loc)
  | .name ident => do
    let (symbol, ty) ← resolveName table ident.name ident.loc
    pure (.name ⟨ty, false, ident.loc⟩ symbol)
  | .index target entries loc => do
    let (symbol, targetTy) ← resolveName table target.name target.loc
    let entries ← analyzeEntries table entries
    let ty ← indexType table target.name target.loc targetTy entries
    pure (.index ⟨ty, false, loc⟩ symbol ((entries.filterMap id).map (·.range)))
  | .unary op operand loc => do
    let operand ← analyzeExpr table operand
    typedCall table op.functionName [operand] loc
  | .binary op lhs rhs loc => do
    let lhs ← analyzeExpr table lhs
    let rhs ← analyzeExpr table rhs
    typedCall table op.functionName [lhs, rhs] loc
  | .call function args loc => do
    let args ← analyzeExprs table args
    typedCall table function.name args loc
  | .array elements loc => do
    let elements ← analyzeExprs table elements
    typedAxis table elements loc

/-- The typed expressions of several expressions in order. -/
def analyzeExprs (table : SymbolTable) : List Tree.Expr → Checked (List Typed.Expr)
  | [] => pure []
  | e :: es => do
    let e ← analyzeExpr table e
    let es ← analyzeExprs table es
    pure (e :: es)

/-- The bounds of an entry of an index, if they are constant. -/
def analyzeEntry (table : SymbolTable) : Tree.IndexEntry Tree.Expr → Checked (Option IndexSpan)
  | .item e => do
    let e ← analyzeExpr table e
    let value ← constInteger table e
    pure (value.map fun n => ⟨⟨n, e.loc⟩, ⟨n, e.loc⟩⟩)
  | .range first last => do
    let first ← analyzeExpr table first
    let last ← analyzeExpr table last
    let lower ← constInteger table first
    let upper ← constInteger table last
    pure (lower.bind fun m => upper.map fun n => ⟨⟨m, first.loc⟩, ⟨n, last.loc⟩⟩)

/-- The bounds of the entries of an index in order. -/
def analyzeEntries (table : SymbolTable) :
    List (Tree.IndexEntry Tree.Expr) → Checked (List (Option IndexSpan))
  | [] => pure []
  | entry :: entries => do
    let entry ← analyzeEntry table entry
    let entries ← analyzeEntries table entries
    pure (entry :: entries)

end

variable {table : SymbolTable}

/-- The target of an index has a type whose size is a 64-bit number. -/
theorem size_le_of_resolveName (h : Sound table) {name : String} {loc : Location} {size : Nat}
    (hsize : (table.resolveName name loc).value.2.registerSize? = some size) :
    size ≤ Typed.IndexRange.maxSize :=
  ((table.refersTo_resolveName name loc).arises h.arises).size_le hsize

mutual

/-- In a sound table no expression faults. -/
theorem gives_analyzeExpr (h : Sound table) : (e : Tree.Expr) →
    (analyzeExpr table e).Gives (e.analyze table)
  | .literal value loc => by
    rw [analyzeExpr, Tree.Expr.analyze]
    exact .pure _
  | .name ident => by
    rw [analyzeExpr, Tree.Expr.analyze]
    exact .bind (gives_resolveName h.formed _ _) (.pure _)
  | .index target entries loc => by
    rw [analyzeExpr, Tree.Expr.analyze]
    refine .bind (gives_resolveName h.formed _ _) (.bind (gives_analyzeEntries h entries) ?_)
    exact .bind (gives_indexType _ _ (fun size => size_le_of_resolveName h) _) (.pure _)
  | .unary op operand loc => by
    rw [analyzeExpr, Tree.Expr.analyze]
    exact .bind (gives_analyzeExpr h operand) (.lift _)
  | .binary op lhs rhs loc => by
    rw [analyzeExpr, Tree.Expr.analyze]
    exact .bind (gives_analyzeExpr h lhs) (.bind (gives_analyzeExpr h rhs) (.lift _))
  | .call function args loc => by
    rw [analyzeExpr, Tree.Expr.analyze]
    exact .bind (gives_analyzeExprs h args) (.lift _)
  | .array elements loc => by
    rw [analyzeExpr, Tree.Expr.analyze]
    exact .bind (gives_analyzeExprs h elements) (.lift _)

theorem gives_analyzeExprs (h : Sound table) : (es : List Tree.Expr) →
    (analyzeExprs table es).Gives (Tree.Expr.analyzeAll table es)
  | [] => by
    rw [analyzeExprs, Tree.Expr.analyzeAll]
    exact .pure _
  | e :: es => by
    rw [analyzeExprs, Tree.Expr.analyzeAll]
    exact .bind (gives_analyzeExpr h e) (.bind (gives_analyzeExprs h es) (.pure _))

theorem gives_analyzeEntry (h : Sound table) : (entry : Tree.IndexEntry Tree.Expr) →
    (analyzeEntry table entry).Gives (Tree.Expr.analyzeEntry table entry)
  | .item e => by
    rw [analyzeEntry, Tree.Expr.analyzeEntry]
    exact .bind (gives_analyzeExpr h e) (.bind (gives_constInteger table _) (.pure _))
  | .range first last => by
    rw [analyzeEntry, Tree.Expr.analyzeEntry]
    refine .bind (gives_analyzeExpr h first) (.bind (gives_analyzeExpr h last) ?_)
    exact .bind (gives_constInteger table _) (.bind (gives_constInteger table _) (.pure _))

theorem gives_analyzeEntries (h : Sound table) : (entries : List (Tree.IndexEntry Tree.Expr)) →
    (analyzeEntries table entries).Gives (Tree.Expr.analyzeEntries table entries)
  | [] => by
    rw [analyzeEntries, Tree.Expr.analyzeEntries]
    exact .pure _
  | entry :: entries => by
    rw [analyzeEntries, Tree.Expr.analyzeEntries]
    exact .bind (gives_analyzeEntry h entry) (.bind (gives_analyzeEntries h entries) (.pure _))

end

end Cqasm.Checked
