import Cqasm.Location

/-!
# Expressions as written

The parse tree of an expression. Every node knows its location. The arguments of operators, calls
and arrays and the entries of an index are expressions in turn.

## Main definitions

* `Literal` : the values that can be written;
* `Tree.UnaryOp`, `Tree.BinaryOp` : the operators, with the names of the functions they call;
* `Tree.Expr` : expressions;
* `Tree.Expr.items`, `Tree.Expr.slice` : an index whose entries are literals.
-/

namespace Cqasm

/-- A value as it is written. -/
inductive Literal where
  | bool (value : Bool)
  | int (value : Int64)
  /-- A floating-point number, given by its IEEE 754 bits. -/
  | float (bits : UInt64)
deriving Repr, DecidableEq, Inhabited

namespace Tree

/-- A name and where it stands. -/
structure Ident where
  name : String
  loc : Location
deriving Repr, DecidableEq, Inhabited

/-- The operators with one operand. -/
inductive UnaryOp where
  | neg
  | not
  | bitNot
deriving Repr, DecidableEq, Inhabited

/-- The function that an operator calls. -/
def UnaryOp.functionName : UnaryOp → String
  | neg => "operator-"
  | not => "operator!"
  | bitNot => "operator~"

/-- The operators with two operands. -/
inductive BinaryOp where
  | add
  | sub
  | mul
  | div
  | mod
  | pow
  | eq
  | ne
  | lt
  | le
  | gt
  | ge
  | logicalAnd
  | logicalOr
  | logicalXor
  | bitAnd
  | bitOr
  | bitXor
  | shl
  | shr
deriving Repr, DecidableEq, Inhabited

/-- The function that an operator calls. -/
def BinaryOp.functionName : BinaryOp → String
  | add => "operator+"
  | sub => "operator-"
  | mul => "operator*"
  | div => "operator/"
  | mod => "operator%"
  | pow => "operator**"
  | eq => "operator=="
  | ne => "operator!="
  | lt => "operator<"
  | le => "operator<="
  | gt => "operator>"
  | ge => "operator>="
  | logicalAnd => "operator&&"
  | logicalOr => "operator||"
  | logicalXor => "operator^^"
  | bitAnd => "operator&"
  | bitOr => "operator|"
  | bitXor => "operator^"
  | shl => "operator<<"
  | shr => "operator>>"

/-- An entry of an index, one element or all from the first to the last. -/
inductive IndexEntry (α : Type) where
  | item (value : α)
  | range (first last : α)
deriving Repr, DecidableEq, Inhabited

/-- An expression. -/
inductive Expr where
  | literal (value : Literal) (loc : Location)
  | name (ident : Ident)
  /-- Some elements of a register. -/
  | index (target : Ident) (entries : List (IndexEntry Expr)) (loc : Location)
  | unary (op : UnaryOp) (operand : Expr) (loc : Location)
  | binary (op : BinaryOp) (lhs rhs : Expr) (loc : Location)
  | call (function : Ident) (args : List Expr) (loc : Location)
  | array (elements : List Expr) (loc : Location)
deriving Repr, Inhabited

namespace Expr

/-- The location of the whole expression. -/
def loc : Expr → Location
  | literal _ loc => loc
  | name ident => ident.loc
  | index _ _ loc => loc
  | unary _ _ loc => loc
  | binary _ _ _ loc => loc
  | call _ _ loc => loc
  | array _ loc => loc

/-- An integer. -/
def int (loc : Location) (value : Int64) : Expr := literal (.int value) loc

/-- An index of single elements, all of it at one location. -/
def items (loc : Location) (target : String) (values : List Int64) : Expr :=
  index ⟨target, loc⟩ (values.map fun value => .item (int loc value)) loc

/-- An index of one range, all of it at one location. -/
def slice (loc : Location) (target : String) (first last : Int64) : Expr :=
  index ⟨target, loc⟩ [.range (int loc first) (int loc last)] loc

end Expr

end Tree

end Cqasm
