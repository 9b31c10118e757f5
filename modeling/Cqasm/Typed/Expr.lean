import Cqasm.Overload.Basic
import Cqasm.Symbol.Basic
import Cqasm.Tree.Expr

/-!
# Typed expressions

An expression after analysis. Every node carries a note with its type, whether it is constant and
where it stands. Names have been replaced by references to symbols, and operators and functions are
calls of an overload. Where something is in error the reference or the overload is missing and the
type is undefined.
-/

namespace Cqasm.Typed

/-- What the analysis has found out about an expression. -/
structure Note where
  ty : Ty
  isConst : Bool
  loc : Location
deriving Repr, DecidableEq, Inhabited

/-- Elements of a register, from the first to the last in steps of one, up or down. -/
structure IndexRange where
  first : Int64
  last : Int64
deriving Repr, DecidableEq, Inhabited

/-- An expression after analysis. -/
inductive Expr where
  | literal (note : Note) (value : Literal)
  | name (note : Note) (symbol : SymbolRef)
  /-- Some elements of a register. -/
  | index (note : Note) (target : SymbolRef) (ranges : List IndexRange)
  /-- The call of a function or operator. -/
  | call (note : Note) (function : String) (overload : Option Overload) (args : List Expr)
  /-- An array of three numbers. -/
  | axis (note : Note) (elements : List Expr)
deriving Inhabited

namespace Expr

/-- What is known about the expression. -/
def note : Expr → Note
  | literal note _ => note
  | name note _ => note
  | index note _ _ => note
  | call note _ _ _ => note
  | axis note _ => note

/-- The type of the expression. -/
def ty (e : Expr) : Ty := e.note.ty

/-- Is the expression constant? -/
def isConst (e : Expr) : Bool := e.note.isConst

/-- Where the expression stands. -/
def loc (e : Expr) : Location := e.note.loc

end Expr

end Cqasm.Typed

namespace Cqasm

/-- The type of a written value. -/
def Literal.ty : Literal → Ty
  | bool _ => .bool
  | int _ => .int
  | float _ => .float

end Cqasm
