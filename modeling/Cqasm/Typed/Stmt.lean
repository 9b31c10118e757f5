import Cqasm.Dialect.Basic
import Cqasm.Tree.Stmt
import Cqasm.Typed.Expr

/-!
# Typed statements

A statement after analysis. Every node carries a mark with its location and whether the statement is
valid, which it is if no error was found in it or in a statement nested in it.
-/

namespace Cqasm.Typed

/-- What the analysis has found out about a statement. -/
structure Mark where
  loc : Location
  valid : Bool
deriving Repr, DecidableEq, Inhabited

/-- An instruction after analysis, its name as written. -/
structure GateCall where
  name : String
  overload : Option Overload
  condition : Option Expr
  operands : List Expr
deriving Inhabited

/-- A statement after analysis. -/
inductive Stmt where
  /-- The declaration of a qubit and of a bit register of one size. -/
  | qubits (mark : Mark) (qubits bits : SymbolRef) (size : Expr)
  | declare (mark : Mark) (symbol : SymbolRef) (size init : Option Expr)
  | map (mark : Mark) (symbol : SymbolRef) (target : Expr)
  | instruction (mark : Mark) (call : GateCall)
  | bundle (mark : Mark) (calls : List GateCall)
  /-- A subcircuit. The number of iterations is one if none was written, and missing if it is in
  error. -/
  | subcircuit (mark : Mark) (name : String) (iterations : Option Nat) (body : List Stmt)
  | assign (mark : Mark) (lhs rhs : Expr)
  | ifElse (mark : Mark) (branches : List (Expr × List Stmt)) (otherwise : Option (List Stmt))
  | whileLoop (mark : Mark) (condition : Expr) (body : List Stmt)
  | repeatUntil (mark : Mark) (body : List Stmt) (condition : Expr)
  | foreach (mark : Mark) (symbol : SymbolRef) (first last : Expr) (body : List Stmt)
  | loopControl (mark : Mark) (control : Tree.LoopControl)
deriving Inhabited

namespace Stmt

/-- What is known about the statement. -/
def mark : Stmt → Mark
  | qubits mark _ _ _ => mark
  | declare mark _ _ _ => mark
  | map mark _ _ => mark
  | instruction mark _ => mark
  | bundle mark _ => mark
  | subcircuit mark _ _ _ => mark
  | assign mark _ _ => mark
  | ifElse mark _ _ => mark
  | whileLoop mark _ _ => mark
  | repeatUntil mark _ _ => mark
  | foreach mark _ _ _ _ => mark
  | loopControl mark _ => mark

/-- Where the statement stands. -/
def loc (s : Stmt) : Location := s.mark.loc

/-- Is the statement free of errors? -/
def valid (s : Stmt) : Bool := s.mark.valid

end Stmt

/-- A program after analysis. Version and dialect are missing if the version is not supported. -/
structure Program where
  version : Option (List Int)
  dialect : Option Dialect
  stmts : List Stmt
deriving Inhabited

end Cqasm.Typed
