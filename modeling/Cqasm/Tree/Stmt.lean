import Cqasm.Tree.Expr

/-!
# Statements as written

The parse tree of a program: a version directive and a list of statements. Subcircuits, conditionals
and loops hold blocks of statements in turn.
-/

namespace Cqasm.Tree

/-- The two kinds of registers. -/
inductive RegisterKind where
  | qubit
  | bit
deriving Repr, DecidableEq, Inhabited

/-- The types of variables that are not registers. -/
inductive ScalarKind where
  | bool
  | int
  | float
  | complex
  | axis
deriving Repr, DecidableEq, Inhabited

/-- The type in a declaration. Only registers have a size. -/
inductive TypeSpec where
  | register (kind : RegisterKind) (size : Option Expr)
  | scalar (kind : ScalarKind)
deriving Repr, Inhabited

/-- The statements that leave a loop or its current round. -/
inductive LoopControl where
  | breakLoop
  | continueLoop
deriving Repr, DecidableEq, Inhabited

/-- The keyword of the statement. -/
def LoopControl.keyword : LoopControl → String
  | breakLoop => "break"
  | continueLoop => "continue"

/-- An instruction with its operands, executed only if the condition holds. -/
structure Instruction where
  name : Ident
  condition : Option Expr
  operands : List Expr
  loc : Location
deriving Repr, Inhabited

/-- A statement. -/
inductive Stmt where
  /-- Declares the qubit register `q` and the bit register `b` of one size. -/
  | qubits (size : Expr) (loc : Location)
  | declare (name : Ident) (type : TypeSpec) (init : Option Expr) (loc : Location)
  /-- Gives a new name to the target. -/
  | map (target : Expr) (name : Ident) (loc : Location)
  | instruction (instruction : Instruction)
  /-- Instructions that are executed in parallel. -/
  | bundle (instructions : List Instruction) (loc : Location)
  /-- A named part of the program that is executed as often as `iterations` says. -/
  | subcircuit (name : Ident) (iterations : Option Expr) (body : List Stmt) (loc : Location)
  | assign (lhs rhs : Expr) (loc : Location)
  | ifElse (branches : List (Expr × List Stmt)) (otherwise : Option (List Stmt)) (loc : Location)
  | whileLoop (condition : Expr) (body : List Stmt) (loc : Location)
  | repeatUntil (body : List Stmt) (condition : Expr) (loc : Location)
  | foreach (name : Ident) (first last : Expr) (body : List Stmt) (loc : Location)
  | loopControl (control : LoopControl) (loc : Location)
deriving Repr, Inhabited

/-- The location of the whole statement. -/
def Stmt.loc : Stmt → Location
  | qubits _ loc => loc
  | declare _ _ _ loc => loc
  | map _ _ loc => loc
  | instruction i => i.loc
  | bundle _ loc => loc
  | subcircuit _ _ _ loc => loc
  | assign _ _ loc => loc
  | ifElse _ _ loc => loc
  | whileLoop _ _ loc => loc
  | repeatUntil _ _ loc => loc
  | foreach _ _ _ _ loc => loc
  | loopControl _ loc => loc

/-- A version directive, the components of the version in order. -/
structure Version where
  items : List Int
  loc : Location
deriving Repr, DecidableEq, Inhabited

/-- A program. -/
structure Program where
  version : Option Version
  stmts : List Stmt
deriving Repr, Inhabited

end Cqasm.Tree
