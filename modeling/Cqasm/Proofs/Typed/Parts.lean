import Cqasm.Typed.Stmt

/-!
# The parts of a program

A program and its typed counterpart are trees of statements over trees of expressions. Here both
are flattened: a statement has its nodes, itself and the statements nested in it, and every node has
expressions and instructions of its own, those that are not of a nested statement.

* `Tree.Stmt.nodes`, `Typed.Stmt.nodes` : the statements at any depth, in program order;
* `ownExprs`, `Typed.Stmt.ownCalls` : what a node itself holds;
* `Typed.Expr.subexprs` : the expressions at any depth in an expression;
* `Typed.Program.exprs`, `Typed.Program.gateCalls` : all of them in a program.
-/

namespace Cqasm

/-! ## As written -/

namespace Tree

/-- The size in the type of a declaration. -/
def TypeSpec.size? : TypeSpec → Option Expr
  | register _ size => size
  | scalar _ => none

namespace Stmt

/-- The expressions of the statement itself that have a typed counterpart: all but the number of
iterations of a subcircuit. -/
def ownExprs : Stmt → List Expr
  | qubits size _ => [size]
  | declare _ (.register _ size) init _ => size.toList ++ init.toList
  | declare _ (.scalar _) init _ => init.toList
  | map target _ _ => [target]
  | instruction i => i.operands ++ i.condition.toList
  | bundle is _ => is.flatMap fun i => i.operands ++ i.condition.toList
  | subcircuit _ _ _ _ => []
  | assign lhs rhs _ => [lhs, rhs]
  | ifElse branches _ _ => branches.map (·.1)
  | whileLoop condition _ _ => [condition]
  | repeatUntil _ condition _ => [condition]
  | foreach _ first last _ _ => [first, last]
  | loopControl _ _ => []

mutual

/-- The statement and the statements nested in it. -/
def nodes : Stmt → List Stmt
  | subcircuit name iterations body loc =>
    subcircuit name iterations body loc :: nodesAll body
  | ifElse branches otherwise loc =>
    ifElse branches otherwise loc :: (nodesBranches branches ++ nodesOtherwise otherwise)
  | whileLoop condition body loc => whileLoop condition body loc :: nodesAll body
  | repeatUntil body condition loc => repeatUntil body condition loc :: nodesAll body
  | foreach name first last body loc => foreach name first last body loc :: nodesAll body
  | s => [s]

/-- The statements at any depth of a block. -/
def nodesAll : List Stmt → List Stmt
  | [] => []
  | s :: ss => nodes s ++ nodesAll ss

/-- The statements at any depth of the branches of a conditional. -/
def nodesBranches : List (Expr × List Stmt) → List Stmt
  | [] => []
  | (_, body) :: branches => nodesAll body ++ nodesBranches branches

/-- The statements at any depth of a block that may be missing. -/
def nodesOtherwise : Option (List Stmt) → List Stmt
  | none => []
  | some body => nodesAll body

end

end Stmt

/-- The statements at any depth of a program. -/
def Program.nodes (program : Program) : List Stmt := Stmt.nodesAll program.stmts

end Tree

/-! ## After analysis -/

namespace Typed

namespace Expr

mutual

/-- The expression and those inside of it. -/
def subexprs : Expr → List Expr
  | call note function overload args => call note function overload args :: subexprsAll args
  | axis note elements => axis note elements :: subexprsAll elements
  | e => [e]

/-- The expressions at any depth of several expressions. -/
def subexprsAll : List Expr → List Expr
  | [] => []
  | e :: es => subexprs e ++ subexprsAll es

end

end Expr

namespace Stmt

/-- The expressions of the statement itself. -/
def ownExprs : Stmt → List Expr
  | qubits _ _ _ size => [size]
  | declare _ _ size init => size.toList ++ init.toList
  | map _ _ target => [target]
  | instruction _ call => call.operands ++ call.condition.toList
  | bundle _ calls => calls.flatMap fun call => call.operands ++ call.condition.toList
  | subcircuit _ _ _ _ => []
  | assign _ lhs rhs => [lhs, rhs]
  | ifElse _ branches _ => branches.map (·.1)
  | whileLoop _ condition _ => [condition]
  | repeatUntil _ _ condition => [condition]
  | foreach _ _ first last _ => [first, last]
  | loopControl _ _ => []

/-- The instructions of the statement itself. -/
def ownCalls : Stmt → List GateCall
  | instruction _ call => [call]
  | bundle _ calls => calls
  | _ => []

mutual

/-- The statement and the statements nested in it. -/
def nodes : Stmt → List Stmt
  | subcircuit mark name iterations body => subcircuit mark name iterations body :: nodesAll body
  | ifElse mark branches otherwise =>
    ifElse mark branches otherwise :: (nodesBranches branches ++ nodesOtherwise otherwise)
  | whileLoop mark condition body => whileLoop mark condition body :: nodesAll body
  | repeatUntil mark body condition => repeatUntil mark body condition :: nodesAll body
  | foreach mark symbol first last body => foreach mark symbol first last body :: nodesAll body
  | s => [s]

/-- The statements at any depth of a block. -/
def nodesAll : List Stmt → List Stmt
  | [] => []
  | s :: ss => nodes s ++ nodesAll ss

/-- The statements at any depth of the branches of a conditional. -/
def nodesBranches : List (Expr × List Stmt) → List Stmt
  | [] => []
  | (_, body) :: branches => nodesAll body ++ nodesBranches branches

/-- The statements at any depth of a block that may be missing. -/
def nodesOtherwise : Option (List Stmt) → List Stmt
  | none => []
  | some body => nodesAll body

end

end Stmt

namespace Program

/-- The statements at any depth of a program. -/
def nodes (program : Program) : List Stmt := Stmt.nodesAll program.stmts

/-- The expressions at any depth of a program. -/
def exprs (program : Program) : List Expr :=
  program.nodes.flatMap fun s => s.ownExprs.flatMap Expr.subexprs

/-- The instructions of a program. -/
def gateCalls (program : Program) : List GateCall := program.nodes.flatMap Stmt.ownCalls

end Program

end Typed

end Cqasm
