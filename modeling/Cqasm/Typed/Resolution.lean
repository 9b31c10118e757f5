import Cqasm.Typed.Stmt

/-!
# The outcomes of resolution in a program

A typed program holds outcomes of resolution in many places: references to symbols, overloads of
calls and types of expressions. They are listed in program order. A program is fully resolved if
none of them is in error.

## Main definitions

* `Resolution` : one outcome;
* `Expr.resolutions`, `Stmt.resolutions`, `Program.resolutions` : all outcomes;
* `Program.symbolErrors`, `Program.unresolvedCalls`, `Program.undefinedTypes` : how many are in
  error;
* `Program.isFullyResolved` : is none in error?
-/

namespace Cqasm.Typed

/-- An outcome of resolution. -/
inductive Resolution where
  | symbol (ref : SymbolRef)
  /-- The call of an instruction, function or operator and the overload chosen for it. -/
  | call (name : String) (overload : Option Overload)
  /-- An expression and with it its type. -/
  | expr (e : Expr)

namespace Resolution

/-- Is it a reference without a symbol? -/
def isSymbolError : Resolution → Bool
  | symbol (.error _) => true
  | _ => false

/-- Is it a call without an overload? -/
def isUnresolvedCall : Resolution → Bool
  | call _ none => true
  | _ => false

/-- Is it an expression without a type? -/
def isUndefinedType : Resolution → Bool
  | expr e => !e.ty.isDefined
  | _ => false

end Resolution

namespace Expr

mutual

/-- The outcomes in an expression. -/
def resolutions : Expr → List Resolution
  | literal note value => [.expr (literal note value)]
  | name note symbol => [.expr (name note symbol), .symbol symbol]
  | index note target ranges => [.expr (index note target ranges), .symbol target]
  | call note function overload args =>
    .expr (call note function overload args) :: .call function overload :: resolutionsAll args
  | axis note elements => .expr (axis note elements) :: resolutionsAll elements

/-- The outcomes in several expressions. -/
def resolutionsAll : List Expr → List Resolution
  | [] => []
  | e :: es => resolutions e ++ resolutionsAll es

end

/-- The outcomes in an expression that may be missing. -/
def resolutionsOpt : Option Expr → List Resolution
  | none => []
  | some e => e.resolutions

end Expr

/-- The outcomes in an instruction: its overload, its condition and its operands. -/
def GateCall.resolutions (call : GateCall) : List Resolution :=
  .call call.name call.overload
    :: (Expr.resolutionsOpt call.condition ++ Expr.resolutionsAll call.operands)

namespace Stmt

mutual

/-- The outcomes in a statement. -/
def resolutions : Stmt → List Resolution
  | qubits _ q b size => .symbol q :: .symbol b :: size.resolutions
  | declare _ symbol size init =>
    .symbol symbol :: (Expr.resolutionsOpt size ++ Expr.resolutionsOpt init)
  | map _ symbol target => .symbol symbol :: target.resolutions
  | instruction _ call => call.resolutions
  | bundle _ calls => calls.flatMap GateCall.resolutions
  | subcircuit _ _ _ body => resolutionsAll body
  | assign _ lhs rhs => lhs.resolutions ++ rhs.resolutions
  | ifElse _ branches otherwise =>
    resolutionsBranches branches ++ resolutionsOtherwise otherwise
  | whileLoop _ condition body => condition.resolutions ++ resolutionsAll body
  | repeatUntil _ body condition => resolutionsAll body ++ condition.resolutions
  | foreach _ symbol first last body =>
    .symbol symbol :: (first.resolutions ++ last.resolutions ++ resolutionsAll body)
  | loopControl _ _ => []

/-- The outcomes in a block. -/
def resolutionsAll : List Stmt → List Resolution
  | [] => []
  | s :: ss => resolutions s ++ resolutionsAll ss

/-- The outcomes in the branches of a conditional, each condition before its block. -/
def resolutionsBranches : List (Expr × List Stmt) → List Resolution
  | [] => []
  | (condition, body) :: branches =>
    condition.resolutions ++ resolutionsAll body ++ resolutionsBranches branches

/-- The outcomes in the block of a conditional that is executed if no condition holds. -/
def resolutionsOtherwise : Option (List Stmt) → List Resolution
  | none => []
  | some body => resolutionsAll body

end

end Stmt

namespace Program

/-- The outcomes in a program. -/
def resolutions (program : Program) : List Resolution := Stmt.resolutionsAll program.stmts

/-- The number of references and declarations without a symbol. -/
def symbolErrors (program : Program) : Nat := program.resolutions.countP (·.isSymbolError)

/-- The number of calls without an overload. -/
def unresolvedCalls (program : Program) : Nat := program.resolutions.countP (·.isUnresolvedCall)

/-- The number of expressions without a type. -/
def undefinedTypes (program : Program) : Nat := program.resolutions.countP (·.isUndefinedType)

/-- Has every reference a symbol, every call an overload and every expression a type? -/
def isFullyResolved (program : Program) : Bool :=
  program.symbolErrors == 0 && program.unresolvedCalls == 0 && program.undefinedTypes == 0

end Program

end Cqasm.Typed
