import Cqasm.Analysis.Logged
import Cqasm.Symbol.Table
import Cqasm.Typed.ConstInt

/-!
# Checks

What the analysis does at many places: looking up a name, choosing an overload, checking a
conversion and evaluating a constant integer. Each records a diagnostic if it fails. The undefined
type stands for an error that has been recorded already, so a check of something undefined records
nothing more.
-/

namespace Cqasm

namespace SymbolTable

/-- Records a diagnostic under the dialect of the table. -/
def report (table : SymbolTable) (cause : Cause) (loc : Location) : Logged Unit :=
  Logged.report { cause, loc, dialect := some table.dialect }

/-- The innermost binding of `name`, as a reference and a type. -/
def resolveName (table : SymbolTable) (name : String) (loc : Location) :
    Logged (SymbolRef × Ty) := do
  match table.lookup name with
  | .ok record => pure (.ok record.id, record.symbol.ty)
  | .error error =>
    table.report (.undeclaredIdentifier name) loc
    pure (.error error, .undefined)

/-- The overload for a call. Here `unknown` is the cause if there is no overload set of the name.
An ambiguity is not recorded if an argument is undefined, since that one fits every parameter. -/
def resolveCall (table : SymbolTable) (unknown : Cause) (set : Option OverloadSet) (name : String)
    (args : List Ty) (loc : Location) : Logged (Option Overload) := do
  match resolve table.dialect.promotions set name args with
  | .ok o => pure (some o)
  | .error (.unknown _) =>
    table.report unknown loc
    pure none
  | .error (.noMatch name args) =>
    table.report (.noMatchingOverload name args) loc
    pure none
  | .error (.ambiguous name candidates) =>
    if args.all (·.isDefined) then
      table.report (.ambiguousOverload name candidates) loc
      pure none
    else
      pure none

/-- The overload for a call of a function or operator. -/
def resolveFunction (table : SymbolTable) (name : String) (args : List Ty) (loc : Location) :
    Logged (Option Overload) :=
  table.resolveCall (.unknownFunction name) (table.function? name) name args loc

/-- Records a warning if the overload of the instruction `name` is deprecated. -/
def warnDeprecated (table : SymbolTable) (name : String) (o : Overload) (loc : Location) :
    Logged Unit :=
  match o.replacement with
  | none => pure ()
  | some replacement => table.report (.deprecatedInstruction name replacement) loc

/-- The overload for an instruction. -/
def resolveInstruction (table : SymbolTable) (name : String) (args : List Ty) (loc : Location) :
    Logged (Option Overload) := do
  match ← table.resolveCall (.unknownInstruction name) (table.instruction? name) name args loc with
  | none => pure none
  | some o =>
    table.warnDeprecated name o loc
    pure (some o)

/-- Does the type of `e` convert to `ty`? If not, a diagnostic is recorded. An undefined type on
either side passes. -/
def checkConversion (table : SymbolTable) (e : Typed.Expr) (ty : Ty) : Logged Bool := do
  if e.ty.isDefined && ty.isDefined && !table.dialect.promotions.convertible e.ty ty then
    table.report (.incompatibleTypes ty e.ty) e.loc
    pure false
  else
    pure true

/-- Do the types of all of `es` convert to `ty`? -/
def checkConversions (table : SymbolTable) (ty : Ty) : List Typed.Expr → Logged Bool
  | [] => pure true
  | e :: es => do
    let first ← table.checkConversion e ty
    let rest ← table.checkConversions ty es
    pure (first && rest)

/-- The value of the constant integer `e`. -/
def constInteger (table : SymbolTable) (e : Typed.Expr) : Logged (Option Int64) := do
  if e.ty.isDefined then
    match e.constInt? with
    | some n => pure (some n)
    | none =>
      table.report .expectedConstInteger e.loc
      pure none
  else
    pure none

/-- The size of a register that is declared with the size `e`. -/
def registerSize (table : SymbolTable) (e : Typed.Expr) : Logged (Option Nat) := do
  match ← table.constInteger e with
  | none => pure none
  | some n =>
    if 0 < n.toInt then
      pure (some n.toInt.toNat)
    else
      table.report (.invalidRegisterSize n.toInt) e.loc
      pure none

/-- The number of iterations of a subcircuit that is written with the count `e`. -/
def iterationCount (table : SymbolTable) (e : Typed.Expr) : Logged (Option Nat) := do
  match ← table.constInteger e with
  | none => pure none
  | some n =>
    if 0 ≤ n.toInt then
      pure (some n.toInt.toNat)
    else
      table.report (.invalidIterationCount n.toInt) e.loc
      pure none

end SymbolTable

end Cqasm
