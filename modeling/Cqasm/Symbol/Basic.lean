import Cqasm.Location
import Cqasm.Ty.Basic

/-!
# Symbols

A symbol is a declared name: a variable, a register or an alias. Symbols are numbered in the order
of their declaration. Wherever a name was to be declared or referred to, a `SymbolRef` keeps the
number or the reason why there is none.
-/

namespace Cqasm

/-- What a name stands for. -/
inductive SymbolKind where
  | var
  | qubitRegister
  | bitRegister
  | mapping
deriving Repr, DecidableEq, Inhabited

/-- A declared name. -/
structure Symbol where
  name : String
  kind : SymbolKind
  ty : Ty
  /-- Where it is declared. -/
  loc : Location
deriving Repr, DecidableEq, Inhabited

/-- The number of a symbol, counted from zero in order of declaration. -/
abbrev SymbolId := Nat

/-- Why a name has no symbol. -/
inductive SymbolError where
  /-- No scope around the reference binds the name. -/
  | missingBinding
  /-- The scope of the declaration binds the name already. -/
  | alreadyBound
deriving Repr, DecidableEq, Inhabited

/-- The text of the error. -/
def SymbolError.message : SymbolError → String
  | missingBinding => "name is not bound in any enclosing scope"
  | alreadyBound => "name is already bound in the current scope"

/-- The outcome of a declaration or of a reference. -/
abbrev SymbolRef := Except SymbolError SymbolId

end Cqasm
