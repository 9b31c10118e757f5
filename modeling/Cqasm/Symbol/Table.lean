import Cqasm.Dialect.Basic
import Cqasm.Symbol.Scope

/-!
# Symbol tables

A symbol table holds all symbols declared so far, all scopes ever opened and which of them are open.
A name is looked up from the innermost open scope outwards along the parents. The global scope is
open from the start and is never closed. The names of instructions and functions are kept apart: the
dialect of the table provides them.

## Main definitions

* `SymbolTable.new` : the table with the global scope only;
* `SymbolTable.enter`, `SymbolTable.exit`, `SymbolTable.closeTo` : opening and closing scopes;
* `SymbolTable.enter?` : opening a scope of a kind that may be the global one, which is refused;
* `SymbolTable.declare` : binding a name in the current scope;
* `SymbolTable.lookup` : the innermost binding of a name.
-/

namespace Cqasm

/-- The symbols and scopes of a program, as far as it has been read. -/
structure SymbolTable where
  dialect : Dialect
  /-- All scopes ever opened, the global one first. -/
  scopes : List Scope
  /-- The open scopes other than the global one, innermost first. -/
  nested : List ScopeId
  /-- All symbols in order of declaration. -/
  symbols : List Symbol
deriving Repr, DecidableEq, Inhabited

/-- A symbol that was looked up, with its number and the level of the scope that binds it. -/
structure SymbolRecord where
  symbol : Symbol
  id : SymbolId
  level : Nat
deriving Repr, DecidableEq, Inhabited

/-- Why a scope cannot be opened. -/
inductive ScopeError where
  /-- There is a global scope already. -/
  | secondGlobal
deriving Repr, DecidableEq, Inhabited

/-- The text of the error. -/
def ScopeError.message : ScopeError → String
  | secondGlobal => "The unique global scope must be the first scope."

namespace SymbolTable

/-- The table with the global scope and no symbol. -/
def new (dialect : Dialect) : SymbolTable :=
  { dialect, scopes := [.global], nested := [], symbols := [] }

/-! ## Open scopes -/

/-- The open scopes, innermost first. -/
def openScopes (table : SymbolTable) : List ScopeId := table.nested ++ [0]

/-- The number of open scopes. -/
def depth (table : SymbolTable) : Nat := table.nested.length + 1

/-- The number of the innermost open scope. -/
def currentId (table : SymbolTable) : ScopeId := table.nested.head?.getD 0

/-- The innermost open scope. -/
def current (table : SymbolTable) : Scope := (table.scopes[table.currentId]?).getD .global

/-- Opens the scope of a block inside the current scope. -/
def enter (kind : BlockKind) (table : SymbolTable) : SymbolTable :=
  let scope : Scope := ⟨.block kind, some table.currentId, table.depth, []⟩
  { table with
    scopes := table.scopes ++ [scope]
    nested := table.scopes.length :: table.nested }

/-- Opens a scope of the given kind inside the current scope. A second global scope is refused. -/
def enter? (kind : ScopeKind) (table : SymbolTable) : Except ScopeError SymbolTable :=
  match kind with
  | .global => .error .secondGlobal
  | .block kind => .ok (table.enter kind)

/-- Closes the current scope unless it is the global one. -/
def exit (table : SymbolTable) : SymbolTable := { table with nested := table.nested.tail }

/-- Closes scopes, innermost first, until at most `depth` are open and at least the global one. -/
def closeTo (depth : Nat) (table : SymbolTable) : SymbolTable :=
  { table with nested := table.nested.drop (table.nested.length - (depth - 1)) }

/-- Is an open scope the body of a loop? -/
def inLoop (table : SymbolTable) : Bool :=
  table.openScopes.any fun id => (table.scopes[id]?).any (·.isLoop)

/-! ## Symbols -/

/-- Binds the name of `symbol` in the current scope and numbers the symbol, unless that scope binds
the name already. -/
def declare (symbol : Symbol) (table : SymbolTable) :
    Except SymbolError (SymbolId × SymbolTable) :=
  if table.current.binds symbol.name then
    .error .alreadyBound
  else
    let id := table.symbols.length
    .ok (id, { table with
      scopes := table.scopes.modify table.currentId (·.bind symbol.name id)
      symbols := table.symbols ++ [symbol] })

/-- The scope with number `id`, its parent, the parent of that and so on, at most `limit` of
them. -/
def chain (scopes : List Scope) : Nat → ScopeId → List Scope
  | 0, _ => []
  | limit + 1, id =>
    match scopes[id]? with
    | none => []
    | some scope =>
      match scope.parent with
      | none => [scope]
      | some parent => scope :: chain scopes limit parent

/-- The scopes in which a name is looked up, in this order. A parent is opened before its
children, so its number is smaller and the current scope has no more ancestors than its number. -/
def visible (table : SymbolTable) : List Scope :=
  chain table.scopes (table.currentId + 1) table.currentId

/-- The symbol that `name` is bound to by the innermost scope that binds it, and the level of that
scope. -/
def binding? (table : SymbolTable) (name : String) : Option (SymbolId × Nat) :=
  table.visible.findSome? fun scope => (scope.find? name).map (·, scope.level)

/-- The innermost binding of `name`. -/
def lookup (table : SymbolTable) (name : String) : Except SymbolError SymbolRecord :=
  match table.binding? name with
  | none => .error .missingBinding
  | some (id, level) =>
    match table.symbols[id]? with
    | none => .error .missingBinding
    | some symbol => .ok { symbol, id, level }

/-- The built-in instruction of the given name. -/
def instruction? (table : SymbolTable) (name : String) : Option OverloadSet :=
  table.dialect.instructions.get? name

/-- The built-in function or operator of the given name. -/
def function? (table : SymbolTable) (name : String) : Option OverloadSet :=
  table.dialect.functions.get? name

end SymbolTable

namespace SymbolRecord

/-- The type that a lookup gives, undefined if there is no symbol. -/
def tyOf (found : Except SymbolError SymbolRecord) : Ty :=
  match found with
  | .ok record => record.symbol.ty
  | .error _ => .undefined

end SymbolRecord

end Cqasm
