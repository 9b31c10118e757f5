import Cqasm.Symbol.Table

/-!
# Scripts of table operations

A script is a sequence of operations on a symbol table. A guarded part opens a scope, runs its
operations and then closes scopes until no more are open than before it; so it closes its own scope
and those left open inside, and none if its own has been closed inside.

## Main definitions

* `Step` : the operations;
* `Outcome` : what an operation answers;
* `SymbolTable.perform`, `SymbolTable.performAll` : running an operation or a script.
-/

namespace Cqasm

/-- An operation on a symbol table. -/
inductive Step where
  | enter (kind : ScopeKind)
  | exit
  /-- Runs the steps in a scope of their own. -/
  | guarded (kind : ScopeKind) (steps : List Step)
  | declare (symbol : Symbol)
  | lookup (name : String)
  /-- Asks for a symbol by its number. -/
  | get (id : SymbolId)
  /-- Asks for all symbols. -/
  | symbols
  /-- Asks for the built-in instruction of a name. -/
  | instruction (name : String)
  /-- Asks for the built-in function of a name. -/
  | function (name : String)
deriving Repr, Inhabited

/-- What can be seen of the scopes of a table. -/
structure ScopeState where
  /-- The number of open scopes. -/
  depth : Nat
  /-- The number of bindings in the current scope. -/
  bindings : Nat
  kind : ScopeKind
  inLoop : Bool
deriving Repr, DecidableEq, Inhabited

/-- What can be seen of the scopes of a table. -/
def SymbolTable.scopeState (table : SymbolTable) : ScopeState :=
  { depth := table.depth, bindings := table.current.bindings.length, kind := table.current.kind,
    inLoop := table.inLoop }

/-- The answer to an operation. -/
inductive Outcome where
  | done
  /-- The scope could not be opened. -/
  | refused (error : ScopeError)
  /-- The scopes right after the scope of a guarded part was opened, and the answers to its steps
  with the scopes after each. -/
  | guarded (inside : ScopeState) (steps : List (Outcome × ScopeState))
  | declared (result : SymbolRef)
  | found (result : Except SymbolError SymbolRecord)
  | symbol (symbol : Option Symbol)
  | symbols (symbols : List Symbol)
  | overloads (set : Option OverloadSet)

namespace SymbolTable

mutual

/-- Runs one operation. An operation that fails leaves the table as it was. -/
def perform : Step → SymbolTable → Outcome × SymbolTable
  | .enter kind, table =>
    match table.enter? kind with
    | .ok table' => (.done, table')
    | .error error => (.refused error, table)
  | .exit, table => (.done, table.exit)
  | .guarded kind steps, table =>
    match table.enter? kind with
    | .ok table' =>
      let (outcomes, table'') := performAll steps table'
      (.guarded table'.scopeState outcomes, table''.closeTo table.depth)
    | .error error => (.refused error, table)
  | .declare symbol, table =>
    match table.declare symbol with
    | .ok (id, table') => (.declared (.ok id), table')
    | .error error => (.declared (.error error), table)
  | .lookup name, table => (.found (table.lookup name), table)
  | .get id, table => (.symbol table.symbols[id]?, table)
  | .symbols, table => (.symbols table.symbols, table)
  | .instruction name, table => (.overloads (table.instruction? name), table)
  | .function name, table => (.overloads (table.function? name), table)

/-- Runs the operations of a script and shows the scopes after each. -/
def performAll : List Step → SymbolTable → List (Outcome × ScopeState) × SymbolTable
  | [], table => ([], table)
  | step :: steps, table =>
    let (outcome, table') := perform step table
    let (outcomes, table'') := performAll steps table'
    ((outcome, table'.scopeState) :: outcomes, table'')

end

end SymbolTable

end Cqasm
