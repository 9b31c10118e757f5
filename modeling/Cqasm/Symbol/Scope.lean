import Cqasm.Symbol.Basic

/-!
# Scopes

A scope binds names to symbols. The global scope is the outermost one; every other scope belongs to
a block of statements. A scope knows the scope around it, its parent, and its level, the number of
scopes around it.
-/

namespace Cqasm

/-- The kinds of blocks that have a scope of their own. -/
inductive BlockKind where
  /-- The body of a subcircuit. -/
  | subcircuit
  /-- A branch of a conditional statement. -/
  | branch
  /-- The body of a loop. -/
  | loop
deriving Repr, DecidableEq, Inhabited

/-- The kinds of scopes. -/
inductive ScopeKind where
  | global
  | block (kind : BlockKind)
deriving Repr, DecidableEq, Inhabited

/-- The number of a scope, counted from zero in the order in which they are opened. -/
abbrev ScopeId := Nat

/-- A scope and the names that it binds, in order of declaration. -/
structure Scope where
  kind : ScopeKind
  parent : Option ScopeId
  level : Nat
  bindings : List (String × SymbolId)
deriving Repr, DecidableEq

namespace Scope

/-- The global scope before any declaration. -/
def global : Scope := ⟨.global, none, 0, []⟩

instance : Inhabited Scope := ⟨global⟩

/-- The symbol that the scope itself binds `name` to. -/
def find? (scope : Scope) (name : String) : Option SymbolId :=
  (scope.bindings.find? (·.1 = name)).map (·.2)

/-- Does the scope itself bind `name`? -/
def binds (scope : Scope) (name : String) : Bool := (scope.find? name).isSome

/-- The scope with one more binding. -/
def bind (scope : Scope) (name : String) (id : SymbolId) : Scope :=
  { scope with bindings := scope.bindings ++ [(name, id)] }

/-- Is it the scope of the body of a loop? -/
def isLoop (scope : Scope) : Bool := scope.kind = .block .loop

theorem find?_bind {scope : Scope} {name other : String} {id : SymbolId} :
    (scope.bind name id).find? other =
      (scope.find? other).or (if name = other then some id else none) := by
  simp only [find?, bind, List.find?_append, List.find?_cons, List.find?_nil]
  cases scope.bindings.find? (·.1 = other) with
  | some _ => simp
  | none => by_cases h : name = other <;> simp [h]

end Scope

end Cqasm
