import Cqasm.Proofs.Symbol.Guard
import Cqasm.Proofs.Symbol.Regular

/-!
# Tables kept in four structures

A table can be kept as a list of all scopes, a stack of those that are open, a list of all symbols
and a counter that numbers them, each of which is updated on its own. What keeps them together is
proved and not built in: whatever operations lead to a store, its structures fit (`Sound`), and it is
the store of a table. Conversely the tables that a script goes through have such stores.

A name is searched from the innermost open scope along the parents. No rule of the search says that
it ends or that it stays among the open scopes. It does since every parent was opened before its
child, and since the stack is the chain of the parents.

* `SymbolStore`, `SymbolStore.ofTable` : the four structures, and those of a table;
* `SymbolStore.enter?`, `SymbolStore.exit`, `SymbolStore.closeTo`, `SymbolStore.declare` : the
  operations;
* `SymbolStore.Reachable` : what they lead to;
* `SymbolStore.Walk` : a search along the parents;
* `SymbolStore.Sound` : how the structures fit together.
-/

namespace Cqasm

namespace SymbolTable

variable {table : SymbolTable} {depth : Nat}

theorem closeTo_exit (h : max depth 1 < table.depth) :
    table.exit.closeTo depth = table.closeTo depth := by
  have hnested : table.nested.length - (depth - 1) = table.nested.length - 1 - (depth - 1) + 1 := by
    rw [SymbolTable.depth] at h
    omega
  rw [exit, closeTo, closeTo, hnested, List.length_tail, List.drop_tail]

theorem closeTo_of_depth_le (h : table.depth ≤ max depth 1) :
    table.closeTo depth = table := by
  have hnested : table.nested.length - (depth - 1) = 0 := by
    rw [SymbolTable.depth] at h
    omega
  rw [closeTo, hnested, List.drop_zero]

end SymbolTable

/-- The symbols and scopes of a program, each structure on its own. -/
structure SymbolStore where
  dialect : Dialect
  /-- All scopes ever opened. -/
  scopes : List Scope
  /-- The open scopes, outermost first. -/
  stack : List ScopeId
  /-- All symbols in order of declaration. -/
  symbols : List Symbol
  /-- The number of the next symbol. -/
  counter : SymbolId

namespace SymbolStore

/-! ## Operations -/

/-- Opens a scope inside of the innermost open one, if any is open. -/
def push (kind : ScopeKind) (store : SymbolStore) : SymbolStore :=
  let scope : Scope := ⟨kind, store.stack.getLast?, store.stack.length, []⟩
  { store with scopes := store.scopes ++ [scope], stack := store.stack ++ [store.scopes.length] }

/-- Opens a scope. A global scope that is not the first is refused. -/
def enter? (kind : ScopeKind) (store : SymbolStore) : Except ScopeError SymbolStore :=
  if kind = .global ∧ store.stack ≠ [] then .error .secondGlobal else .ok (store.push kind)

/-- The store in which only the global scope has been opened. -/
def new (dialect : Dialect) : SymbolStore :=
  push .global { dialect, scopes := [], stack := [], symbols := [], counter := 0 }

/-- Closes the innermost open scope if there are others. -/
def exit (store : SymbolStore) : SymbolStore :=
  if 1 < store.stack.length then { store with stack := store.stack.dropLast } else store

theorem length_exit {store : SymbolStore} (h : 1 < store.stack.length) :
    store.exit.stack.length = store.stack.length - 1 := by
  rw [exit, if_pos h, List.length_dropLast]

/-- Closes one scope after the other until at most `depth` are open. -/
def closeTo (depth : Nat) (store : SymbolStore) : SymbolStore :=
  if max depth 1 < store.stack.length then closeTo depth store.exit else store
termination_by store.stack.length
decreasing_by
  rw [length_exit (by omega)]
  omega

/-- The number of the innermost open scope. -/
def currentId (store : SymbolStore) : ScopeId := store.stack.getLast?.getD 0

/-- The innermost open scope. -/
def current (store : SymbolStore) : Scope := (store.scopes[store.currentId]?).getD .global

/-- Appends the symbol, takes its number from the counter and binds its name in the innermost open
scope, unless that one binds the name already. -/
def declare (symbol : Symbol) (store : SymbolStore) :
    Except SymbolError (SymbolId × SymbolStore) :=
  if store.current.binds symbol.name then
    .error .alreadyBound
  else
    .ok (store.counter, { store with
      symbols := store.symbols ++ [symbol]
      counter := store.counter + 1
      scopes := store.scopes.modify store.currentId (·.bind symbol.name store.counter) })

/-- A store that operations lead to. A guarded part is opened like any other scope, and at its end
scopes are closed down to a number that was taken at its beginning. -/
inductive Reachable (dialect : Dialect) : SymbolStore → Prop where
  | new : Reachable dialect (new dialect)
  | enter {store store' : SymbolStore} {kind : ScopeKind} (h : Reachable dialect store)
      (henter : store.enter? kind = .ok store') : Reachable dialect store'
  | exit {store : SymbolStore} (h : Reachable dialect store) : Reachable dialect store.exit
  | closeTo {store : SymbolStore} (depth : Nat) (h : Reachable dialect store) :
      Reachable dialect (store.closeTo depth)
  | declare {store store' : SymbolStore} {symbol : Symbol} {id : SymbolId}
      (h : Reachable dialect store) (hdeclare : store.declare symbol = .ok (id, store')) :
      Reachable dialect store'

/-! ## How the structures fit -/

/-- The scope of the given number binds the name to the symbol of the given number. -/
def Binds (store : SymbolStore) (scopeId : ScopeId) (name : String) (id : SymbolId) : Prop :=
  ∃ scope, store.scopes[scopeId]? = some scope ∧ (name, id) ∈ scope.bindings

/-- A search for a name from a scope outwards along the parents: the scopes that it visits one after the
other, and the symbol that it finds with the level of the scope. -/
inductive Walk (scopes : List Scope) (name : String) :
    Option ScopeId → List ScopeId → Option (SymbolId × Nat) → Prop where
  | outside : Walk scopes name none [] none
  | found {id : ScopeId} {scope : Scope} {symbol : SymbolId} (hget : scopes[id]? = some scope)
      (hfind : scope.find? name = some symbol) :
      Walk scopes name (some id) [id] (some (symbol, scope.level))
  | outwards {id : ScopeId} {scope : Scope} {visited : List ScopeId}
      {found : Option (SymbolId × Nat)} (hget : scopes[id]? = some scope)
      (hfind : scope.find? name = none) (hrest : Walk scopes name scope.parent visited found) :
      Walk scopes name (some id) (id :: visited) found

/-- The structures fit together. -/
structure Sound (store : SymbolStore) : Prop where
  counter_eq : store.counter = store.symbols.length
  bound_lt : ∀ scopeId name id, store.Binds scopeId name id → id < store.counter
  /-- No symbol is bound in two scopes, be they open or closed, and none is lost. -/
  bound_once : ∀ id < store.counter, ∃! scopeId, ∃ name, store.Binds scopeId name id
  bound_name : ∀ scopeId name id, store.Binds scopeId name id →
    ∃ symbol, store.symbols[id]? = some symbol ∧ symbol.name = name
  bottom : store.stack.head? = some 0
  global_iff : ∀ id (scope : Scope), store.scopes[id]? = some scope → (scope.kind = .global ↔ id = 0)
  level : ∀ position id, store.stack[position]? = some id →
    ∃ scope : Scope, store.scopes[id]? = some scope ∧ scope.level = position
  parent : ∀ position outer inner, store.stack[position]? = some outer →
    store.stack[position + 1]? = some inner →
    ∃ scope : Scope, store.scopes[inner]? = some scope ∧ scope.parent = some outer
  parent_lt : ∀ id (scope : Scope) parent, store.scopes[id]? = some scope →
    scope.parent = some parent → parent < id
  /-- Every search ends. -/
  walk_total : ∀ name, ∃ visited found, Walk store.scopes name (some store.currentId) visited found
  /-- A search visits open scopes from the innermost outwards, and all of them if it finds nothing. -/
  walk_visits : ∀ name visited found, Walk store.scopes name (some store.currentId) visited found →
    visited <+: store.stack.reverse ∧ (found = none → visited = store.stack.reverse)

/-! ## The store of a table -/

/-- The structures of a table. -/
def ofTable (table : SymbolTable) : SymbolStore where
  dialect := table.dialect
  scopes := table.scopes
  stack := table.openScopes.reverse
  symbols := table.symbols
  counter := table.symbols.length

variable (table : SymbolTable)

theorem getLast?_stack : (ofTable table).stack.getLast? = some table.currentId := by
  rw [ofTable, List.getLast?_reverse, SymbolTable.openScopes_eq]
  rfl

theorem length_stack : (ofTable table).stack.length = table.depth := by
  rw [ofTable, List.length_reverse, SymbolTable.length_openScopes]

theorem currentId_ofTable : (ofTable table).currentId = table.currentId := by
  rw [currentId, getLast?_stack]
  rfl

theorem new_eq (dialect : Dialect) : new dialect = ofTable (.new dialect) := rfl

theorem push_ofTable (kind : BlockKind) :
    (ofTable table).push (.block kind) = ofTable (table.enter kind) := by
  rw [push, getLast?_stack, length_stack]
  simp [ofTable, SymbolTable.enter, SymbolTable.openScopes]

theorem enter?_ofTable (kind : ScopeKind) :
    (ofTable table).enter? kind = (table.enter? kind).map ofTable := by
  cases kind with
  | global =>
    have hstack : (ofTable table).stack ≠ [] := by
      rw [← List.length_pos_iff, length_stack]
      exact table.depth_pos
    exact if_pos ⟨rfl, hstack⟩
  | block kind =>
    rw [enter?, if_neg (fun h => by cases h.1), push_ofTable]
    rfl

theorem exit_ofTable : (ofTable table).exit = ofTable table.exit := by
  unfold exit
  rw [length_stack]
  by_cases h : 1 < table.depth
  · have hstack : (ofTable table).stack.dropLast = (ofTable table.exit).stack := by
      rw [ofTable, ofTable, List.dropLast_reverse]
      obtain ⟨id, nested, hnested⟩ := List.exists_cons_of_length_pos (Nat.lt_of_succ_lt_succ h)
      simp [SymbolTable.openScopes, SymbolTable.exit, hnested]
    rw [if_pos h, hstack]
    rfl
  · have hdepth : table.depth = 1 := Nat.le_antisymm (Nat.not_lt.mp h) table.depth_pos
    rw [if_neg h, SymbolTable.exit_of_depth hdepth]

theorem closeTo_ofTable (depth : Nat) :
    (ofTable table).closeTo depth = ofTable (table.closeTo depth) := by
  -- scopes are closed one by one, so the induction is on how many are open
  induction hdepth : table.depth using Nat.strongRecOn generalizing table with
  | ind n ih =>
    subst hdepth
    rw [closeTo, length_stack]
    split_ifs with h
    · have hlt : table.exit.depth < table.depth := by
        rw [← length_stack, ← exit_ofTable, length_exit (by rw [length_stack]; omega), length_stack]
        omega
      rw [exit_ofTable, ih _ hlt table.exit rfl, SymbolTable.closeTo_exit h]
    · rw [SymbolTable.closeTo_of_depth_le (Nat.not_lt.mp h)]

theorem declare_ofTable (symbol : Symbol) :
    (ofTable table).declare symbol = (table.declare symbol).map (Prod.map id ofTable) := by
  have hcurrent : (ofTable table).current = table.current := by
    rw [current, currentId_ofTable]
    rfl
  rw [declare, SymbolTable.declare, hcurrent, currentId_ofTable]
  split
  · rfl
  · rw [Except.map, Prod.map]
    simp [ofTable, SymbolTable.openScopes]

/-! ## The stack -/

theorem getElem?_concat_cases {α : Type} {l : List α} {last a : α} {i : Nat}
    (h : (l ++ [last])[i]? = some a) : l[i]? = some a ∨ i = l.length ∧ a = last := by
  rw [List.getElem?_append] at h
  split_ifs at h with hlt
  · exact .inl h
  · obtain ⟨hone, rfl⟩ := List.getElem?_eq_some_iff.mp h
    rw [List.length_singleton] at hone
    exact .inr ⟨by omega, List.getElem_singleton _⟩

section

variable {scopes : List Scope} {path : List ScopeId}

/-- From the outermost scope of a path inwards, the levels count up. -/
theorem level_of_path (h : Path scopes path) : ∀ position id, path.reverse[position]? = some id →
    ∃ scope : Scope, scopes[id]? = some scope ∧ scope.level = position := by
  intro position id hid
  induction h with
  | global hget _ _ hlevel =>
    rcases getElem?_concat_cases (l := []) hid with hid | ⟨rfl, rfl⟩
    · cases hid
    · exact ⟨_, hget, hlevel⟩
  | block hget _ _ hlevel _ _ ih =>
    rw [List.reverse_cons] at hid
    rcases getElem?_concat_cases hid with hid | ⟨rfl, rfl⟩
    · exact ih hid
    · refine ⟨_, hget, hlevel.trans ?_⟩
      rw [List.length_reverse, List.length_cons]

/-- From the outermost scope of a path inwards, each is the parent of the next. -/
theorem parent_of_path (h : Path scopes path) : ∀ position outer inner,
    path.reverse[position]? = some outer → path.reverse[position + 1]? = some inner →
    ∃ scope : Scope, scopes[inner]? = some scope ∧ scope.parent = some outer := by
  intro position outer inner houter hinner
  induction h with
  | global =>
    rcases getElem?_concat_cases (l := []) hinner with hinner | ⟨hposition, -⟩
    · cases hinner
    · cases hposition
  | block hget _ hparent _ _ _ ih =>
    rw [List.reverse_cons] at houter hinner
    rcases getElem?_concat_cases hinner with hinside | ⟨hposition, rfl⟩
    · have hlt := Nat.lt_of_succ_lt (List.getElem?_eq_some_iff.mp hinside).1
      rw [List.getElem?_append_left hlt] at houter
      exact ih houter hinside
    · refine ⟨_, hget, hparent.trans ?_⟩
      rw [List.reverse_cons, List.length_append, List.length_singleton] at hposition
      obtain rfl := Nat.succ.inj hposition
      rw [List.reverse_cons, List.append_assoc, List.getElem?_append_right (Nat.le_refl _),
        Nat.sub_self] at houter
      exact houter

/-! ## Searches -/

theorem scopeAt_of_getElem? {id : ScopeId} {scope : Scope} (h : scopes[id]? = some scope) :
    SymbolTable.scopeAt scopes id = scope := by
  rw [SymbolTable.scopeAt, h, Option.getD_some]

/-- What the first scope of some binds the name to. -/
def firstBinding (name : String) (frames : List Scope) : Option (SymbolId × Nat) :=
  frames.findSome? fun scope => (scope.find? name).map (·, scope.level)

/-- From the first scope of a path the search ends and finds what the first scope on the path binds. -/
theorem exists_walk {id : ScopeId} {rest : List ScopeId} (h : Path scopes (id :: rest))
    (name : String) : ∃ visited, Walk scopes name (some id) visited
      (firstBinding name ((id :: rest).map (SymbolTable.scopeAt scopes))) := by
  generalize hpath : id :: rest = path at h
  induction h generalizing id rest with
  | @global scope hget _ hparent _ =>
    cases hpath
    rw [List.map_cons, scopeAt_of_getElem? hget, firstBinding, List.findSome?_cons]
    cases hfind : scope.find? name with
    | some symbol => exact ⟨_, .found hget hfind⟩
    | none => exact ⟨_, .outwards hget hfind (by rw [hparent]; exact .outside)⟩
  | @block _ _ _ scope _ hget _ hparent _ _ _ ih =>
    cases hpath
    obtain ⟨visited, hwalk⟩ := ih rfl
    rw [List.map_cons, scopeAt_of_getElem? hget, firstBinding, List.findSome?_cons]
    cases hfind : scope.find? name with
    | some symbol => exact ⟨_, .found hget hfind⟩
    | none => exact ⟨_, .outwards hget hfind (hparent ▸ hwalk)⟩

/-- The search does not leave the path, and leaves out no scope of it before it finds something. -/
theorem visited_of_walk {id : ScopeId} {rest : List ScopeId} (h : Path scopes (id :: rest))
    {name : String} {visited : List ScopeId} {found : Option (SymbolId × Nat)}
    (hwalk : Walk scopes name (some id) visited found) :
    visited <+: id :: rest ∧ (found = none → visited = id :: rest) := by
  generalize hpath : id :: rest = path at h
  induction h generalizing id rest visited with
  | global hget _ hparent _ =>
    cases hpath
    cases hwalk with
    | found => exact ⟨List.prefix_rfl, fun _ => rfl⟩
    | outwards hget' _ hrest =>
      cases hget.symm.trans hget'
      rw [hparent] at hrest
      cases hrest
      exact ⟨List.prefix_rfl, fun _ => rfl⟩
  | block hget _ hparent _ _ _ ih =>
    cases hpath
    cases hwalk with
    | found => exact ⟨⟨_, rfl⟩, fun h => by cases h⟩
    | outwards hget' _ hrest =>
      cases hget.symm.trans hget'
      rw [hparent] at hrest
      obtain ⟨hstart, hall⟩ := ih hrest rfl
      exact ⟨List.cons_prefix_cons.mpr ⟨rfl, hstart⟩, fun h => congrArg _ (hall h)⟩

end

/-! ## Soundness -/

variable {table} {dialect : Dialect} {store : SymbolStore}

theorem sound_ofTable (h : table.Regular) : (ofTable table).Sound where
  counter_eq := rfl
  bound_lt := by
    rintro scopeId name id ⟨scope, hget, hmem⟩
    exact h.formed.bound scope (List.mem_of_getElem? hget) (name, id) hmem
  bound_once := by
    intro id hlt
    obtain ⟨scopeId, scope, hget, hbound⟩ :=
      SymbolTable.mem_boundIds.mp (h.bound.mem_iff.mpr (List.mem_range.mpr hlt))
    obtain ⟨⟨name, _⟩, hmem, rfl⟩ := List.mem_map.mp hbound
    refine ⟨scopeId, ⟨name, scope, hget, hmem⟩, ?_⟩
    rintro other ⟨name', scope', hget', hmem'⟩
    exact SymbolTable.eq_of_boundIds_nodup (h.bound.nodup_iff.mpr List.nodup_range) hget' hget
      (List.mem_map_of_mem hmem') hbound
  bound_name := by
    rintro scopeId name id ⟨scope, hget, hmem⟩
    exact h.named scope (List.mem_of_getElem? hget) (name, id) hmem
  bottom := by
    rw [ofTable, SymbolTable.openScopes, List.reverse_append]
    rfl
  global_iff id scope hget := (h.opened id scope hget).global_iff
  level := level_of_path h.formed.path
  parent := parent_of_path h.formed.path
  parent_lt id scope parent hget := (h.opened id scope hget).parent_lt parent
  walk_total name := by
    have hpath := h.formed.path
    rw [SymbolTable.openScopes_eq] at hpath
    obtain ⟨visited, hwalk⟩ := exists_walk hpath name
    exact ⟨visited, _, currentId_ofTable table ▸ hwalk⟩
  walk_visits name visited found hwalk := by
    have hpath := h.formed.path
    rw [SymbolTable.openScopes_eq] at hpath
    have hvisited := visited_of_walk hpath (currentId_ofTable table ▸ hwalk)
    rw [← SymbolTable.openScopes_eq] at hvisited
    rw [ofTable, List.reverse_reverse]
    exact hvisited

/-- Wherever operations lead, there is a table with the same structures. -/
theorem Reachable.exists_table (h : Reachable dialect store) :
    ∃ table : SymbolTable, table.Regular ∧ ofTable table = store := by
  induction h with
  | new => exact ⟨.new dialect, .new dialect, (new_eq dialect).symm⟩
  | @enter store store' kind _ henter ih =>
    obtain ⟨table, hregular, rfl⟩ := ih
    rw [enter?_ofTable] at henter
    cases kind with
    | global => cases henter
    | block kind =>
      cases henter
      exact ⟨table.enter kind, hregular.enter kind, rfl⟩
  | exit _ ih =>
    obtain ⟨table, hregular, rfl⟩ := ih
    refine ⟨table.exit, ?_, (exit_ofTable table).symm⟩
    rw [SymbolTable.exit_eq_closeTo]
    exact hregular.closeTo _
  | closeTo depth _ ih =>
    obtain ⟨table, hregular, rfl⟩ := ih
    exact ⟨table.closeTo depth, hregular.closeTo depth, (closeTo_ofTable table depth).symm⟩
  | @declare store store' symbol id _ hdeclare ih =>
    obtain ⟨table, hregular, rfl⟩ := ih
    rw [declare_ofTable] at hdeclare
    cases hbinds : table.current.binds symbol.name with
    | true =>
      rw [SymbolTable.declare_of_binds hbinds] at hdeclare
      cases hdeclare
    | false =>
      rw [SymbolTable.declare_of_not_binds hbinds] at hdeclare
      cases hdeclare
      exact ⟨table.bindCurrent symbol, hregular.bindCurrent symbol, rfl⟩

theorem maintained_reachable (dialect : Dialect) :
    SymbolTable.Maintained (fun table => Reachable dialect (ofTable table)) fun _ => True where
  enter {table} kind h := h.enter (enter?_ofTable table (.block kind))
  closeTo {table} depth h _ := closeTo_ofTable table depth ▸ h.closeTo depth
  declare {table symbol} h hbinds := by
    have hdeclare := declare_ofTable table symbol
    rw [SymbolTable.declare_of_not_binds hbinds] at hdeclare
    exact h.declare hdeclare

/-- The lookup of a table searches as the store does. -/
theorem exists_walk_of_formed (h : table.Formed) (name : String) :
    ∃ visited, Walk table.scopes name (some table.currentId) visited (table.binding? name) := by
  have hpath := h.path
  rw [SymbolTable.openScopes_eq] at hpath
  obtain ⟨visited, hwalk⟩ := exists_walk hpath name
  rw [← SymbolTable.openScopes_eq] at hwalk
  rw [SymbolTable.binding?, SymbolTable.visible_eq_frames h]
  exact ⟨visited, hwalk⟩

/-- Whatever operations lead to a store, its structures fit together. The tables that scripts go
through, inside of guarded parts and behind them, have such stores, and the lookup of a name is the
search in the store. -/
theorem sound_of_reachable (dialect : Dialect) :
    (∀ store, Reachable dialect store → store.Sound)
    ∧ ∀ table, SymbolTable.Reachable dialect table →
      Reachable dialect (ofTable table)
      ∧ ∀ name, ∃ visited,
        Walk table.scopes name (some table.currentId) visited (table.binding? name) := by
  constructor
  · intro store hreachable
    obtain ⟨table, hregular, rfl⟩ := hreachable.exists_table
    exact sound_ofTable hregular
  · intro table hreachable
    exact ⟨(maintained_reachable dialect).of_reachable .new hreachable,
      exists_walk_of_formed hreachable.formed⟩

/-- Three scopes are opened and closed, one of them by the end of a guarded part inside of which it was
left open, and then a fourth at the level of the first. -/
theorem sound_of_reachable_reopened :
    let x : Symbol := ⟨"x", .var, .int, ⟨1, 1⟩⟩
    let script : List Step := [.declare x, .enter (.block .loop), .declare x, .exit,
      .guarded (.block .branch) [.declare { x with name := "y" }, .enter (.block .loop)],
      .enter (.block .subcircuit), .declare x]
    let table := (SymbolTable.performAll script (.new .v3)).2
    SymbolTable.Reachable .v3 table
      ∧ Reachable .v3 (ofTable table)
      ∧ (ofTable table).Sound
      ∧ (ofTable table).stack = [0, 4] ∧ (ofTable table).counter = 4
      ∧ (∃ visited, Walk table.scopes "x" (some 4) visited (some (3, 1)))
      ∧ ∃ visited, Walk table.scopes "y" (some 4) visited none := by
  intro x script table
  have htable : SymbolTable.Reachable .v3 table := .of_performAll .v3 script
  obtain ⟨hsound, hstores⟩ := sound_of_reachable .v3
  obtain ⟨hstore, hwalk⟩ := hstores table htable
  have hcurrent : table.currentId = 4 := by decide +kernel
  have hx : table.binding? "x" = some (3, 1) := by decide +kernel
  have hy : table.binding? "y" = none := by decide +kernel
  rw [hcurrent] at hwalk
  exact ⟨htable, hstore, hsound _ hstore, by decide +kernel, by decide +kernel, hx ▸ hwalk "x",
    hy ▸ hwalk "y"⟩

end SymbolStore

end Cqasm
