import Cqasm.Symbol.Table

/-!
# The arena of scopes

A table never forgets a scope: the open ones are a path of parent links through the list of all
scopes. `SymbolTable.Formed` says that the path is one, and every operation on tables keeps it.

* `Path` : a list of scope numbers that follows the parents down to the global scope;
* `SymbolTable.frames` : the open scopes themselves, innermost first; `visible_eq_frames` says that
  the walk along the parents meets exactly these;
* `SymbolTable.Grows` : what every operation leaves as it was.
-/

namespace Cqasm

theorem getElem?_of_prefix {α : Type} {l l' : List α} (h : l <+: l') {i : Nat} {a : α}
    (hget : l[i]? = some a) : l'[i]? = some a := by
  obtain ⟨hlt, rfl⟩ := List.getElem?_eq_some_iff.mp hget
  exact List.prefix_iff_getElem?.mp h i hlt

/-- The scope without its bindings. -/
def Scope.bare (scope : Scope) : Scope := { scope with bindings := [] }

@[simp] theorem Scope.bare_bind (scope : Scope) (name : String) (id : SymbolId) :
    (scope.bind name id).bare = scope.bare := rfl

/-- The scopes of a list, each the child of the one after it and opened later, down to the global
scope. -/
inductive Path (scopes : List Scope) : List ScopeId → Prop where
  | global {scope : Scope} (hget : scopes[0]? = some scope) (hkind : scope.kind = .global)
      (hparent : scope.parent = none) (hlevel : scope.level = 0) : Path scopes [0]
  | block {id parent : ScopeId} {rest : List ScopeId} {scope : Scope} {kind : BlockKind}
      (hget : scopes[id]? = some scope) (hkind : scope.kind = .block kind)
      (hparent : scope.parent = some parent) (hlevel : scope.level = rest.length + 1)
      (hlt : parent < id) (hrest : Path scopes (parent :: rest)) : Path scopes (id :: parent :: rest)

/-- The later list has the scopes of the earlier one, up to bindings, and maybe more. -/
def Arena.Grows (scopes scopes' : List Scope) : Prop :=
  scopes.map Scope.bare <+: scopes'.map Scope.bare

theorem Arena.Grows.get {scopes scopes' : List Scope} (h : Arena.Grows scopes scopes') {id : ScopeId}
    {scope : Scope} (hget : scopes[id]? = some scope) :
    ∃ scope', scopes'[id]? = some scope' ∧ scope'.bare = scope.bare := by
  have hbare : (scopes.map Scope.bare)[id]? = some scope.bare := by simp [hget]
  have hbare' : (scopes'.map Scope.bare)[id]? = some scope.bare := getElem?_of_prefix h hbare
  rw [List.getElem?_map, Option.map_eq_some_iff] at hbare'
  exact hbare'

namespace Path

variable {scopes scopes' : List Scope} {path : List ScopeId}

/-- A path depends on no bindings and not on scopes that are opened later. -/
theorem grows (h : Path scopes path) (hg : Arena.Grows scopes scopes') : Path scopes' path := by
  induction h with
  | global hget hkind hparent hlevel =>
    obtain ⟨scope', hget', hbare⟩ := hg.get hget
    simp only [Scope.bare, Scope.mk.injEq] at hbare
    exact .global hget' (hbare.1.trans hkind) (hbare.2.1.trans hparent) (hbare.2.2.1.trans hlevel)
  | block hget hkind hparent hlevel hlt _ ih =>
    obtain ⟨scope', hget', hbare⟩ := hg.get hget
    simp only [Scope.bare, Scope.mk.injEq] at hbare
    exact .block hget' (hbare.1.trans hkind) (hbare.2.1.trans hparent) (hbare.2.2.1.trans hlevel)
      hlt ih

theorem get {id : ScopeId} {rest : List ScopeId} (h : Path scopes (id :: rest)) :
    ∃ scope, scopes[id]? = some scope := by
  cases h with
  | global hget => exact ⟨_, hget⟩
  | block hget => exact ⟨_, hget⟩

theorem head_lt {id : ScopeId} {rest : List ScopeId} (h : Path scopes (id :: rest)) :
    id < scopes.length := by
  obtain ⟨scope, hget⟩ := h.get
  exact (List.getElem?_eq_some_iff.mp hget).1

/-- The numbers fall along the path. -/
theorem lt_head {id : ScopeId} {rest : List ScopeId} (h : Path scopes (id :: rest)) :
    ∀ other ∈ rest, other < id := by
  generalize hpath : id :: rest = path at h
  induction h generalizing id rest with
  | global => simp_all
  | block _ _ _ _ hlt _ ih =>
    cases hpath
    intro other hmem
    rcases List.mem_cons.mp hmem with rfl | hmem
    · exact hlt
    · exact Nat.lt_trans (ih rfl other hmem) hlt

theorem mem_lt (h : Path scopes path) : ∀ id ∈ path, id < scopes.length := by
  cases path with
  | nil => simp
  | cons head rest =>
    intro id hmem
    rcases List.mem_cons.mp hmem with rfl | hmem
    · exact h.head_lt
    · exact Nat.lt_trans (h.lt_head id hmem) h.head_lt

theorem tail {id parent : ScopeId} {rest : List ScopeId} (h : Path scopes (id :: parent :: rest)) :
    Path scopes (parent :: rest) := by
  cases h with
  | block _ _ _ _ _ hrest => exact hrest

theorem drop {nested : List ScopeId} (n : Nat) (h : Path scopes (nested ++ [0])) :
    Path scopes (nested.drop n ++ [0]) := by
  induction n generalizing nested with
  | zero => exact h
  | succ n ih =>
    cases nested with
    | nil => exact h
    | cons id nested =>
      cases nested with
      | nil => exact @ih [] h.tail
      | cons parent nested => exact ih h.tail

/-- A scope is appended as the child of the innermost open one. -/
theorem snoc {id : ScopeId} {rest : List ScopeId} (h : Path scopes (id :: rest)) (kind : BlockKind) :
    Path (scopes ++ [⟨.block kind, some id, rest.length + 1, []⟩]) (scopes.length :: id :: rest) := by
  have hg : Arena.Grows scopes (scopes ++ [⟨.block kind, some id, rest.length + 1, []⟩]) := by
    simp [Arena.Grows]
  have hget : (scopes ++ [⟨.block kind, some id, rest.length + 1, []⟩])[scopes.length]?
      = some ⟨.block kind, some id, rest.length + 1, []⟩ := by simp
  exact .block hget rfl rfl rfl h.head_lt (h.grows hg)

end Path

namespace SymbolTable

variable {table table' : SymbolTable}

/-! ## The open scopes -/

/-- The scope with number `id`. -/
def scopeAt (scopes : List Scope) (id : ScopeId) : Scope := (scopes[id]?).getD .global

/-- The open scopes with their bindings, innermost first. -/
def frames (table : SymbolTable) : List Scope := table.openScopes.map (scopeAt table.scopes)

theorem openScopes_eq (table : SymbolTable) :
    table.openScopes = table.currentId :: table.openScopes.tail := by
  unfold openScopes currentId
  cases table.nested <;> rfl

theorem length_openScopes (table : SymbolTable) : table.openScopes.length = table.depth := by
  simp [openScopes, depth]

/-- The current scope is the innermost open one. -/
theorem frames_eq (table : SymbolTable) : table.frames = table.current :: table.frames.tail := by
  unfold frames
  rw [openScopes_eq]
  rfl

theorem length_frames (table : SymbolTable) : table.frames.length = table.depth := by
  rw [frames, List.length_map, length_openScopes]

/-- The open scopes form a path, and no binding is of a symbol that does not exist. -/
structure Formed (table : SymbolTable) : Prop where
  path : Path table.scopes table.openScopes
  bound : ∀ scope ∈ table.scopes, ∀ entry ∈ scope.bindings, entry.2 < table.symbols.length

theorem chain_eq {scopes : List Scope} {id : ScopeId} {rest : List ScopeId}
    (h : Path scopes (id :: rest)) {limit : Nat} (hlimit : id < limit) :
    chain scopes limit id = (id :: rest).map (scopeAt scopes) := by
  generalize hpath : id :: rest = path at h
  induction h generalizing id rest limit with
  | global hget _ hparent _ =>
    cases hpath
    cases limit with
    | zero => exact absurd hlimit (Nat.not_lt_zero _)
    | succ limit =>
      simp only [chain, hget, hparent, List.map_cons, List.map_nil, scopeAt, Option.getD_some]
  | block hget _ hparent _ hlt _ ih =>
    cases hpath
    cases limit with
    | zero => exact absurd hlimit (Nat.not_lt_zero _)
    | succ limit =>
      have hparent_lt := Nat.lt_of_lt_of_le hlt (Nat.le_of_lt_succ hlimit)
      simp only [chain, hget, hparent]
      rw [ih hparent_lt rfl, List.map_cons, List.map_cons, List.map_cons]
      simp only [scopeAt, hget, Option.getD_some]

/-- The walk along the parents meets the open scopes. -/
theorem visible_eq_frames (h : table.Formed) : table.visible = table.frames := by
  have hpath := h.path
  rw [openScopes_eq] at hpath
  unfold visible frames
  rw [chain_eq hpath (Nat.lt_succ_self _), ← openScopes_eq]

theorem frame_bound (h : table.Formed) {scope : Scope} (hmem : scope ∈ table.frames) :
    ∀ entry ∈ scope.bindings, entry.2 < table.symbols.length := by
  obtain ⟨id, hid, rfl⟩ := List.mem_map.mp hmem
  have hlt := h.path.mem_lt id hid
  refine h.bound _ ?_
  rw [scopeAt, List.getElem?_eq_getElem hlt, Option.getD_some]
  exact List.getElem_mem hlt

theorem lt_of_binding? (h : table.Formed) {name : String} {id : SymbolId} {level : Nat}
    (hbinding : table.binding? name = some (id, level)) : id < table.symbols.length := by
  rw [binding?, visible_eq_frames h] at hbinding
  obtain ⟨scope, hmem, hfound⟩ := List.exists_of_findSome?_eq_some hbinding
  simp only [Scope.find?, Option.map_map, Option.map_eq_some_iff, Function.comp_apply,
    Prod.mk.injEq] at hfound
  obtain ⟨entry, hentry, rfl, -⟩ := hfound
  exact frame_bound h hmem entry (List.mem_of_find?_eq_some hentry)

/-- A name that is looked up is bound to a symbol of the table. -/
theorem lookup_eq_ok_iff {name : String} {record : SymbolRecord} :
    table.lookup name = .ok record
      ↔ table.binding? name = some (record.id, record.level)
        ∧ table.symbols[record.id]? = some record.symbol := by
  constructor
  · intro h
    unfold lookup at h
    split at h
    · cases h
    · next hbinding =>
      split at h
      · cases h
      · next hget =>
        cases h
        exact ⟨hbinding, hget⟩
  · rintro ⟨hbinding, hget⟩
    simp only [lookup, hbinding, hget]

/-! ## What the operations leave as it was -/

/-- A later table of the same analysis: nothing is removed, and no symbol and no scope changes but
for new bindings. -/
structure Grows (table table' : SymbolTable) : Prop where
  dialect : table'.dialect = table.dialect
  symbols : table.symbols <+: table'.symbols
  scopes : Arena.Grows table.scopes table'.scopes

theorem Grows.refl (table : SymbolTable) : Grows table table :=
  ⟨rfl, List.prefix_rfl, List.prefix_rfl⟩

theorem Grows.trans {table₁ table₂ table₃ : SymbolTable} (h : Grows table₁ table₂)
    (h' : Grows table₂ table₃) : Grows table₁ table₃ :=
  ⟨h'.dialect.trans h.dialect, h.symbols.trans h'.symbols, List.IsPrefix.trans h.scopes h'.scopes⟩

theorem Grows.getElem? (h : Grows table table') {id : SymbolId} {symbol : Symbol}
    (hget : table.symbols[id]? = some symbol) : table'.symbols[id]? = some symbol :=
  getElem?_of_prefix h.symbols hget

theorem Grows.enter (kind : BlockKind) (table : SymbolTable) : Grows table (table.enter kind) :=
  ⟨rfl, List.prefix_rfl, by simp [Arena.Grows, SymbolTable.enter]⟩

theorem Grows.closeTo (depth : Nat) (table : SymbolTable) : Grows table (table.closeTo depth) :=
  ⟨rfl, List.prefix_rfl, List.prefix_rfl⟩

theorem Grows.isLoop (h : Grows table table') {id : ScopeId} (hid : id < table.scopes.length) :
    (scopeAt table'.scopes id).isLoop = (scopeAt table.scopes id).isLoop := by
  obtain ⟨scope, hget, hbare⟩ := h.scopes.get (List.getElem?_eq_getElem hid)
  simp only [Scope.bare, Scope.mk.injEq] at hbare
  rw [scopeAt, hget, scopeAt, List.getElem?_eq_getElem hid, Option.getD_some, Option.getD_some,
    Scope.isLoop, Scope.isLoop, hbare.1]

theorem inLoop_eq_any (table : SymbolTable) : table.inLoop = table.frames.any (·.isLoop) := by
  unfold inLoop frames
  rw [List.any_map]
  congr 1
  funext id
  cases h : table.scopes[id]? with
  | none => simp [scopeAt, h, Scope.isLoop, Scope.global]
  | some scope => simp [scopeAt, h]

/-- Scopes that stay open keep their kinds, so they are inside of a loop or not as before. -/
theorem Grows.inLoop (h : Grows table table') (hformed : table.Formed)
    (hnested : table'.nested = table.nested) : table'.inLoop = table.inLoop := by
  have hopen : table'.openScopes = table.openScopes := by rw [openScopes, hnested, openScopes]
  have hloops : table'.frames.map Scope.isLoop = table.frames.map Scope.isLoop := by
    unfold frames
    rw [hopen, List.map_map, List.map_map]
    exact List.map_congr_left fun id hmem => h.isLoop (hformed.path.mem_lt id hmem)
  have hany := congrArg (List.any · id) hloops
  simpa only [List.any_map, Function.id_comp, ← inLoop_eq_any] using hany

/-! ## Opening and closing -/

theorem formed_new (dialect : Dialect) : (new dialect).Formed where
  path := .global rfl rfl rfl rfl
  bound := by simp [new, Scope.global]

theorem Formed.enter (h : table.Formed) (kind : BlockKind) : (table.enter kind).Formed where
  path := by
    have hpath := h.path
    rw [openScopes_eq] at hpath
    have hlevel : table.openScopes.tail.length + 1 = table.depth := by
      rw [← length_openScopes, openScopes_eq, List.tail_cons, List.length_cons]
    have := hpath.snoc kind
    rw [hlevel, ← openScopes_eq] at this
    exact this
  bound := by
    intro scope hmem entry hentry
    rcases List.mem_append.mp hmem with hmem | hmem
    · exact h.bound scope hmem entry hentry
    · rw [List.mem_singleton.mp hmem] at hentry
      simp at hentry

theorem Formed.closeTo (h : table.Formed) (depth : Nat) : (table.closeTo depth).Formed where
  path := h.path.drop _
  bound := h.bound

/-- A new scope is empty, and the others stay open around it. -/
theorem frames_enter (h : table.Formed) (kind : BlockKind) :
    (table.enter kind).frames
      = ⟨.block kind, some table.currentId, table.depth, []⟩ :: table.frames := by
  have hold : ∀ id ∈ table.openScopes,
      scopeAt (table.enter kind).scopes id = scopeAt table.scopes id := by
    intro id hmem
    have hlt := h.path.mem_lt id hmem
    simp [scopeAt, SymbolTable.enter, List.getElem?_append_left hlt]
  unfold frames
  rw [← List.map_congr_left hold]
  simp [openScopes, SymbolTable.enter, scopeAt]

theorem inLoop_enter (h : table.Formed) (kind : BlockKind) :
    (table.enter kind).inLoop = (decide (kind = .loop) || table.inLoop) := by
  rw [inLoop_eq_any, frames_enter h, List.any_cons, ← inLoop_eq_any]
  simp [Scope.isLoop]

theorem frames_closeTo (depth : Nat) (table : SymbolTable) :
    (table.closeTo depth).frames = table.frames.drop (table.nested.length - (depth - 1)) := by
  simp [frames, openScopes, closeTo, List.map_drop, List.drop_append]

/-! ## Declaring -/

/-- The table after `symbol` has been bound in the current scope. -/
def bindCurrent (symbol : Symbol) (table : SymbolTable) : SymbolTable :=
  { table with
    scopes := table.scopes.modify table.currentId (·.bind symbol.name table.symbols.length)
    symbols := table.symbols ++ [symbol] }

theorem declare_of_binds {symbol : Symbol} (h : table.current.binds symbol.name = true) :
    table.declare symbol = .error .alreadyBound := by
  rw [declare, if_pos h]

theorem declare_of_not_binds {symbol : Symbol} (h : table.current.binds symbol.name = false) :
    table.declare symbol = .ok (table.symbols.length, table.bindCurrent symbol) := by
  rw [declare, if_neg (by simp [h])]
  rfl

theorem getElem?_bindCurrent (symbol : Symbol) (table : SymbolTable) (id : ScopeId) :
    (table.bindCurrent symbol).scopes[id]? = (table.scopes[id]?).map fun scope =>
      if table.currentId = id then scope.bind symbol.name table.symbols.length else scope := by
  simp only [bindCurrent, List.getElem?_modify]
  rfl

theorem Grows.bindCurrent (symbol : Symbol) (table : SymbolTable) :
    Grows table (table.bindCurrent symbol) where
  dialect := rfl
  symbols := List.prefix_append ..
  scopes := by
    have hbare : (table.bindCurrent symbol).scopes.map Scope.bare = table.scopes.map Scope.bare := by
      refine List.ext_getElem? fun id => ?_
      rw [List.getElem?_map, List.getElem?_map, getElem?_bindCurrent, Option.map_map]
      congr 1
      funext scope
      by_cases h : table.currentId = id <;> simp [h]
    simp only [Arena.Grows, hbare, List.prefix_rfl]

theorem Formed.bindCurrent (h : table.Formed) (symbol : Symbol) :
    (table.bindCurrent symbol).Formed where
  path := h.path.grows (Grows.bindCurrent symbol table).scopes
  bound := by
    intro scope hmem entry hentry
    obtain ⟨id, hid⟩ := List.mem_iff_getElem?.mp hmem
    rw [getElem?_bindCurrent, Option.map_eq_some_iff] at hid
    obtain ⟨old, hold, rfl⟩ := hid
    have hbound := h.bound old (List.mem_of_getElem? hold)
    have hlength : (table.bindCurrent symbol).symbols.length = table.symbols.length + 1 := by
      simp [SymbolTable.bindCurrent]
    rw [hlength]
    split at hentry
    · rcases List.mem_append.mp hentry with hentry | hentry
      · exact Nat.lt_succ_of_lt (hbound entry hentry)
      · rw [List.mem_singleton.mp hentry]
        exact Nat.lt_succ_self _
    · exact Nat.lt_succ_of_lt (hbound entry hentry)

/-- Only the innermost open scope gets the binding. -/
theorem frames_bindCurrent (h : table.Formed) (symbol : Symbol) :
    (table.bindCurrent symbol).frames
      = table.current.bind symbol.name table.symbols.length :: table.frames.tail := by
  have hpath := h.path
  rw [openScopes_eq] at hpath
  obtain ⟨scope, hget⟩ := hpath.get
  have hcurrent : scopeAt (table.bindCurrent symbol).scopes table.currentId
      = table.current.bind symbol.name table.symbols.length := by
    simp [scopeAt, getElem?_bindCurrent, current, hget]
  have htail : ∀ id ∈ table.openScopes.tail,
      scopeAt (table.bindCurrent symbol).scopes id = scopeAt table.scopes id := by
    intro id hmem
    have hne : table.currentId ≠ id := (Nat.ne_of_lt (hpath.lt_head id hmem)).symm
    simp [scopeAt, getElem?_bindCurrent, hne]
  have hopen : (table.bindCurrent symbol).openScopes = table.openScopes := rfl
  unfold frames
  rw [hopen, openScopes_eq, List.map_cons, List.map_cons, List.tail_cons, hcurrent,
    List.map_congr_left htail]

end SymbolTable

end Cqasm
