import Cqasm.Proofs.Symbol.Named
import Mathlib.Data.List.Nodup

/-!
# All scopes of a table

What holds of the open scopes of a table and of those that have been closed: each but the first
belongs to a block and was opened inside of one that was opened before it, and all of them together
bind the number of each symbol once (`Regular`). Every operation keeps it.

* `Scope.OpenedAs` : what the number of a scope tells about it;
* `SymbolTable.boundIds` : the symbols that are bound in any scope;
* `SymbolTable.Regular` : what every table is like.
-/

namespace Cqasm

/-- The scope can have this number: the global one is the first, and every other is opened inside of one
that has been opened before. -/
structure Scope.OpenedAs (id : ScopeId) (scope : Scope) : Prop where
  global_iff : scope.kind = .global ↔ id = 0
  parent_lt : ∀ parent, scope.parent = some parent → parent < id

theorem Scope.OpenedAs.of_bare {id : ScopeId} {scope scope' : Scope} (h : scope.OpenedAs id)
    (hbare : scope'.bare = scope.bare) : scope'.OpenedAs id := by
  simp only [Scope.bare, Scope.mk.injEq] at hbare
  exact ⟨hbare.1 ▸ h.global_iff, hbare.2.1 ▸ h.parent_lt⟩

namespace SymbolTable

variable {table : SymbolTable}

/-- The numbers of symbols that the scopes bind. -/
def boundIds (scopes : List Scope) : List SymbolId :=
  scopes.flatMap fun scope => scope.bindings.map Prod.snd

/-- The open scopes are a path, and all scopes together bind each symbol once, under its name. -/
structure Regular (table : SymbolTable) : Prop where
  formed : table.Formed
  named : table.Named
  opened : ∀ id, ∀ scope : Scope, table.scopes[id]? = some scope → scope.OpenedAs id
  bound : (boundIds table.scopes).Perm (List.range table.symbols.length)

theorem lt_currentId (h : table.Formed) : table.currentId < table.scopes.length := by
  refine h.path.mem_lt _ ?_
  rw [openScopes_eq]
  exact List.mem_cons_self

/-- One more binding adds its symbol to those that are bound. -/
theorem boundIds_modify {scopes : List Scope} {id : ScopeId} (hlt : id < scopes.length)
    (name : String) (symbol : SymbolId) :
    (boundIds (scopes.modify id (·.bind name symbol))).Perm (boundIds scopes ++ [symbol]) := by
  induction scopes generalizing id with
  | nil => exact absurd hlt (Nat.not_lt_zero id)
  | cons scope scopes ih =>
    cases id with
    | zero =>
      rw [List.modify_zero_cons, boundIds, List.flatMap_cons, boundIds, List.flatMap_cons,
        Scope.bind, List.map_append, List.append_assoc, List.append_assoc]
      exact List.perm_append_comm.append_left _
    | succ id =>
      rw [List.modify_succ_cons, boundIds, List.flatMap_cons, boundIds, List.flatMap_cons,
        List.append_assoc]
      exact (ih (Nat.lt_of_succ_lt_succ hlt)).append_left _

theorem mem_boundIds {scopes : List Scope} {symbol : SymbolId} :
    symbol ∈ boundIds scopes
      ↔ ∃ (id : ScopeId) (scope : Scope), scopes[id]? = some scope
        ∧ symbol ∈ scope.bindings.map Prod.snd := by
  rw [boundIds, List.mem_flatMap]
  constructor
  · rintro ⟨scope, hscope, hbound⟩
    obtain ⟨id, hget⟩ := List.mem_iff_getElem?.mp hscope
    exact ⟨id, scope, hget, hbound⟩
  · rintro ⟨id, scope, hget, hbound⟩
    exact ⟨scope, List.mem_of_getElem? hget, hbound⟩

/-- A symbol that is bound once is bound in one scope. -/
theorem eq_of_boundIds_nodup {scopes : List Scope} (h : (boundIds scopes).Nodup) {id id' : ScopeId}
    {scope scope' : Scope} (hget : scopes[id]? = some scope) (hget' : scopes[id']? = some scope')
    {symbol : SymbolId} (hbound : symbol ∈ scope.bindings.map Prod.snd)
    (hbound' : symbol ∈ scope'.bindings.map Prod.snd) : id = id' := by
  have hdisjoint := List.pairwise_iff_getElem.mp (List.nodup_flatMap.mp h).2
  obtain ⟨hlt, rfl⟩ := List.getElem?_eq_some_iff.mp hget
  obtain ⟨hlt', rfl⟩ := List.getElem?_eq_some_iff.mp hget'
  rcases Nat.lt_trichotomy id id' with hless | heq | hgreater
  · exact absurd hbound' (hdisjoint id id' hlt hlt' hless hbound)
  · exact heq
  · exact absurd hbound (hdisjoint id' id hlt' hlt hgreater hbound')

namespace Regular

theorem new (dialect : Dialect) : (new dialect).Regular where
  formed := formed_new dialect
  named := named_new dialect
  opened id scope hget := by
    cases id with
    | zero =>
      cases hget
      exact ⟨iff_of_true rfl rfl, fun _ h => by cases h⟩
    | succ id => cases hget
  bound := .nil

theorem enter (h : table.Regular) (kind : BlockKind) : (table.enter kind).Regular where
  formed := h.formed.enter kind
  named := h.named.enter kind
  opened id scope hget := by
    have hlt := lt_currentId h.formed
    rcases Nat.lt_trichotomy id table.scopes.length with hold | rfl | hbeyond
    · rw [SymbolTable.enter, List.getElem?_append_left hold] at hget
      exact h.opened id scope hget
    · rw [SymbolTable.enter, List.getElem?_concat_length] at hget
      cases hget
      refine ⟨iff_of_false (fun h => by cases h) (Nat.ne_of_gt (Nat.zero_lt_of_lt hlt)), ?_⟩
      rintro parent ⟨⟩
      exact hlt
    · rw [SymbolTable.enter, List.getElem?_eq_none (by simpa [Nat.succ_le_iff] using hbeyond)] at hget
      cases hget
  bound := by
    have hscopes : boundIds (table.enter kind).scopes = boundIds table.scopes := by
      simp [boundIds, SymbolTable.enter]
    rw [hscopes]
    exact h.bound

theorem closeTo (h : table.Regular) (depth : Nat) : (table.closeTo depth).Regular where
  formed := h.formed.closeTo depth
  named := h.named.closeTo depth
  opened := h.opened
  bound := h.bound

theorem bindCurrent (h : table.Regular) (symbol : Symbol) : (table.bindCurrent symbol).Regular where
  formed := h.formed.bindCurrent symbol
  named := h.named.bindCurrent symbol
  opened id scope hget := by
    rw [getElem?_bindCurrent, Option.map_eq_some_iff] at hget
    obtain ⟨old, hold, rfl⟩ := hget
    refine (h.opened id old hold).of_bare ?_
    split
    · exact Scope.bare_bind old symbol.name table.symbols.length
    · rfl
  bound := by
    have hbind := boundIds_modify (lt_currentId h.formed) symbol.name table.symbols.length
    refine hbind.trans ?_
    rw [SymbolTable.bindCurrent, List.length_append, List.length_singleton, List.range_succ]
    exact h.bound.append_right _

end Regular

end SymbolTable

end Cqasm
