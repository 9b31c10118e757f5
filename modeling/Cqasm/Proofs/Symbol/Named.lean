import Cqasm.Proofs.Symbol.Arena

/-!
# Names are kept letter by letter

A binding is of a symbol with the very name that is bound (`Named`), so a lookup finds nothing but a
symbol of that name (`name_of_lookup`). Declaring a name leaves every other one as it is, however
alike the two are (`lookup_bindCurrent_of_ne`).
-/

namespace Cqasm.SymbolTable

variable {table : SymbolTable}

/-- Every name, in an open or a closed scope, is bound to a symbol of this name. -/
def Named (table : SymbolTable) : Prop :=
  ∀ scope ∈ table.scopes, ∀ entry ∈ scope.bindings,
    ∃ symbol, table.symbols[entry.2]? = some symbol ∧ symbol.name = entry.1

theorem named_new (dialect : Dialect) : (new dialect).Named := by
  simp [Named, new, Scope.global]

theorem Named.enter (h : table.Named) (kind : BlockKind) : (table.enter kind).Named := by
  intro scope hmem entry hentry
  rcases List.mem_append.mp hmem with hmem | hmem
  · exact h scope hmem entry hentry
  · rw [List.mem_singleton.mp hmem] at hentry
    exact absurd hentry List.not_mem_nil

theorem Named.closeTo (h : table.Named) (depth : Nat) : (table.closeTo depth).Named := h

theorem Named.bindCurrent (h : table.Named) (symbol : Symbol) : (table.bindCurrent symbol).Named := by
  intro scope hmem entry hentry
  have hgrows := Grows.bindCurrent symbol table
  obtain ⟨id, hid⟩ := List.mem_iff_getElem?.mp hmem
  rw [getElem?_bindCurrent, Option.map_eq_some_iff] at hid
  obtain ⟨old, hold, rfl⟩ := hid
  have hnamed := h old (List.mem_of_getElem? hold)
  split at hentry
  · rcases List.mem_append.mp hentry with hentry | hentry
    · obtain ⟨found, hget, hname⟩ := hnamed entry hentry
      exact ⟨found, hgrows.getElem? hget, hname⟩
    · rw [List.mem_singleton.mp hentry]
      exact ⟨symbol, List.getElem?_concat_length, rfl⟩
  · obtain ⟨found, hget, hname⟩ := hnamed entry hentry
    exact ⟨found, hgrows.getElem? hget, hname⟩

theorem mem_of_mem_chain {scopes : List Scope} {limit : Nat} {id : ScopeId} {scope : Scope}
    (h : scope ∈ chain scopes limit id) : scope ∈ scopes := by
  induction limit generalizing id with
  | zero => exact absurd h List.not_mem_nil
  | succ limit ih =>
    rw [chain] at h
    split at h
    · exact absurd h List.not_mem_nil
    · next found hget =>
      split at h
      · rw [List.mem_singleton.mp h]
        exact List.mem_of_getElem? hget
      · rcases List.mem_cons.mp h with rfl | h
        · exact List.mem_of_getElem? hget
        · exact ih h

/-- What is found has the name that is looked up. -/
theorem name_of_lookup (h : table.Named) {name : String} {record : SymbolRecord}
    (hlookup : table.lookup name = .ok record) : record.symbol.name = name := by
  obtain ⟨hbinding, hget⟩ := lookup_eq_ok_iff.mp hlookup
  obtain ⟨scope, hscope, hfound⟩ := List.exists_of_findSome?_eq_some hbinding
  simp only [Scope.find?, Option.map_map, Option.map_eq_some_iff, Function.comp_apply,
    Prod.mk.injEq] at hfound
  obtain ⟨entry, hentry, hid, -⟩ := hfound
  have hname := List.find?_some hentry
  obtain ⟨symbol, hsymbol, hsame⟩ := h scope (mem_of_mem_chain hscope) entry
    (List.mem_of_find?_eq_some hentry)
  rw [hid, hget] at hsymbol
  cases hsymbol
  exact hsame.trans (of_decide_eq_true hname)

/-! ## Other names -/

variable {symbol : Symbol} {name : String}

theorem find?_bind_of_ne (scope : Scope) (id : SymbolId) (h : name ≠ symbol.name) :
    (scope.bind symbol.name id).find? name = scope.find? name := by
  rw [Scope.find?_bind, if_neg (Ne.symm h), Option.or_none]

/-- Whether another name is bound in the current scope does not change. -/
theorem binds_bindCurrent_of_ne (hformed : table.Formed) (h : name ≠ symbol.name) :
    (table.bindCurrent symbol).current.binds name = table.current.binds name := by
  have hcurrent := frames_bindCurrent hformed symbol
  rw [frames_eq] at hcurrent
  rw [(List.cons.inj hcurrent).1, Scope.binds, Scope.binds, find?_bind_of_ne _ _ h]

theorem binding?_bindCurrent_of_ne (hformed : table.Formed) (h : name ≠ symbol.name) :
    (table.bindCurrent symbol).binding? name = table.binding? name := by
  unfold binding?
  rw [visible_eq_frames (hformed.bindCurrent symbol), frames_bindCurrent hformed,
    visible_eq_frames hformed, frames_eq table, List.findSome?_cons, List.findSome?_cons,
    find?_bind_of_ne _ _ h]
  rfl

/-- What another name stands for does not change. -/
theorem lookup_bindCurrent_of_ne (hformed : table.Formed) (h : name ≠ symbol.name) :
    (table.bindCurrent symbol).lookup name = table.lookup name := by
  unfold lookup
  rw [binding?_bindCurrent_of_ne hformed h]
  cases hbinding : table.binding? name with
  | none => rfl
  | some found =>
    obtain ⟨id, level⟩ := found
    have hget : (table.bindCurrent symbol).symbols[id]? = table.symbols[id]? :=
      List.getElem?_append_left (lt_of_binding? hformed hbinding)
    simp only [hget]

end Cqasm.SymbolTable
