import Cqasm.Proofs.Symbol.Arena
import Mathlib.Logic.Function.Basic

/-!
# Renaming what operands are called

A symbol table compares the names that it binds and does nothing else with them. Under a renaming
that keeps different names apart it therefore goes on as before: scopes are opened and closed,
symbols are declared and names are found in the renamed table just where they were.

* `Renaming` : a renaming of operands;
* `Scope.rename`, `SymbolTable.rename` : scopes and tables under a renaming;
* `SymbolTable.lookup_rename`, `SymbolTable.bindCurrent_rename` : looking up and declaring.
-/

namespace Cqasm

/-- A renaming of operands. Different names stay different, and the registers of a program keep the
names that they have without being named. -/
structure Renaming where
  toFun : String → String
  injective : Function.Injective toFun
  qubits : toFun "q" = "q"
  bits : toFun "b" = "b"

namespace Renaming

instance : CoeFun Renaming fun _ => String → String := ⟨toFun⟩

variable (f : Renaming)

theorem eq_iff {name other : String} : f name = f other ↔ name = other := f.injective.eq_iff

end Renaming

/-- The symbol under its new name. -/
def Symbol.rename (f : Renaming) (symbol : Symbol) : Symbol :=
  { symbol with name := f symbol.name }

/-- The record of the symbol under its new name. -/
def SymbolRecord.rename (f : Renaming) (record : SymbolRecord) : SymbolRecord :=
  { record with symbol := record.symbol.rename f }

namespace Scope

/-- The scope with its bindings under their new names. -/
def rename (f : Renaming) (scope : Scope) : Scope :=
  { scope with bindings := scope.bindings.map fun entry => (f entry.1, entry.2) }

variable (f : Renaming) (scope : Scope)

/-- No name is mistaken for another one, so the new name finds what the old one found. -/
theorem find?_rename (name : String) : (scope.rename f).find? (f name) = scope.find? name := by
  have hname : ((fun entry => decide (entry.1 = f name)) ∘ fun entry : String × SymbolId =>
      (f entry.1, entry.2)) = fun entry => decide (entry.1 = name) := by
    funext entry
    exact decide_eq_decide.mpr f.eq_iff
  rw [find?, rename, List.find?_map, hname, Option.map_map, find?]
  rfl

theorem binds_rename (name : String) : (scope.rename f).binds (f name) = scope.binds name := by
  rw [binds, find?_rename, binds]

theorem bind_rename (name : String) (id : SymbolId) :
    (scope.bind name id).rename f = (scope.rename f).bind (f name) id := by
  simp [bind, rename]

end Scope

namespace SymbolTable

/-- The table with all names replaced by their new ones. -/
def rename (f : Renaming) (table : SymbolTable) : SymbolTable :=
  { table with
    scopes := table.scopes.map (Scope.rename f)
    symbols := table.symbols.map (Symbol.rename f) }

variable (f : Renaming) (table : SymbolTable)

theorem getElem?_rename (id : ScopeId) :
    (table.rename f).scopes[id]? = (table.scopes[id]?).map (Scope.rename f) := List.getElem?_map

/-! ## Opening and closing -/

theorem enter_rename (kind : BlockKind) :
    (table.enter kind).rename f = (table.rename f).enter kind := by
  simp [enter, rename, currentId, depth, Scope.rename]

theorem inLoop_rename : (table.rename f).inLoop = table.inLoop := by
  have hloop : (fun id : ScopeId => ((table.rename f).scopes[id]?).any Scope.isLoop)
      = fun id : ScopeId => (table.scopes[id]?).any Scope.isLoop := by
    funext id
    rw [getElem?_rename, Option.any_map]
    rfl
  exact congrArg table.openScopes.any hloop

/-! ## Declaring -/

theorem current_rename : (table.rename f).current = table.current.rename f := by
  unfold current
  rw [getElem?_rename]
  show ((table.scopes[table.currentId]?).map (Scope.rename f)).getD (Scope.global.rename f) = _
  rw [Option.getD_map]

theorem binds_current_rename (name : String) :
    (table.rename f).current.binds (f name) = table.current.binds name := by
  rw [current_rename, Scope.binds_rename]

theorem bindCurrent_rename (symbol : Symbol) :
    (table.bindCurrent symbol).rename f = (table.rename f).bindCurrent (symbol.rename f) := by
  have hscopes : ((table.bindCurrent symbol).rename f).scopes
      = ((table.rename f).bindCurrent (symbol.rename f)).scopes := by
    refine List.ext_getElem? fun id => ?_
    rw [getElem?_rename, getElem?_bindCurrent, getElem?_bindCurrent, getElem?_rename,
      Option.map_map, Option.map_map]
    congr 1
    funext scope
    have hlength : (table.rename f).symbols.length = table.symbols.length := List.length_map ..
    have hcurrent : (table.rename f).currentId = table.currentId := rfl
    simp only [Function.comp, hlength, hcurrent]
    by_cases h : table.currentId = id
    · rw [if_pos h, if_pos h, Scope.bind_rename]
      rfl
    · rw [if_neg h, if_neg h]
  have hsymbols : ((table.bindCurrent symbol).rename f).symbols
      = ((table.rename f).bindCurrent (symbol.rename f)).symbols := by
    simp [bindCurrent, rename]
  exact (SymbolTable.mk.injEq ..).mpr ⟨rfl, hscopes, rfl, hsymbols⟩

/-! ## Looking up -/

theorem chain_rename (scopes : List Scope) (limit : Nat) (id : ScopeId) :
    chain (scopes.map (Scope.rename f)) limit id = (chain scopes limit id).map (Scope.rename f) := by
  induction limit generalizing id with
  | zero => rfl
  | succ limit ih =>
    rw [chain, chain, List.getElem?_map]
    cases scopes[id]? with
    | none => rfl
    | some scope =>
      have hparent : (scope.rename f).parent = scope.parent := rfl
      simp only [Option.map_some, hparent]
      cases scope.parent with
      | none => rfl
      | some parent => simp only [ih, List.map_cons]

theorem binding?_rename (name : String) :
    (table.rename f).binding? (f name) = table.binding? name := by
  have hvisible : (table.rename f).visible = table.visible.map (Scope.rename f) :=
    chain_rename f table.scopes (table.currentId + 1) table.currentId
  have hfind : (fun scope : Scope => (scope.find? (f name)).map (·, scope.level)) ∘ Scope.rename f
      = fun scope => (scope.find? name).map (·, scope.level) := by
    funext scope
    show ((scope.rename f).find? (f name)).map (·, scope.level) = _
    rw [Scope.find?_rename]
  rw [binding?, hvisible, List.findSome?_map, hfind, binding?]

/-- The new name refers to what the old one referred to. -/
theorem lookup_rename (name : String) :
    (table.rename f).lookup (f name) = (table.lookup name).map (SymbolRecord.rename f) := by
  have hsymbol : ∀ id : SymbolId,
      (table.rename f).symbols[id]? = (table.symbols[id]?).map (Symbol.rename f) :=
    fun _ => List.getElem?_map
  unfold lookup
  rw [binding?_rename]
  cases table.binding? name with
  | none => rfl
  | some found =>
    obtain ⟨id, level⟩ := found
    simp only [hsymbol]
    cases table.symbols[id]? with
    | none => rfl
    | some symbol => rfl

end SymbolTable

end Cqasm
