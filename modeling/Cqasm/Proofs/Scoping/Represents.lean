import Cqasm.Proofs.Analysis.Causes
import Cqasm.Proofs.Analysis.Environment
import Cqasm.Proofs.Scoping.Resolver

/-!
# Symbol tables and frames

The analysis resolves names through the arena of scopes, lexical scoping through frames that are
handed down. A symbol table stands for the frames of the blocks around a statement and the bindings
of its block if the open scopes bind what the frames bind. Then lookups and declarations give the
same, and opening and closing scopes keep it.

* `Diagnostics.undeclared` : the identifiers that a log reports;
* `Represents` : the relation between tables and frames;
* `Agrees` : a step of the analysis and the resolver find the same.
-/

namespace Cqasm

/-! ## Reported identifiers -/

namespace Diagnostics

/-- The identifier that the diagnostic reports as undeclared. -/
def undeclaredIn (d : Diagnostic) : Option Tree.Ident :=
  match d.cause with
  | .undeclaredIdentifier name => some ⟨name, d.loc⟩
  | _ => none

/-- The identifiers that are reported as undeclared, in order. -/
def undeclared (log : Diagnostics) : List Tree.Ident := log.filterMap undeclaredIn

theorem undeclared_append (log log' : Diagnostics) :
    undeclared (log ++ log') = undeclared log ++ undeclared log' := List.filterMap_append ..

/-- Checks that are not lookups report no identifier. -/
theorem undeclared_of_causes {α : Type} {x : Logged α}
    (h : x.Causes fun cause => ∀ name, cause ≠ .undeclaredIdentifier name) :
    undeclared x.log = [] := by
  refine List.filterMap_eq_nil_iff.mpr fun d hmem => ?_
  unfold undeclaredIn
  split
  · next name heq => exact absurd heq (h d hmem name)
  · rfl

end Diagnostics

namespace Scoping

open Diagnostics (undeclared undeclared_of_causes)

variable {table : SymbolTable} {env : Env} {outer : List Frame} {bindings : Bindings}

theorem unbound_append (frames : List Frame) (idents idents' : List Tree.Ident) :
    unbound frames (idents ++ idents') = unbound frames idents ++ unbound frames idents' :=
  List.filter_append ..

/-! ## Tables and frames -/

/-- The scope binds what the frame binds. -/
def Binds (scope : Scope) (frame : Frame) : Prop := ∀ name, scope.find? name = frame.lookup name

theorem binds_empty {scope : Scope} (h : scope.bindings = []) : Binds scope ∅ := by
  intro name
  rw [Scope.find?, h, Finmap.lookup_empty]
  rfl

/-- The open scopes of the table bind what the frame of the current block and the frames of the
blocks around it bind, and symbols are numbered alike. -/
structure Represents (table : SymbolTable) (outer : List Frame) (bindings : Bindings) : Prop where
  formed : table.Formed
  next : table.symbols.length = bindings.next
  frames : List.Forall₂ Binds table.frames (bindings.frame :: outer)

theorem represents_new (dialect : Dialect) : Represents (.new dialect) [] ⟨∅, 0⟩ where
  formed := SymbolTable.formed_new dialect
  next := rfl
  frames := .cons (binds_empty rfl) .nil

/-- The innermost scope with the name binds it to the symbol of the innermost frame. -/
theorem findSome?_frames {scopes : List Scope} {frames : List Frame}
    (h : List.Forall₂ Binds scopes frames) (name : String) :
    (scopes.findSome? fun scope => (scope.find? name).map (·, scope.level)).map (·.1)
      = frames.findSome? (·.lookup name) := by
  induction h with
  | nil => rfl
  | @cons scope frame scopes frames hbinds _ ih =>
    rw [List.findSome?_cons, List.findSome?_cons, ← hbinds name]
    cases scope.find? name with
    | none => exact ih
    | some id => rfl

theorem map_binding? (h : Represents table outer bindings) (name : String) :
    (table.binding? name).map (·.1) = (bindings.frame :: outer).findSome? (·.lookup name) := by
  rw [SymbolTable.binding?, SymbolTable.visible_eq_frames h.formed]
  exact findSome?_frames h.frames name

theorem unbound_singleton (frames : List Frame) (ident : Tree.Ident) :
    unbound frames [ident]
      = if frames.findSome? (·.lookup ident.name) = none then [ident] else [] := by
  simp [unbound, List.filter_cons, List.findSome?_eq_none_iff]

/-- A reference is looked up as lexical scoping has it, and reported if there is no binding. -/
theorem resolveName_eq (h : Represents table outer bindings) (name : String) (loc : Location) :
    (table.resolveName name loc).value.1 = reference (bindings.frame :: outer) name
      ∧ undeclared (table.resolveName name loc).log
        = unbound (bindings.frame :: outer) [⟨name, loc⟩] := by
  have hfound := map_binding? h name
  cases hbinding : table.binding? name with
  | none =>
    rw [hbinding, Option.map_none] at hfound
    have hlookup : table.lookup name = .error .missingBinding := by
      rw [SymbolTable.lookup, hbinding]
    unfold SymbolTable.resolveName
    rw [hlookup, reference, unbound_singleton, ← hfound, if_pos rfl]
    exact ⟨rfl, rfl⟩
  | some binding =>
    obtain ⟨id, level⟩ := binding
    rw [hbinding, Option.map_some] at hfound
    have hid := SymbolTable.lt_of_binding? h.formed hbinding
    have hlookup : table.lookup name = .ok ⟨table.symbols[id], id, level⟩ :=
      SymbolTable.lookup_eq_ok_iff.mpr ⟨hbinding, List.getElem?_eq_getElem hid⟩
    unfold SymbolTable.resolveName
    rw [hlookup, reference, unbound_singleton, ← hfound, if_neg (Option.some_ne_none id)]
    exact ⟨rfl, rfl⟩

theorem Represents.enter (h : Represents env.table outer bindings) (kind : BlockKind) :
    Represents (env.enter kind).table (bindings.frame :: outer) bindings.block where
  formed := h.formed.enter kind
  next := h.next
  frames := by
    rw [Env.enter, SymbolTable.frames_enter h.formed]
    exact .cons (binds_empty rfl) h.frames

/-- The end of a block closes its scope and no other. -/
theorem Represents.leave {env' : Env} {inner : Bindings}
    (h : Represents env.table outer bindings)
    (h' : Represents env'.table (bindings.frame :: outer) inner) :
    Represents (env.leave env').table outer (bindings.leave inner) where
  formed := h'.formed.closeTo _
  next := h'.next
  frames := by
    have hlength := h.frames.length_eq
    have hlength' := h'.frames.length_eq
    rw [SymbolTable.length_frames, SymbolTable.depth, List.length_cons] at hlength hlength'
    have hdrop : env'.table.nested.length - (env.table.depth - 1) = 1 := by
      rw [List.length_cons] at hlength'
      rw [SymbolTable.depth]
      omega
    rw [Env.leave, SymbolTable.frames_closeTo, hdrop]
    have hframes := h'.frames
    rw [SymbolTable.frames_eq] at hframes ⊢
    cases hframes with
    | cons _ htail => exact htail

/-! ## Declarations -/

/-- The step gives the outcomes that the resolver finds, reports the identifiers that it finds
undeclared, and leaves a table that represents the bindings behind. -/
structure Agrees {α β : Type} (outer : List Frame) (names : α → β) (result : Logged (α × Env))
    (found : Found β) : Prop where
  names : names result.value.1 = found.names
  undeclared : Diagnostics.undeclared result.log = found.undeclared
  represents : Represents result.value.2.table outer found.bindings

/-- A declaration binds as lexical scoping has it. -/
theorem agrees_declareSymbol (h : Represents env.table outer bindings) (symbol : Symbol) :
    Agrees outer id (Analysis.declareSymbol symbol env)
      ⟨(bindings.declare symbol.name).1, [], (bindings.declare symbol.name).2⟩ := by
  have hframes := h.frames
  rw [SymbolTable.frames_eq] at hframes
  obtain ⟨hcurrent, htail⟩ := List.forall₂_cons.mp hframes
  have hquiet : undeclared (Analysis.declareSymbol symbol env).log = [] :=
    undeclared_of_causes (Analysis.causes_declareSymbol (by simp))
  cases hlookup : bindings.frame.lookup symbol.name with
  | some id =>
    have hbinds : env.table.current.binds symbol.name = true := by
      rw [Scope.binds, hcurrent, hlookup, Option.isSome_some]
    have hdeclare : bindings.declare symbol.name = (.error .alreadyBound, bindings) := by
      rw [Bindings.declare, hlookup]
    rw [hdeclare]
    have hvalue := (Analysis.declareSymbol_of_binds hbinds).1
    refine ⟨by rw [hvalue]; rfl, hquiet, ?_⟩
    rw [hvalue]
    exact h
  | none =>
    have hbinds : env.table.current.binds symbol.name = false := by
      rw [Scope.binds, hcurrent, hlookup, Option.isSome_none]
    have hdeclare : bindings.declare symbol.name = (.ok bindings.next,
        ⟨bindings.frame.insert symbol.name bindings.next, bindings.next + 1⟩) := by
      rw [Bindings.declare, hlookup]
    rw [hdeclare]
    have hvalue := (Analysis.declareSymbol_of_not_binds hbinds).1
    refine ⟨by rw [hvalue, ← h.next]; rfl, hquiet, ?_⟩
    rw [hvalue]
    refine ⟨h.formed.bindCurrent symbol, ?_, ?_⟩
    · show (env.table.symbols ++ [symbol]).length = _
      rw [List.length_append, h.next, List.length_singleton]
    · rw [Env.bindCurrent, SymbolTable.frames_bindCurrent h.formed]
      refine .cons (fun name => ?_) htail
      rw [Scope.find?_bind, hcurrent, h.next]
      by_cases hname : symbol.name = name
      · rw [← hname, hlookup, if_pos rfl, Finmap.lookup_insert, Option.none_or]
      · rw [if_neg hname, Finmap.lookup_insert_of_ne _ (Ne.symm hname), Option.or_none]

end Scoping

end Cqasm
