import Cqasm.Proofs.Symbol.Arena
import Cqasm.Proofs.Symbol.Stack

/-!
# A symbol table is a stack of frames

A script of operations gets the same answers from a symbol table, which keeps closed scopes and finds
names along parent links, and from a stack of frames, which forgets what it closes
(`performAll_eq`). The open scopes are the frames, kind by kind and name by name, and every operation
keeps them so (`Refines.perform`).

* `Stacked` : scopes and frames that are the same, where the level of a scope is its place;
* `SymbolTable.Refines` : a table and the stack it stands for;
* `Outcome.Failed` : the answers that leave everything as it was;
* `SymbolTable.Succeeds` : a later table, in which no scope that was closed is open.
-/

namespace Cqasm

theorem Scope.find?_eq_lookup (scope : Scope) (name : String) :
    scope.find? name = scope.bindings.lookup name := by
  unfold Scope.find?
  induction scope.bindings with
  | nil => rfl
  | cons entry bindings ih =>
    obtain ⟨other, id⟩ := entry
    by_cases h : other = name
    · simp [h]
    · have hne : (name == other) = false := by simpa using Ne.symm h
      simp [h, hne, List.lookup_cons, ih]

/-! ## Scopes and frames -/

/-- The scopes have the kinds and the names of the frames, and the level of each is the number of
frames below its own. -/
inductive Stacked : List Scope → List Frame → Prop
  | nil : Stacked [] []
  | cons {scope : Scope} {frame : Frame} {scopes : List Scope} {frames : List Frame}
      (hkind : scope.kind = frame.kind) (hnames : scope.bindings = frame.names)
      (hlevel : scope.level = frames.length) (hrest : Stacked scopes frames) :
      Stacked (scope :: scopes) (frame :: frames)

namespace Stacked

variable {scopes : List Scope} {frames : List Frame}

theorem length_eq (h : Stacked scopes frames) : scopes.length = frames.length := by
  induction h with
  | nil => rfl
  | cons _ _ _ _ ih => rw [List.length_cons, List.length_cons, ih]

/-- The innermost binding is the one of the topmost frame. -/
theorem find? (h : Stacked scopes frames) (name : String) :
    scopes.findSome? (fun scope => (scope.find? name).map (·, scope.level))
      = ScopeStack.find? name frames := by
  induction h with
  | nil => rfl
  | @cons scope frame _ _ _ hnames hlevel _ ih =>
    have hid : scope.find? name = frame.id? name := by
      rw [Scope.find?_eq_lookup, hnames]
      rfl
    rw [List.findSome?_cons, ScopeStack.find?, hid, hlevel, ih]
    cases frame.id? name <;> rfl

theorem any_isLoop (h : Stacked scopes frames) :
    scopes.any (·.isLoop) = frames.any fun frame => frame.kind = .block .loop := by
  induction h with
  | nil => rfl
  | cons hkind _ _ _ ih => rw [List.any_cons, List.any_cons, ih, Scope.isLoop, hkind]

end Stacked

/-! ## Closing scopes -/

namespace SymbolTable

theorem exit_eq_closeTo (table : SymbolTable) :
    table.exit = table.closeTo (table.depth - 1) := by
  unfold exit closeTo depth
  cases table.nested with
  | nil => rfl
  | cons id nested => simp

/-- The global scope is not closed. -/
theorem exit_of_depth {table : SymbolTable} (h : table.depth = 1) : table.exit = table := by
  have hnested : table.nested = [] := List.eq_nil_of_length_eq_zero (Nat.succ.inj h)
  rw [exit, hnested, List.tail_nil, ← hnested]

/-- Closing several scopes is closing one after the other. -/
theorem closeTo_eq_iterate (table : SymbolTable) {depth : Nat} (h : 0 < depth) :
    table.closeTo depth = exit^[table.depth - depth] table := by
  have hiterate : ∀ n, exit^[n] table = { table with nested := table.nested.drop n } := by
    intro n
    induction n with
    | zero => rfl
    | succ n ih =>
      rw [Function.iterate_succ_apply', ih, exit, List.tail_drop]
  have hcount : table.depth - depth = table.nested.length - (depth - 1) := by
    unfold SymbolTable.depth
    omega
  rw [hiterate, hcount, closeTo]

end SymbolTable

/-! ## Tables and stacks -/

/-- The table has the open scopes and the symbols of the stack. -/
structure SymbolTable.Refines (table : SymbolTable) (stack : ScopeStack) : Prop where
  formed : table.Formed
  stacked : Stacked table.frames (stack.top :: stack.below)
  symbols_eq : table.symbols = stack.symbols
  dialect_eq : table.dialect = stack.dialect

namespace SymbolTable.Refines

variable {table : SymbolTable} {stack : ScopeStack}

/-- The current scope is the topmost frame, and the scopes around it are the frames below. -/
theorem current (h : table.Refines stack) :
    table.current.kind = stack.top.kind ∧ table.current.bindings = stack.top.names
      ∧ table.current.level = stack.below.length ∧ Stacked table.frames.tail stack.below := by
  have hstacked := h.stacked
  rw [frames_eq] at hstacked
  cases hstacked with
  | cons hkind hnames hlevel hrest => exact ⟨hkind, hnames, hlevel, hrest⟩

theorem depth_eq (h : table.Refines stack) : table.depth = stack.depth := by
  rw [← length_frames, h.stacked.length_eq]
  rfl

/-- The scopes look the same. -/
theorem scopeState_eq (h : table.Refines stack) : table.scopeState = stack.state := by
  obtain ⟨hkind, hnames, -, -⟩ := h.current
  have hloop := h.stacked.any_isLoop
  rw [← inLoop_eq_any] at hloop
  simp only [scopeState, ScopeStack.state, h.depth_eq, hkind, hnames, hloop]

theorem new (dialect : Dialect) : (SymbolTable.new dialect).Refines (.new dialect) where
  formed := formed_new dialect
  stacked := .cons rfl rfl rfl .nil
  symbols_eq := rfl
  dialect_eq := rfl

/-! ## Opening and closing -/

theorem enter (h : table.Refines stack) (kind : BlockKind) :
    (table.enter kind).Refines (stack.push kind) where
  formed := h.formed.enter kind
  stacked := by
    rw [frames_enter h.formed]
    exact .cons rfl rfl h.depth_eq h.stacked
  symbols_eq := h.symbols_eq
  dialect_eq := h.dialect_eq

theorem exit (h : table.Refines stack) : table.exit.Refines stack.pop := by
  have hformed : table.exit.Formed := by
    rw [exit_eq_closeTo]
    exact h.formed.closeTo _
  have hdepth := h.depth_eq
  obtain ⟨-, -, -, hbelow⟩ := h.current
  obtain ⟨dialect, top, below, symbols, bound⟩ := stack
  cases below with
  | nil =>
    -- only the global scope is open, which stays
    rw [exit_of_depth hdepth]
    exact h
  | cons frame below =>
    have hlength : table.nested.length = below.length + 1 := Nat.succ.inj hdepth
    have hframes : table.exit.frames = table.frames.tail := by
      rw [exit_eq_closeTo, frames_closeTo, depth, hlength, List.drop_one.symm]
      congr 1
      omega
    refine ⟨hformed, ?_, h.symbols_eq, h.dialect_eq⟩
    rw [hframes]
    exact hbelow

theorem closeTo (h : table.Refines stack) {depth : Nat} (hdepth : 0 < depth) :
    (table.closeTo depth).Refines (stack.popTo depth) := by
  rw [closeTo_eq_iterate table hdepth, ScopeStack.popTo, h.depth_eq]
  generalize stack.depth - depth = n
  induction n with
  | zero => exact h
  | succ n ih =>
    rw [Function.iterate_succ_apply', Function.iterate_succ_apply']
    exact ih.exit

/-! ## Names -/

theorem binds_eq (h : table.Refines stack) (name : String) :
    table.current.binds name = (stack.top.id? name).isSome := by
  rw [Scope.binds, Scope.find?_eq_lookup, h.current.2.1]
  rfl

theorem bindCurrent (h : table.Refines stack) {symbol : Symbol}
    (hfresh : stack.top.id? symbol.name = none) :
    (table.bindCurrent symbol).Refines (stack.bindTop symbol hfresh) where
  formed := h.formed.bindCurrent symbol
  stacked := by
    obtain ⟨hkind, hnames, hlevel, hrest⟩ := h.current
    rw [frames_bindCurrent h.formed, h.symbols_eq]
    refine .cons hkind ?_ hlevel hrest
    rw [Scope.bind, hnames]
    rfl
  symbols_eq := by
    rw [SymbolTable.bindCurrent, h.symbols_eq]
    rfl
  dialect_eq := h.dialect_eq

theorem lookup_eq (h : table.Refines stack) (name : String) :
    table.lookup name = stack.lookup name := by
  have hbinding : table.binding? name = ScopeStack.find? name (stack.top :: stack.below) := by
    rw [binding?, visible_eq_frames h.formed, h.stacked.find?]
  unfold SymbolTable.lookup
  cases hfind : ScopeStack.find? name (stack.top :: stack.below) with
  | none => rw [hbinding, hfind, ScopeStack.lookup_of_find?_none hfind]
  | some found =>
    obtain ⟨id, level⟩ := found
    have hlt : id < stack.symbols.length := ScopeStack.lt_of_find? stack.bound hfind
    have hget := List.getElem?_eq_getElem hlt
    rw [ScopeStack.lookup_of_find?_some hfind hget, hbinding, hfind, h.symbols_eq]
    simp only [hget]

/-! ## Scripts -/

mutual

/-- The table and the stack give the same answer to an operation and stay alike. -/
theorem perform : (step : Step) → {table : SymbolTable} → {stack : ScopeStack} →
    table.Refines stack → (SymbolTable.perform step table).1 = (ScopeStack.perform step stack).1
      ∧ (SymbolTable.perform step table).2.Refines (ScopeStack.perform step stack).2
  | .enter .global, _, _, h => by
    rw [SymbolTable.perform, ScopeStack.perform]
    exact ⟨rfl, h⟩
  | .enter (.block kind), _, _, h => by
    rw [SymbolTable.perform, ScopeStack.perform]
    exact ⟨rfl, h.enter kind⟩
  | .exit, _, _, h => by
    rw [SymbolTable.perform, ScopeStack.perform]
    exact ⟨rfl, h.exit⟩
  | .guarded .global steps, _, _, h => by
    rw [SymbolTable.perform, ScopeStack.perform]
    exact ⟨rfl, h⟩
  | .guarded (.block kind) steps, table, stack, h => by
    have hinside := h.enter kind
    obtain ⟨houtcomes, hend⟩ := performAll steps hinside
    rw [SymbolTable.perform, ScopeStack.perform]
    refine ⟨?_, ?_⟩
    · exact congrArg₂ Outcome.guarded hinside.scopeState_eq houtcomes
    · rw [← h.depth_eq]
      exact hend.closeTo (Nat.succ_pos _)
  | .declare symbol, table, stack, h => by
    have hbinds := h.binds_eq symbol.name
    rw [SymbolTable.perform, ScopeStack.perform, ScopeStack.declare]
    by_cases hfresh : stack.top.id? symbol.name = none
    · rw [hfresh] at hbinds
      rw [declare_of_not_binds hbinds, dif_pos hfresh, h.symbols_eq]
      exact ⟨rfl, h.bindCurrent hfresh⟩
    · rw [Option.isSome_iff_ne_none.mpr hfresh] at hbinds
      rw [declare_of_binds hbinds, dif_neg hfresh]
      exact ⟨rfl, h⟩
  | .lookup name, _, _, h => by
    rw [SymbolTable.perform, ScopeStack.perform]
    exact ⟨congrArg Outcome.found (h.lookup_eq name), h⟩
  | .get id, _, _, h => by
    rw [SymbolTable.perform, ScopeStack.perform, h.symbols_eq]
    exact ⟨rfl, h⟩
  | .symbols, _, _, h => by
    rw [SymbolTable.perform, ScopeStack.perform, h.symbols_eq]
    exact ⟨rfl, h⟩
  | .instruction name, _, _, h => by
    rw [SymbolTable.perform, ScopeStack.perform, SymbolTable.instruction?, h.dialect_eq]
    exact ⟨rfl, h⟩
  | .function name, _, _, h => by
    rw [SymbolTable.perform, ScopeStack.perform, SymbolTable.function?, h.dialect_eq]
    exact ⟨rfl, h⟩

theorem performAll : (steps : List Step) → {table : SymbolTable} → {stack : ScopeStack} →
    table.Refines stack →
    (SymbolTable.performAll steps table).1 = (ScopeStack.performAll steps stack).1
      ∧ (SymbolTable.performAll steps table).2.Refines (ScopeStack.performAll steps stack).2
  | [], _, _, h => by
    rw [SymbolTable.performAll, ScopeStack.performAll]
    exact ⟨rfl, h⟩
  | step :: steps, table, stack, h => by
    obtain ⟨houtcome, hnext⟩ := perform step h
    obtain ⟨houtcomes, hend⟩ := performAll steps hnext
    rw [SymbolTable.performAll, ScopeStack.performAll]
    refine ⟨?_, hend⟩
    exact congrArg₂ List.cons (congrArg₂ Prod.mk houtcome hnext.scopeState_eq) houtcomes

end

end SymbolTable.Refines

/-! ## Scopes that are closed -/

namespace SymbolTable

variable {table table' : SymbolTable}

/-- A later table. Scopes are only added, and of those that there were before no other ones are
open. -/
structure Succeeds (table table' : SymbolTable) : Prop where
  length_le : table.scopes.length ≤ table'.scopes.length
  mem_of_mem : ∀ id ∈ table'.openScopes, id < table.scopes.length → id ∈ table.openScopes

namespace Succeeds

theorem refl (table : SymbolTable) : Succeeds table table := ⟨Nat.le_refl _, fun _ hmem _ => hmem⟩

theorem trans {table₁ table₂ table₃ : SymbolTable} (h : Succeeds table₁ table₂)
    (h' : Succeeds table₂ table₃) : Succeeds table₁ table₃ where
  length_le := Nat.le_trans h.length_le h'.length_le
  mem_of_mem id hmem hlt :=
    h.mem_of_mem id (h'.mem_of_mem id hmem (Nat.lt_of_lt_of_le hlt h.length_le)) hlt

theorem enter (kind : BlockKind) (table : SymbolTable) : Succeeds table (table.enter kind) where
  length_le := by simp [SymbolTable.enter]
  mem_of_mem id hmem hlt := by
    rcases List.mem_cons.mp hmem with rfl | hmem
    · exact absurd hlt (Nat.lt_irrefl _)
    · exact hmem

theorem closeTo (depth : Nat) (table : SymbolTable) : Succeeds table (table.closeTo depth) where
  length_le := Nat.le_refl _
  mem_of_mem id hmem _ := by
    rcases List.mem_append.mp hmem with hmem | hmem
    · exact List.mem_append_left _ (List.mem_of_mem_drop hmem)
    · exact List.mem_append_right _ hmem

theorem exit (table : SymbolTable) : Succeeds table table.exit := by
  rw [exit_eq_closeTo]
  exact .closeTo _ table

theorem bindCurrent (symbol : Symbol) (table : SymbolTable) :
    Succeeds table (table.bindCurrent symbol) where
  length_le := by simp [SymbolTable.bindCurrent]
  mem_of_mem _ hmem _ := hmem

mutual

theorem perform : (step : Step) → (table : SymbolTable) →
    Succeeds table (SymbolTable.perform step table).2
  | .enter .global, table | .guarded .global _, table | .lookup _, table | .get _, table
  | .symbols, table | .instruction _, table | .function _, table => by
    rw [SymbolTable.perform]
    exact .refl table
  | .enter (.block kind), table => by
    rw [SymbolTable.perform]
    exact .enter kind table
  | .exit, table => by
    rw [SymbolTable.perform]
    exact .exit table
  | .guarded (.block kind) steps, table => by
    rw [SymbolTable.perform]
    exact ((Succeeds.enter kind table).trans (performAll steps (table.enter kind))).trans
      (.closeTo _ _)
  | .declare symbol, table => by
    rw [SymbolTable.perform]
    cases hbinds : table.current.binds symbol.name with
    | true =>
      rw [declare_of_binds hbinds]
      exact .refl table
    | false =>
      rw [declare_of_not_binds hbinds]
      exact .bindCurrent symbol table

/-- No script opens a scope again that is closed. -/
theorem performAll : (steps : List Step) → (table : SymbolTable) →
    Succeeds table (SymbolTable.performAll steps table).2
  | [], table => by
    rw [SymbolTable.performAll]
    exact .refl table
  | step :: steps, table => by
    rw [SymbolTable.performAll]
    exact (perform step table).trans (performAll steps _)

end

end Succeeds

end SymbolTable

/-! ## Operations that fail -/

/-- The answer says that the operation failed. -/
def Outcome.Failed : Outcome → Prop
  | .refused _ | .declared (.error _) | .found (.error _) => True
  | _ => False

namespace SymbolTable

variable {table : SymbolTable}

theorem perform_of_failed {step : Step} (h : (perform step table).1.Failed) :
    (perform step table).2 = table := by
  cases step with
  | enter kind | guarded kind =>
    cases kind with
    | global => rw [perform]; rfl
    | block kind =>
      rw [perform] at h
      exact absurd h id
  | exit =>
    rw [perform] at h
    exact absurd h id
  | declare symbol =>
    cases hbinds : table.current.binds symbol.name with
    | true => rw [perform, declare_of_binds hbinds]
    | false =>
      rw [perform, declare_of_not_binds hbinds] at h
      exact absurd h id
  | _ => rw [perform]

/-! ## The table of a script -/

/-- What can be seen of the table is what can be seen of the stack. -/
structure Shows (table : SymbolTable) (stack : ScopeStack) : Prop where
  state_eq : table.scopeState = stack.state
  symbols_eq : table.symbols = stack.symbols
  lookup_eq : ∀ name, table.lookup name = stack.lookup name

theorem Refines.shows {stack : ScopeStack} (h : table.Refines stack) : table.Shows stack where
  state_eq := h.scopeState_eq
  symbols_eq := h.symbols_eq
  lookup_eq := h.lookup_eq

/-- What no later script does. Names are looked up in the open scopes only, and a scope that is closed
stays so; an operation that fails changes nothing, and neither does leaving the global scope. -/
structure Safe (table : SymbolTable) : Prop where
  visible_eq : ∀ steps, (performAll steps table).2.visible
    = (performAll steps table).2.openScopes.map (scopeAt (performAll steps table).2.scopes)
  closed : ∀ id < table.scopes.length, id ∉ table.openScopes →
    ∀ steps, id ∉ (performAll steps table).2.openScopes
  failed : ∀ step, (perform step table).1.Failed → (perform step table).2 = table
  leaving : table.depth = 1 → (perform .exit table).2 = table

theorem Refines.safe {stack : ScopeStack} (h : table.Refines stack) : table.Safe where
  visible_eq steps := visible_eq_frames (Refines.performAll steps h).2.formed
  closed id hlt hclosed steps hmem :=
    hclosed ((Succeeds.performAll steps table).mem_of_mem id hmem hlt)
  failed _ := perform_of_failed
  leaving hdepth := by rw [SymbolTable.perform, exit_of_depth hdepth]

/-- A script gets the same answers from a new symbol table as from a new stack, and what it leaves of
the one is what it leaves of the other. -/
theorem performAll_eq_stack (dialect : Dialect) (steps : List Step) :
    (performAll steps (new dialect)).1 = (ScopeStack.performAll steps (.new dialect)).1
      ∧ (performAll steps (new dialect)).2.Shows (ScopeStack.performAll steps (.new dialect)).2
      ∧ (performAll steps (new dialect)).2.Safe := by
  obtain ⟨houtcomes, hrefines⟩ := Refines.performAll steps (.new dialect)
  exact ⟨houtcomes, hrefines.shows, hrefines.safe⟩

/-- A guarded part that leaves a scope open, with another `x` in it, does not hide the outer `x`. -/
example :
    let x : Symbol := ⟨"x", .var, .int, ⟨1, 1⟩⟩
    let script : List Step := [.declare x,
      .guarded (.block .loop) [.enter (.block .branch), .declare { x with ty := .float }]]
    (performAll script (new .v3)).2.lookup "x" = .ok ⟨x, 0, 0⟩ := by decide +kernel

end SymbolTable

end Cqasm
