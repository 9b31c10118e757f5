import Cqasm.Proofs.Analysis.Environment
import Cqasm.Proofs.Checked.Basic

/-!
# Scopes and symbols by their numbers

The operations on a symbol table, with every scope and every symbol asked for by its number. In a
formed table the open scopes and the parents of an open scope are there, and so is every symbol that
a scope binds; then each operation gives what it gives in the analysis.

* `Checked.current`, `Checked.search`, `Checked.anyLoop`, `Checked.closeScopes` : where scopes are
  asked for;
* `Checked.enter`, `Checked.closeTo`, `Checked.inBlock` : a block, at whose end scopes are closed by
  their number;
* `Checked.marked` : the mark of a statement, for which the recorded errors are counted twice.
-/

namespace Cqasm

open Fault (element element_eq difference difference_eq)

/-- A path has at most as many scopes below its first one as that has scopes before it. -/
theorem Path.length_le {scopes : List Scope} {id : ScopeId} {rest : List ScopeId}
    (h : Path scopes (id :: rest)) : rest.length ≤ id := by
  generalize hpath : id :: rest = path at h
  induction h generalizing id rest with
  | global => simp_all
  | block _ _ _ _ hlt _ ih =>
    cases hpath
    exact Nat.lt_of_le_of_lt (ih rfl) hlt

namespace Checked

variable {table : SymbolTable}

/-! ## Single scopes and symbols -/

/-- The scope with the given number. -/
def getScope (table : SymbolTable) (id : ScopeId) : Except Fault Scope :=
  element table.scopes id (.scope id)

/-- The symbol with the given number. -/
def getSymbol (table : SymbolTable) (id : SymbolId) : Except Fault Symbol :=
  element table.symbols id (.symbol id)

/-- The innermost open scope. -/
def current (table : SymbolTable) : Except Fault Scope := getScope table table.currentId

theorem getScope_eq {id : ScopeId} (h : id < table.scopes.length) :
    getScope table id = .ok (SymbolTable.scopeAt table.scopes id) := by
  refine element_eq ?_
  rw [SymbolTable.scopeAt, List.getElem?_eq_getElem h, Option.getD_some]

theorem currentId_lt (h : table.Formed) : table.currentId < table.scopes.length := by
  have hpath := h.path
  rw [SymbolTable.openScopes_eq] at hpath
  exact hpath.head_lt

theorem current_eq (h : table.Formed) : current table = .ok table.current :=
  getScope_eq (currentId_lt h)

/-! ## Looking up a name -/

/-- The innermost binding of `name` from the scope `start` along the parents, at most `steps` of
them. -/
def search (table : SymbolTable) (name : String) :
    Nat → Option ScopeId → Except Fault (Option (SymbolId × Nat))
  | _, none => pure none
  | 0, some _ => throw .endless
  | steps + 1, some id => do
    let scope ← getScope table id
    match scope.find? name with
    | some symbol => pure (some (symbol, scope.level))
    | none => search table name steps scope.parent

/-- The innermost binding of `name`. -/
def lookup (table : SymbolTable) (name : String) :
    Except Fault (Except SymbolError SymbolRecord) := do
  match ← search table name table.scopes.length (some table.currentId) with
  | none => pure (.error .missingBinding)
  | some (id, level) =>
    let symbol ← getSymbol table id
    pure (.ok { symbol, id, level })

/-- What a scope binds `name` to, with the level of the scope. -/
def found? (name : String) (scope : Scope) : Option (SymbolId × Nat) :=
  (scope.find? name).map (·, scope.level)

theorem search_none (name : String) (steps : Nat) : search table name steps none = .ok none := by
  cases steps <;> rfl

/-- One step of the search. -/
theorem search_succ {name : String} {id : ScopeId} {scope : Scope}
    (hget : table.scopes[id]? = some scope) (steps : Nat) :
    search table name (steps + 1) (some id)
      = match found? name scope with
        | some binding => .ok (some binding)
        | none => search table name steps scope.parent := by
  refine Fault.bind_eq (element_eq hget) ?_
  rw [found?]
  cases scope.find? name <;> rfl

/-- The search meets the scopes of a path, so it needs no more steps than the path has scopes. -/
theorem search_eq {name : String} {id : ScopeId} {rest : List ScopeId}
    (h : Path table.scopes (id :: rest)) {steps : Nat} (hsteps : rest.length < steps) :
    search table name steps (some id)
      = .ok (((id :: rest).map (SymbolTable.scopeAt table.scopes)).findSome? (found? name)) := by
  generalize hpath : id :: rest = path at h
  induction h generalizing id rest steps with
  | @global scope hget _ hparent _ =>
    cases hpath
    obtain ⟨steps, rfl⟩ := Nat.exists_eq_succ_of_ne_zero (Nat.ne_of_gt hsteps)
    have hat : SymbolTable.scopeAt table.scopes 0 = scope := by
      rw [SymbolTable.scopeAt, hget, Option.getD_some]
    rw [search_succ hget, hparent, search_none, List.map_singleton, hat, List.findSome?_singleton]
    cases found? name scope <;> rfl
  | @block id parent rest scope _ hget _ hparent _ _ _ ih =>
    cases hpath
    obtain ⟨steps, rfl⟩ := Nat.exists_eq_succ_of_ne_zero (Nat.ne_zero_of_lt hsteps)
    have hat : SymbolTable.scopeAt table.scopes id = scope := by
      rw [SymbolTable.scopeAt, hget, Option.getD_some]
    rw [List.map_cons, List.findSome?_cons, hat, search_succ hget, hparent,
      ih (Nat.lt_of_succ_lt_succ hsteps) rfl]
    cases found? name scope <;> rfl

theorem lookup_eq (h : table.Formed) (name : String) :
    lookup table name = .ok (table.lookup name) := by
  have hpath := h.path
  rw [SymbolTable.openScopes_eq] at hpath
  have hsteps : table.openScopes.tail.length < table.scopes.length :=
    Nat.lt_of_le_of_lt hpath.length_le hpath.head_lt
  have hsearch : search table name table.scopes.length (some table.currentId)
      = .ok (table.binding? name) := by
    rw [search_eq hpath hsteps, ← SymbolTable.openScopes_eq, SymbolTable.binding?,
      SymbolTable.visible_eq_frames h]
    rfl
  refine Fault.bind_eq hsearch ?_
  rw [SymbolTable.lookup]
  cases hbinding : table.binding? name with
  | none => rfl
  | some binding =>
    obtain ⟨id, level⟩ := binding
    have hget := List.getElem?_eq_getElem (SymbolTable.lt_of_binding? h hbinding)
    refine Fault.bind_eq (element_eq hget) ?_
    simp only [hget]
    rfl

/-! ## Declaring a symbol -/

/-- Binds the name of `symbol` in the current scope, unless that scope binds the name already. -/
def declare (symbol : Symbol) (table : SymbolTable) :
    Except Fault (Except SymbolError (SymbolId × SymbolTable)) := do
  let scope ← current table
  if scope.binds symbol.name then
    pure (.error .alreadyBound)
  else
    -- The symbol is numbered first, and then the scope is asked for again to be changed.
    let _ ← current table
    pure (.ok (table.symbols.length, table.bindCurrent symbol))

theorem declare_eq (h : table.Formed) (symbol : Symbol) :
    declare symbol table = .ok (table.declare symbol) := by
  refine Fault.bind_eq (current_eq h) ?_
  cases hbinds : table.current.binds symbol.name with
  | true =>
    rw [if_pos rfl, SymbolTable.declare_of_binds hbinds]
    rfl
  | false =>
    rw [if_neg Bool.false_ne_true, SymbolTable.declare_of_not_binds hbinds]
    exact Fault.bind_eq (current_eq h) rfl

/-! ## Loops around the current scope -/

/-- Is one of the scopes the body of a loop? -/
def anyLoop (table : SymbolTable) : List ScopeId → Except Fault Bool
  | [] => pure false
  | id :: ids => do
    let scope ← getScope table id
    if scope.isLoop then pure true else anyLoop table ids

/-- Is an open scope the body of a loop? The outermost scope is asked first. -/
def inLoop (table : SymbolTable) : Except Fault Bool := anyLoop table table.openScopes.reverse

theorem anyLoop_eq {ids : List ScopeId} (h : ∀ id ∈ ids, id < table.scopes.length) :
    anyLoop table ids
      = .ok (ids.any fun id => (SymbolTable.scopeAt table.scopes id).isLoop) := by
  induction ids with
  | nil => rfl
  | cons id ids ih =>
    obtain ⟨hid, hids⟩ := List.forall_mem_cons.mp h
    refine Fault.bind_eq (getScope_eq hid) ?_
    rw [List.any_cons, ih hids]
    cases (SymbolTable.scopeAt table.scopes id).isLoop <;> rfl

theorem inLoop_eq (h : table.Formed) : inLoop table = .ok table.inLoop := by
  have hids : ∀ id ∈ table.openScopes.reverse, id < table.scopes.length :=
    fun id hmem => h.path.mem_lt id (List.mem_reverse.mp hmem)
  rw [inLoop, anyLoop_eq hids, SymbolTable.inLoop_eq_any, SymbolTable.frames, List.any_map,
    List.any_reverse]
  rfl

/-! ## Opening and closing scopes -/

/-- Opens a scope of the given kind. Its level is what is left of the number of open scopes without
the scope itself. -/
def enter (kind : ScopeKind) (table : SymbolTable) : Except Fault SymbolTable :=
  match table.enter? kind with
  | .error .secondGlobal => throw .secondGlobal
  | .ok inner => do
    let _ ← difference inner.depth 1
    pure inner

example (table : SymbolTable) : enter .global table = .error .secondGlobal := rfl

theorem enter_eq (kind : BlockKind) (table : SymbolTable) :
    enter (.block kind) table = .ok (table.enter kind) :=
  Fault.bind_eq (difference_eq (Nat.succ_le_succ (Nat.zero_le _))) rfl

/-- Closes scopes, innermost first, as long as more than `depth` are open and more than the global
one. Every scope is asked for before it is closed. -/
def closeScopes (table : SymbolTable) (depth : Nat) : List ScopeId → Except Fault (List ScopeId)
  | [] => pure []
  | id :: ids =>
    if max depth 1 < ids.length + 2 then do
      let _ ← getScope table id
      closeScopes table depth ids
    else
      pure (id :: ids)

/-- Closes scopes until at most `depth` are open and at least the global one. -/
def closeTo (depth : Nat) (table : SymbolTable) : Except Fault SymbolTable := do
  let nested ← closeScopes table depth table.nested
  pure { table with nested }

theorem closeScopes_eq {ids : List ScopeId} (h : ∀ id ∈ ids, id < table.scopes.length)
    (depth : Nat) : closeScopes table depth ids = .ok (ids.drop (ids.length - (depth - 1))) := by
  induction ids with
  | nil =>
    rw [List.drop_nil]
    rfl
  | cons id ids ih =>
    obtain ⟨hid, hids⟩ := List.forall_mem_cons.mp h
    rw [closeScopes, List.length_cons]
    split
    · next hlt =>
      have hdrop : ids.length + 1 - (depth - 1) = ids.length - (depth - 1) + 1 := by omega
      rw [hdrop, List.drop_succ_cons]
      exact Fault.bind_eq (getScope_eq hid) (ih hids)
    · next hge =>
      have hdrop : ids.length + 1 - (depth - 1) = 0 := by omega
      rw [hdrop]
      rfl

theorem closeTo_eq (h : table.Formed) (depth : Nat) :
    closeTo depth table = .ok (table.closeTo depth) := by
  have hids : ∀ id ∈ table.nested, id < table.scopes.length :=
    fun id hmem => h.path.mem_lt id (List.mem_append_left _ hmem)
  exact Fault.bind_eq (closeScopes_eq hids depth) rfl

/-! ## Steps of the analysis -/

variable {α : Type} {env : Env}

/-- The innermost binding of `name`, as a reference and a type. -/
def resolveName (table : SymbolTable) (name : String) (loc : Location) :
    Checked (SymbolRef × Ty) := do
  match ← lookup table name with
  | .ok record => pure (.ok record.id, record.symbol.ty)
  | .error error =>
    table.report (.undeclaredIdentifier name) loc
    pure (.error error, .undefined)

theorem gives_resolveName (h : table.Formed) (name : String) (loc : Location) :
    (resolveName table name loc).Gives (table.resolveName name loc) := by
  refine .bind_lift (lookup_eq h name) ?_
  unfold SymbolTable.resolveName
  cases table.lookup name with
  | ok record => exact .pure _
  | error error => exact .bind (.lift _) (.pure _)

/-- Declares a symbol in the current scope, which must not bind its name already. -/
def declareSymbol (symbol : Symbol) : CheckedAnalysis SymbolRef := fun env => do
  match ← declare symbol env.table with
  | .ok (id, table) => pure (.ok id, { env with table })
  | .error error =>
    env.table.report (.duplicateDeclaration symbol.name) symbol.loc
    pure (.error error, env)

theorem gives_declareSymbol (h : env.table.Formed) (symbol : Symbol) :
    (declareSymbol symbol env).Gives (Analysis.declareSymbol symbol env) := by
  refine .bind_lift (declare_eq h symbol) ?_
  unfold Analysis.declareSymbol
  cases env.table.declare symbol with
  | ok declared => exact .pure _
  | error error => exact .bind (.lift _) (.pure _)

/-- Runs a step in a new scope. Behind it scopes are closed until as many are open as in front. -/
def inBlock (kind : BlockKind) (step : CheckedAnalysis α) : CheckedAnalysis α := fun env => do
  let inner ← enter (.block kind) env.table
  let (a, env') ← step { env with table := inner }
  let depth ← difference inner.depth 1
  let table ← closeTo depth env'.table
  pure (a, { env' with table })

theorem gives_inBlock {kind : BlockKind} {step : CheckedAnalysis α} {step' : Analysis α}
    (h : (step (env.enter kind)).Gives (step' (env.enter kind)))
    (hformed : (step' (env.enter kind)).value.2.table.Formed) :
    (inBlock kind step env).Gives (Analysis.inBlock kind step' env) := by
  refine .bind_lift (enter_eq kind env.table) (.bind h ?_)
  refine .bind_lift (difference_eq (Nat.succ_le_succ (Nat.zero_le _))) ?_
  exact .bind_lift (closeTo_eq hformed _) (.pure _)

/-- The number of errors recorded so far. -/
def errorCount : CheckedAnalysis Nat := fun env recorded =>
  .ok ((recorded.errorCount, env), recorded)

/-- Marks what a step gives with the location and with whether as many errors are recorded behind the
step as in front of it. -/
def marked (loc : Location) (step : CheckedAnalysis (Typed.Mark → Typed.Stmt)) :
    CheckedAnalysis Typed.Stmt := do
  let before ← errorCount
  let stmt ← step
  let after ← errorCount
  pure (stmt { loc, valid := after == before })

/-- The errors behind a step are as many as in front of it if the step itself records none, whatever
has been recorded before. -/
theorem gives_marked {loc : Location} {step : CheckedAnalysis (Typed.Mark → Typed.Stmt)}
    {step' : Analysis (Typed.Mark → Typed.Stmt)} (h : (step env).Gives (step' env)) :
    (marked loc step env).Gives (Analysis.marked loc step' env) := by
  intro recorded
  have hvalid : (Diagnostics.errorCount (recorded ++ (step' env).log) == recorded.errorCount)
      = !(step' env).log.anyErrors := by
    rw [Bool.eq_iff_iff, beq_iff_eq, Bool.not_eq_true', Diagnostics.errorCount_append_eq_iff]
  -- the step runs from the diagnostics that were counted, and those behind it are counted again
  show (step env recorded >>= fun result =>
    Except.ok ((result.1.1 ⟨loc, result.2.errorCount == recorded.errorCount⟩, result.1.2),
      result.2)) = _
  rw [h recorded]
  show Except.ok (((step' env).value.1 ⟨loc, _⟩, (step' env).value.2), _) = _
  rw [hvalid]
  rfl

end Checked

end Cqasm
