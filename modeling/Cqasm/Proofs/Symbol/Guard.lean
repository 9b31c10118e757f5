import Cqasm.Proofs.Symbol.Refinement

/-!
# A guarded part restores the scopes

Closing a guarded part knows nothing but the number of scopes that were open before it. Whatever has
been opened and closed inside, no more than these are open behind it, and none is opened again. If the
scope of the part itself was open all the time then the scopes around it are the ones they were, and
every name stands for what it stood for (`restores_guarded`).

* `SymbolTable.stages`, `SymbolTable.stagesAll` : the tables that operations go through, those inside
  of guarded parts included;
* `SymbolTable.Maintained`, `SymbolTable.Kept` : what each operation keeps, and so all tables on the way
  have;
* `SymbolTable.Around` : the open scopes of one table are open in another one, as they were, and there
  are more of them.
-/

namespace Cqasm.SymbolTable

variable {outer table : SymbolTable} {dialect : Dialect}

/-! ## The tables on the way -/

mutual

/-- The tables that an operation goes through, the last of which is the one it leaves. A guarded part
goes through those of its own operations, after its scope is opened and before it is closed. -/
def stages : Step → SymbolTable → List SymbolTable
  | .guarded (.block kind) steps, table =>
    table.enter kind :: stagesAll steps (table.enter kind)
      ++ [(performAll steps (table.enter kind)).2.closeTo table.depth]
  | step, table => [(perform step table).2]

/-- The tables that the operations of a script go through. -/
def stagesAll : List Step → SymbolTable → List SymbolTable
  | [], _ => []
  | step :: steps, table => stages step table ++ stagesAll steps (perform step table).2

end

theorem perform_mem_stages (step : Step) (table : SymbolTable) :
    (perform step table).2 ∈ stages step table := by
  cases step with
  | guarded kind steps => cases kind <;> simp [stages, perform, enter?]
  | _ => simp [stages]

theorem performAll_mem_stagesAll (steps : List Step) (table : SymbolTable) :
    (performAll steps table).2 ∈ table :: stagesAll steps table := by
  induction steps generalizing table with
  | nil => simp [performAll]
  | cons step steps ih =>
    rw [performAll, stagesAll]
    rcases List.mem_cons.mp (ih (perform step table).2) with hend | hend
    · exact List.mem_cons_of_mem _ (List.mem_append_left _ (hend ▸ perform_mem_stages step table))
    · exact List.mem_cons_of_mem _ (List.mem_append_right _ hend)

/-- A table that some script on a new table goes through, possibly inside of guarded parts. -/
def Reachable (dialect : Dialect) (table : SymbolTable) : Prop :=
  ∃ script, table ∈ new dialect :: stagesAll script (new dialect)

theorem Reachable.of_performAll (dialect : Dialect) (script : List Step) :
    Reachable dialect (performAll script (new dialect)).2 :=
  ⟨script, performAll_mem_stagesAll script (new dialect)⟩

/-! ## What is kept on the way -/

/-- `P` is kept by opening a scope, by declaring a name that the current scope does not bind yet, and by
closing scopes if `Q` holds afterwards. -/
structure Maintained (P Q : SymbolTable → Prop) : Prop where
  enter : ∀ {table : SymbolTable} (kind : BlockKind), P table → P (table.enter kind)
  closeTo : ∀ {table : SymbolTable} (depth : Nat), P table → Q (table.closeTo depth) →
    P (table.closeTo depth)
  declare : ∀ {table : SymbolTable} {symbol : Symbol}, P table →
    table.current.binds symbol.name = false → P (table.bindCurrent symbol)

namespace Maintained

variable {P Q : SymbolTable → Prop}

mutual

theorem stages (h : Maintained P Q) : (step : Step) → {table : SymbolTable} → P table →
    (∀ stage ∈ SymbolTable.stages step table, Q stage) →
    ∀ stage ∈ SymbolTable.stages step table, P stage
  | .enter .global, table, hP, _ | .guarded .global _, table, hP, _ | .lookup _, table, hP, _
  | .get _, table, hP, _ | .symbols, table, hP, _ | .instruction _, table, hP, _
  | .function _, table, hP, _ => by
    simpa [SymbolTable.stages, perform, enter?] using hP
  | .enter (.block kind), table, hP, _ => by
    simpa [SymbolTable.stages, perform, enter?] using h.enter kind hP
  | .exit, table, hP, hQ => by
    simp only [SymbolTable.stages, perform, List.forall_mem_singleton, exit_eq_closeTo] at hQ ⊢
    exact h.closeTo _ hP hQ
  | .declare symbol, table, hP, _ => by
    cases hbinds : table.current.binds symbol.name with
    | true => simpa [SymbolTable.stages, perform, declare_of_binds hbinds] using hP
    | false =>
      simpa [SymbolTable.stages, perform, declare_of_not_binds hbinds] using h.declare hP hbinds
  | .guarded (.block kind) steps, table, hP, hQ => by
    rw [SymbolTable.stages, List.forall_mem_append, List.forall_mem_cons] at hQ ⊢
    obtain ⟨⟨-, hQinside⟩, hQend⟩ := hQ
    have hinside := h.stagesAll steps (h.enter kind hP) hQinside
    have hbefore : P (performAll steps (table.enter kind)).2 :=
      List.forall_mem_cons.mpr ⟨h.enter kind hP, hinside⟩ _ (performAll_mem_stagesAll steps _)
    refine ⟨⟨h.enter kind hP, hinside⟩, ?_⟩
    rw [List.forall_mem_singleton] at hQend ⊢
    exact h.closeTo _ hbefore hQend

theorem stagesAll (h : Maintained P Q) : (steps : List Step) → {table : SymbolTable} → P table →
    (∀ stage ∈ SymbolTable.stagesAll steps table, Q stage) →
    ∀ stage ∈ SymbolTable.stagesAll steps table, P stage
  | [], _, _, _ => by simp [SymbolTable.stagesAll]
  | step :: steps, table, hP, hQ => by
    rw [SymbolTable.stagesAll, List.forall_mem_append] at hQ ⊢
    have hstep := h.stages step hP hQ.1
    exact ⟨hstep, h.stagesAll steps (hstep _ (perform_mem_stages step table)) hQ.2⟩

end

theorem of_reachable (h : Maintained P fun _ => True) (hnew : P (new dialect))
    (hreachable : Reachable dialect table) : P table := by
  obtain ⟨script, hmem⟩ := hreachable
  have hstages := h.stagesAll script hnew fun _ _ => trivial
  exact List.forall_mem_cons.mpr ⟨hnew, hstages⟩ table hmem

end Maintained

/-- `P` is kept by opening a scope and by declaring, and by closing scopes if `Q` holds afterwards. -/
structure Kept (P Q : SymbolTable → Prop) : Prop where
  enter : ∀ {table : SymbolTable} (kind : BlockKind), P table → P (table.enter kind)
  closeTo : ∀ {table : SymbolTable} (depth : Nat), P table → Q (table.closeTo depth) →
    P (table.closeTo depth)
  bindCurrent : ∀ {table : SymbolTable} (symbol : Symbol), P table → P (table.bindCurrent symbol)

namespace Kept

variable {P Q : SymbolTable → Prop}

theorem maintained (hkept : Kept P Q) : Maintained P Q where
  enter := hkept.enter
  closeTo := hkept.closeTo
  declare h _ := hkept.bindCurrent _ h

/-- The table at the end has it if all those on the way have `Q`. -/
theorem performAll (hkept : Kept P Q) {steps : List Step} {table : SymbolTable} (h : P table)
    (hQ : ∀ stage ∈ SymbolTable.stagesAll steps table, Q stage) :
    P (SymbolTable.performAll steps table).2 :=
  List.forall_mem_cons.mpr ⟨h, hkept.maintained.stagesAll steps h hQ⟩ _
    (performAll_mem_stagesAll steps table)

end Kept

theorem kept_formed : Kept Formed fun _ => True where
  enter kind h := h.enter kind
  closeTo depth h _ := h.closeTo depth
  bindCurrent symbol h := h.bindCurrent symbol

theorem Reachable.formed (h : Reachable dialect table) : table.Formed :=
  kept_formed.maintained.of_reachable (formed_new dialect) h

/-! ## Closing scopes -/

theorem openScopes_closeTo (depth : Nat) (table : SymbolTable) :
    (table.closeTo depth).openScopes
      = table.openScopes.drop (table.nested.length - (depth - 1)) := by
  simp [openScopes, closeTo, List.drop_append]

theorem depth_closeTo {depth : Nat} (h : 0 < depth) (table : SymbolTable) :
    (table.closeTo depth).depth = min depth table.depth := by
  simp only [SymbolTable.depth, closeTo, List.length_drop]
  omega

theorem depth_pos (table : SymbolTable) : 0 < table.depth := Nat.succ_pos _

/-- So many scopes are closed. -/
theorem length_nested_sub {depth : Nat} (h : 0 < depth) (table : SymbolTable) :
    table.nested.length - (depth - 1) = table.depth - depth := by
  simp only [SymbolTable.depth]
  omega

/-- At the end of a path there is the global scope. -/
theorem getLast?_of_path {scopes : List Scope} {path : List ScopeId} (h : Path scopes path) :
    ∃ scope, (path.map (scopeAt scopes)).getLast? = some scope ∧ scope.kind = .global := by
  induction h with
  | @global scope hget hkind _ _ => exact ⟨scope, by simp [scopeAt, hget], hkind⟩
  | block _ _ _ _ _ _ ih =>
    obtain ⟨scope, hlast, hkind⟩ := ih
    exact ⟨scope, by rw [List.map_cons, List.map_cons, List.getLast?_cons_cons, ← List.map_cons, hlast],
      hkind⟩

/-! ## The scopes around a guarded part -/

/-- The scopes that are open in `outer` are open in `table` with the same bindings, and inside of them
there is at least one more. -/
structure Around (outer table : SymbolTable) : Prop where
  formed : table.Formed
  symbols : outer.symbols <+: table.symbols
  openScopes : outer.openScopes <:+ table.openScopes
  frames : outer.frames <:+ table.frames
  depth_lt : outer.depth < table.depth

namespace Around

theorem of_enter (h : outer.Formed) (kind : BlockKind) : outer.Around (outer.enter kind) where
  formed := h.enter kind
  symbols := List.prefix_rfl
  openScopes := List.suffix_cons ..
  frames := by
    rw [frames_enter h]
    exact List.suffix_cons ..
  depth_lt := Nat.lt_succ_self _

theorem trans {table₁ table₂ table₃ : SymbolTable} (h : table₁.Around table₂)
    (h' : table₂.Around table₃) : table₁.Around table₃ where
  formed := h'.formed
  symbols := h.symbols.trans h'.symbols
  openScopes := h.openScopes.trans h'.openScopes
  frames := h.frames.trans h'.frames
  depth_lt := Nat.lt_trans h.depth_lt h'.depth_lt

theorem closeTo (h : outer.Around table) {depth : Nat}
    (hdepth : outer.depth < (table.closeTo depth).depth) : outer.Around (table.closeTo depth) where
  formed := h.formed.closeTo depth
  symbols := h.symbols
  openScopes := by
    have hsuffix : (table.closeTo depth).openScopes <:+ table.openScopes := by
      rw [openScopes_closeTo]
      exact List.drop_suffix ..
    refine List.suffix_of_suffix_length_le h.openScopes hsuffix ?_
    rw [length_openScopes, length_openScopes]
    exact Nat.le_of_lt hdepth
  frames := by
    have hsuffix : (table.closeTo depth).frames <:+ table.frames := by
      rw [frames_closeTo]
      exact List.drop_suffix ..
    refine List.suffix_of_suffix_length_le h.frames hsuffix ?_
    rw [length_frames, length_frames]
    exact Nat.le_of_lt hdepth
  depth_lt := hdepth

/-- A declaration is written to the innermost scope, which is none of the outer ones. -/
theorem bindCurrent (h : outer.Around table) (symbol : Symbol) :
    outer.Around (table.bindCurrent symbol) where
  formed := h.formed.bindCurrent symbol
  symbols := h.symbols.trans (List.prefix_append ..)
  openScopes := h.openScopes
  frames := by
    have hframes := h.frames
    rw [frames_bindCurrent h.formed]
    rw [frames_eq table, List.suffix_cons_iff] at hframes
    rcases hframes with heq | hsuffix
    · have hlength := congrArg List.length heq
      rw [← frames_eq, length_frames, length_frames] at hlength
      exact absurd hlength (Nat.ne_of_lt h.depth_lt)
    · exact hsuffix.trans (List.suffix_cons ..)
  depth_lt := h.depth_lt

theorem kept (outer : SymbolTable) :
    Kept outer.Around fun table => outer.depth < table.depth where
  enter kind h := h.trans (.of_enter h.formed kind)
  closeTo _ h hdepth := h.closeTo hdepth
  bindCurrent symbol h := h.bindCurrent symbol

/-- As long as the scope of a guarded part is open the scopes around it are not touched. -/
theorem performAll {kind : BlockKind} {steps : List Step} (h : outer.Formed)
    (hopen : ∀ stage ∈ stagesAll steps (outer.enter kind), outer.depth < stage.depth) :
    outer.Around (SymbolTable.performAll steps (outer.enter kind)).2 :=
  (kept outer).performAll (.of_enter h kind) hopen

/-! ## Behind the guarded part -/

theorem openScopes_closeTo (h : outer.Around table) :
    (table.closeTo outer.depth).openScopes = outer.openScopes := by
  have hdrop := List.suffix_iff_eq_drop.mp h.openScopes
  rw [length_openScopes, length_openScopes, ← length_nested_sub outer.depth_pos] at hdrop
  rw [SymbolTable.openScopes_closeTo, ← hdrop]

theorem frames_closeTo (h : outer.Around table) :
    (table.closeTo outer.depth).frames = outer.frames := by
  have hdrop := List.suffix_iff_eq_drop.mp h.frames
  rw [length_frames, length_frames, ← length_nested_sub outer.depth_pos] at hdrop
  rw [SymbolTable.frames_closeTo, ← hdrop]

theorem lookup_closeTo (h : outer.Around table) (houter : outer.Formed) (name : String) :
    (table.closeTo outer.depth).lookup name = outer.lookup name := by
  have hbinding : (table.closeTo outer.depth).binding? name = outer.binding? name := by
    rw [binding?, binding?, visible_eq_frames (h.formed.closeTo _), visible_eq_frames houter,
      h.frames_closeTo]
  unfold lookup
  rw [hbinding]
  cases hfound : outer.binding? name with
  | none => rfl
  | some found =>
    obtain ⟨id, level⟩ := found
    have hget := List.getElem?_eq_getElem (lt_of_binding? houter hfound)
    have hget' : (table.closeTo outer.depth).symbols[id]? = _ := getElem?_of_prefix h.symbols hget
    simp only [hget, hget']

end Around

/-- Behind a guarded part there are as many open scopes as before it, or all that were left if these
are fewer; they are the outer ones of those that were open at its end (`openScopes` begins with the
innermost), and the outermost is the global one. If there was at no time an operation inside that left
fewer scopes than the part began with, then the open scopes are those from before the part, and so is
what each name stands for. -/
theorem restores_guarded (h : Reachable dialect outer) (kind : BlockKind) (steps : List Step) :
    let inside := (performAll steps (outer.enter kind)).2
    let after := (perform (.guarded (.block kind) steps) outer).2
    (after.depth = min outer.depth inside.depth
      ∧ after.openScopes <:+ inside.openScopes
      ∧ ∃ scope, after.frames.getLast? = some scope ∧ scope.kind = .global)
    ∧ ((∀ stage ∈ stagesAll steps (outer.enter kind), outer.depth + 1 ≤ stage.depth) →
      after.openScopes = outer.openScopes ∧ ∀ name, after.lookup name = outer.lookup name) := by
  intro inside after
  have hafter : after = inside.closeTo outer.depth := by
    simp only [after, inside, perform, enter?]
  have hinside : inside.Formed :=
    kept_formed.performAll (h.formed.enter kind) fun _ _ => trivial
  rw [hafter]
  refine ⟨⟨depth_closeTo outer.depth_pos inside, ?_, ?_⟩, ?_⟩
  · rw [openScopes_closeTo]
    exact List.drop_suffix ..
  · exact getLast?_of_path (hinside.closeTo outer.depth).path
  · intro hopen
    have haround : outer.Around inside := .performAll h.formed hopen
    exact ⟨haround.openScopes_closeTo, haround.lookup_closeTo h.formed⟩

/-- Two scopes are left open inside, with another `x` in the scope of the guarded part. -/
theorem restores_guarded_leftOpen :
    let x : Symbol := ⟨"x", .var, .int, ⟨1, 1⟩⟩
    let steps : List Step := [.declare { x with ty := .float }, .enter (.block .branch),
      .guarded (.block .loop) [.enter (.block .branch), .exit, .exit, .declare x],
      .enter (.block .subcircuit)]
    let outer := (performAll [.declare x, .enter (.block .loop)] (new .v3)).2
    let after := (perform (.guarded (.block .branch) steps) outer).2
    Reachable .v3 outer
      ∧ (∀ stage ∈ stagesAll steps (outer.enter .branch), outer.depth + 1 ≤ stage.depth)
      ∧ (performAll steps (outer.enter .branch)).2.depth = 5
      ∧ after.openScopes = outer.openScopes
      ∧ after.lookup "x" = outer.lookup "x" := by
  intro x steps outer after
  have hreachable : Reachable .v3 outer := .of_performAll .v3 _
  have hopen : ∀ stage ∈ stagesAll steps (outer.enter .branch), outer.depth + 1 ≤ stage.depth := by
    decide +kernel
  obtain ⟨hscopes, hlookup⟩ := (restores_guarded hreachable .branch steps).2 hopen
  exact ⟨hreachable, hopen, by decide +kernel, hscopes, hlookup "x"⟩

end Cqasm.SymbolTable
