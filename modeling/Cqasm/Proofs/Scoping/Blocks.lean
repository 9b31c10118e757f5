import Cqasm.Proofs.Analysis.Site
import Cqasm.Proofs.Typed.Numbering

/-!
# Blocks leave no trace

A statement changes the open scopes only by what it declares in the block it stands in: the scopes of
its own blocks are closed behind it, whatever is declared or goes wrong inside of them, and the scopes
around it are not written to. At the end of a program the global scope therefore binds the names of
the statements outside of all blocks and nothing else, the first declaration of a name being the one
that counts (`scopes_analyze`).

* `Tree.Stmt.blockDeclarations`, `Typed.Stmt.blockSymbols` : what a statement declares in the block it
  stands in, as written and after analysis;
* `bound` : the bindings that declarations make;
* `Env.Gains` : what has changed in the scopes is what has been declared.
-/

namespace Cqasm

/-! ## Declarations in a block -/

/-- What the statement declares in the block it stands in. The variable of a loop belongs to the block
of the loop. -/
def Tree.Stmt.blockDeclarations : Tree.Stmt → List Declaration
  | .foreach _ _ _ _ _ => []
  | s => s.declarations

/-- The symbols that the statement declares in the block it stands in. -/
def Typed.Stmt.blockSymbols : Typed.Stmt → List SymbolRef
  | .foreach _ _ _ _ _ => []
  | s => s.ownSymbols

/-- The bindings of the declarations that did not fail. -/
def bound (declared : List (Declaration × SymbolRef)) : List (String × SymbolId) :=
  declared.filterMap fun entry => entry.2.toOption.map (entry.1.name, ·)

@[simp] theorem bound_append (declared declared' : List (Declaration × SymbolRef)) :
    bound (declared ++ declared') = bound declared ++ bound declared' := List.filterMap_append

theorem bound_cons_ok (declaration : Declaration) (id : SymbolId)
    (declared : List (Declaration × SymbolRef)) :
    bound ((declaration, .ok id) :: declared) = (declaration.name, id) :: bound declared := rfl

theorem bound_cons_error (declaration : Declaration) (error : SymbolError)
    (declared : List (Declaration × SymbolRef)) :
    bound ((declaration, .error error) :: declared) = bound declared := rfl

/-- A name without a declaration is not bound. -/
theorem find?_bound_of_none {declared : List (Declaration × SymbolRef)} {name : String}
    (h : declared.find? (·.1.name = name) = none) : (bound declared).find? (·.1 = name) = none := by
  rw [List.find?_eq_none] at h ⊢
  intro binding hbinding
  obtain ⟨entry, hentry, hsome⟩ := List.mem_filterMap.mp hbinding
  obtain ⟨id, -, rfl⟩ := Option.map_eq_some_iff.mp hsome
  exact h entry hentry

/-- A name is bound to the symbol of its first declaration, if that one did not fail. -/
theorem find?_bound_of_some {declared : List (Declaration × SymbolRef)} {name : String}
    {declaration : Declaration} {id : SymbolId}
    (h : declared.find? (·.1.name = name) = some (declaration, .ok id)) :
    (bound declared).find? (·.1 = name) = some (name, id) := by
  induction declared with
  | nil => cases h
  | cons entry declared ih =>
    obtain ⟨first, ref⟩ := entry
    by_cases hname : first.name = name
    · rw [List.find?_cons_of_pos (by simpa using hname)] at h
      cases h
      rw [bound_cons_ok, List.find?_cons_of_pos (by simpa using hname), hname]
    · rw [List.find?_cons_of_neg (by simpa using hname)] at h
      have hrest : (bound declared).find? (·.1 = name) = some (name, id) := ih h
      cases ref with
      | error error =>
        rw [bound_cons_error]
        exact hrest
      | ok other =>
        rw [bound_cons_ok, List.find?_cons_of_neg (by simpa using hname)]
        exact hrest

/-- The scope with more bindings. -/
def Scope.bindAll (scope : Scope) (bindings : List (String × SymbolId)) : Scope :=
  { scope with bindings := scope.bindings ++ bindings }

@[simp] theorem Scope.bindAll_nil (scope : Scope) : scope.bindAll [] = scope := by
  rw [bindAll, List.append_nil]

theorem Scope.bindAll_append (scope : Scope) (bindings bindings' : List (String × SymbolId)) :
    scope.bindAll (bindings ++ bindings') = (scope.bindAll bindings).bindAll bindings' := by
  simp only [bindAll, List.append_assoc]

theorem Scope.find?_bindAll (scope : Scope) (bindings : List (String × SymbolId)) (name : String) :
    (scope.bindAll bindings).find? name
      = (scope.find? name).or ((bindings.find? (·.1 = name)).map (·.2)) := by
  simp only [find?, bindAll, List.find?_append, Option.map_or]

/-! ## What is gained -/

namespace Env

variable {env env₁ env₂ env₃ : Env}

/-- From the first environment to the second one the given declarations were made in the current
scope, and nothing else happened to the open scopes. -/
structure Gains (env : Env) (declared : List (Declaration × SymbolRef)) (env' : Env) : Prop where
  /-- The scopes that are open are the same. -/
  openScopes : env'.table.openScopes = env.table.openScopes
  /-- The current scope has the new bindings behind those it had, and the others are unchanged. -/
  frames : env'.table.frames
    = env.table.current.bindAll (bound declared) :: env.table.frames.tail
  /-- The first declaration of a name that the scope did not bind does not fail. -/
  first : ∀ name entry, env.table.current.find? name = none →
    declared.find? (·.1.name = name) = some entry → ∃ id, entry.2 = .ok id
  /-- A name that is newly bound stands for the symbol of its declaration. -/
  declares : ∀ entry ∈ declared, env'.table.Declares entry.1 entry.2

theorem Gains.current {declared : List (Declaration × SymbolRef)} (h : env₁.Gains declared env₂) :
    env₂.table.current = env₁.table.current.bindAll (bound declared) := by
  have hframes := h.frames
  rw [SymbolTable.frames_eq] at hframes
  exact (List.cons.inj hframes).1

/-- Nothing was declared if the open scopes are what they were. -/
theorem Gains.of_frames (hopen : env₂.table.openScopes = env₁.table.openScopes)
    (hframes : env₂.table.frames = env₁.table.frames) : env₁.Gains [] env₂ where
  openScopes := hopen
  frames := by
    have hbound : env₁.table.current.bindAll (bound []) = env₁.table.current := Scope.bindAll_nil _
    rw [hframes, hbound, ← SymbolTable.frames_eq]
  first _ _ _ h := by cases h
  declares _ h := absurd h List.not_mem_nil

theorem Gains.refl (env : Env) : env.Gains [] env := .of_frames rfl rfl

theorem Gains.trans {declared declared' : List (Declaration × SymbolRef)}
    (h : env₁.Gains declared env₂) (h' : env₂.Gains declared' env₃)
    (hgrows : env₂.table.Grows env₃.table) : env₁.Gains (declared ++ declared') env₃ where
  openScopes := h'.openScopes.trans h.openScopes
  frames := by
    rw [h'.frames, h.current, h.frames, List.tail_cons, bound_append, Scope.bindAll_append]
  first := by
    intro name entry hnew hfind
    rw [List.find?_append] at hfind
    cases hfirst : declared.find? (·.1.name = name) with
    | some earlier =>
      rw [hfirst, Option.some_or] at hfind
      cases hfind
      exact h.first name _ hnew hfirst
    | none =>
      rw [hfirst, Option.none_or] at hfind
      refine h'.first name entry ?_ hfind
      rw [h.current, Scope.find?_bindAll, hnew, find?_bound_of_none hfirst]
      rfl
  declares := by
    intro entry hentry
    rcases List.mem_append.mp hentry with hentry | hentry
    · exact (h.declares entry hentry).mono hgrows
    · exact h'.declares entry hentry

end Env

/-! ## The scopes around a statement -/

theorem Env.frames_leave {env env' : Env} (h : env'.table.frames.tail = env.table.frames) :
    (env.leave env').table.frames = env.table.frames := by
  have hlength := congrArg List.length h
  rw [List.length_tail, SymbolTable.length_frames, SymbolTable.length_frames] at hlength
  have hdrop : env'.table.nested.length - (env.table.depth - 1) = 1 := by
    simp only [SymbolTable.depth] at hlength ⊢
    omega
  rw [Env.leave, SymbolTable.frames_closeTo, hdrop, List.drop_one, h]

/-- The scopes around the current one are not written to, not even in a block. -/
theorem stable_outer : Stable fun env env' =>
    env.table.Formed → env'.table.Formed ∧ env'.table.frames.tail = env.table.frames.tail where
  refl _ h := ⟨h, rfl⟩
  trans h h' hformed := by
    obtain ⟨hformed', hframes⟩ := h hformed
    obtain ⟨hformed'', hframes'⟩ := h' hformed'
    exact ⟨hformed'', hframes'.trans hframes⟩
  bind {symbol} env _ hformed := by
    refine ⟨hformed.bindCurrent symbol, ?_⟩
    rw [Env.bindCurrent, SymbolTable.frames_bindCurrent hformed, List.tail_cons]
  name _ _ h := ⟨h, rfl⟩
  block kind env env' h hformed := by
    obtain ⟨hformed', hframes⟩ := h (hformed.enter kind)
    rw [Env.enter, SymbolTable.frames_enter hformed, List.tail_cons] at hframes
    exact ⟨hformed'.closeTo _, by rw [Env.frames_leave hframes]⟩

namespace Analysis

variable {α : Type} {env : Env}

/-- A step in a block of its own leaves the open scopes as they are. -/
theorem gains_inBlock (h : env.table.Formed) (kind : BlockKind) {step : Analysis α}
    (hstep : ∀ {R : Env → Env → Prop}, Stable R → Keeps R step) :
    env.Gains [] (inBlock kind step env).value.2 := by
  have hnested := stable_nested.inBlock kind (hstep stable_nested) env
  refine .of_frames ?_ ?_
  · rw [SymbolTable.openScopes, hnested, SymbolTable.openScopes]
  · obtain ⟨-, hframes⟩ := hstep stable_outer (env.enter kind) (h.enter kind)
    rw [Env.enter, SymbolTable.frames_enter h, List.tail_cons] at hframes
    rw [value_inBlock]
    exact Env.frames_leave hframes

theorem gains_declareSymbol (h : env.table.Formed) (symbol : Symbol) :
    env.Gains [(symbol.declaration, (declareSymbol symbol env).value.1)]
      (declareSymbol symbol env).value.2 := by
  have hdeclares := Tree.Stmt.declares_declareSymbol symbol env
  cases hbinds : env.table.current.binds symbol.name with
  | true =>
    rw [(declareSymbol_of_binds hbinds).1] at hdeclares ⊢
    refine ⟨rfl, ?_, ?_, List.forall_mem_singleton.mpr hdeclares⟩
    · rw [SymbolTable.frames_eq]
      exact congrArg (· :: _) (Scope.bindAll_nil _).symm
    · intro name entry hnew hfind
      have hname : entry.1.name = name := by simpa using List.find?_some hfind
      have hentry := List.mem_singleton.mp (List.mem_of_find?_eq_some hfind)
      rw [hentry] at hname
      have hunbound : env.table.current.binds symbol.name = false := by
        rw [Scope.binds, show symbol.name = name from hname, hnew, Option.isSome_none]
      rw [hunbound] at hbinds
      cases hbinds
  | false =>
    rw [(declareSymbol_of_not_binds hbinds).1] at hdeclares ⊢
    refine ⟨rfl, ?_, ?_, List.forall_mem_singleton.mpr hdeclares⟩
    · rw [Env.bindCurrent, SymbolTable.frames_bindCurrent h]
      rfl
    · intro name entry _ hfind
      have hentry := List.mem_singleton.mp (List.mem_of_find?_eq_some hfind)
      exact ⟨_, congrArg Prod.snd hentry⟩

end Analysis

/-! ## Statements -/

namespace Tree.Stmt

open Analysis

variable {env : Env}

/-- What the statement declares in the block it stands in, with the symbols it gets in `env`. -/
def declared (s : Stmt) (env : Env) : List (Declaration × SymbolRef) :=
  s.blockDeclarations.zip (s.analyze env).value.1.blockSymbols

theorem length_blockSymbols (s : Stmt) (env : Env) :
    (s.analyze env).value.1.blockSymbols.length = s.blockDeclarations.length := by
  cases s <;> rw [analyze] <;> rfl

theorem gains_analyzeBranches (h : env.table.Formed) (branches : List (Expr × List Stmt)) :
    env.Gains [] (analyzeBranches branches env).value.2 := by
  induction branches generalizing env with
  | nil => exact .refl env
  | cons branch branches ih =>
    obtain ⟨cond, body⟩ := branch
    rw [(analyzeBranches_cons env cond body branches).1]
    have hbody := gains_inBlock h .branch fun hR => hR.analyzeAll body
    have hformed := stable_formed.inBlock .branch (stable_formed.analyzeAll body) env h
    exact hbody.trans (ih hformed) (stable_grows.analyzeBranches branches _)

theorem gains_analyzeOtherwise (h : env.table.Formed) (otherwise : Option (List Stmt)) :
    env.Gains [] (analyzeOtherwise otherwise env).value.2 := by
  cases otherwise with
  | none => exact .refl env
  | some body =>
    rw [(analyzeOtherwise_some env body).1]
    exact gains_inBlock h .branch fun hR => hR.analyzeAll body

/-- What a statement changes in the open scopes is what it declares in the block it stands in. -/
theorem gains_analyze (h : env.table.Formed) (s : Stmt) :
    env.Gains (s.declared env) (s.analyze env).value.2 := by
  unfold declared
  cases s with
  | qubits size loc =>
    rw [(analyze_qubits env size loc).1]
    have hsize : ∀ n, (env.table.registerSize (size.analyze env.table).value).value = some n →
        IsRegisterSize n := fun _ => isRegisterSize_registerSize
    have hq := fits_register .qubit hsize "q" loc
    have hb := fits_register .bit hsize "b" loc
    have hformed := stable_formed.declareSymbol hq env h
    exact (gains_declareSymbol h _).trans (gains_declareSymbol hformed _)
      (stable_grows.declareSymbol hb _)
  | declare name type init loc =>
    rw [(analyze_declare env name type init loc).1]
    show env.Gains [(⟨name.name, type.symbolKind, name.loc⟩, _)] _
    rw [← symbolKind_analyzeType type env]
    exact gains_declareSymbol h ⟨name.name, _, _, name.loc⟩
  | map target name loc =>
    rw [(analyze_map env target name loc).1]
    exact gains_declareSymbol h ⟨name.name, .mapping, _, name.loc⟩
  | instruction i =>
    rw [(analyze_instruction env i).1]
    exact .refl env
  | bundle is loc =>
    rw [(analyze_bundle env is loc).1]
    exact .refl env
  | subcircuit name iterations body loc =>
    rw [(analyze_subcircuit env name iterations body loc).1]
    have hnamed : (nameSubcircuit name env).value.2.table = env.table := table_nameSubcircuit name env
    have hformed : (nameSubcircuit name env).value.2.table.Formed := by rwa [hnamed]
    have hbody := gains_inBlock hformed .subcircuit fun hR => hR.analyzeAll body
    have hstart : env.Gains [] (nameSubcircuit name env).value.2 :=
      .of_frames (by rw [hnamed]) (by rw [hnamed])
    exact hstart.trans hbody (stable_grows.inBlock .subcircuit (stable_grows.analyzeAll body) _)
  | assign lhs rhs loc =>
    rw [(analyze_assign env lhs rhs loc).1]
    exact .refl env
  | ifElse branches otherwise loc =>
    rw [(analyze_ifElse env branches otherwise loc).1]
    have hformed := stable_formed.analyzeBranches branches env h
    exact (gains_analyzeBranches h branches).trans (gains_analyzeOtherwise hformed otherwise)
      (stable_grows.analyzeOtherwise otherwise _)
  | whileLoop cond body loc =>
    rw [(analyze_whileLoop env cond body loc).1]
    exact gains_inBlock h .loop fun hR => hR.analyzeAll body
  | repeatUntil body cond loc =>
    rw [(analyze_repeatUntil env body cond loc).1]
    exact gains_inBlock h .loop fun hR => hR.analyzeAll body
  | foreach name first last body loc =>
    rw [(analyze_foreach env name first last body loc).1]
    -- the variable is declared in the scope of the body, so it goes with that scope
    have hfits : (Symbol.mk name.name .var .int name.loc).Fits := rfl
    have hstep {R : Env → Env → Prop} (hR : Stable R) :
        Keeps R (declareSymbol ⟨name.name, .var, .int, name.loc⟩ >>= fun _ => analyzeAll body) :=
      hR.compositional.seq (hR.compositional.declareSymbol hfits) fun _ => hR.analyzeAll body
    exact gains_inBlock h .loop hstep
  | loopControl control loc =>
    rw [(analyze_loopControl env control loc).1]
    exact .refl env

theorem gains_analyzeAll (h : env.table.Formed) (ss : List Stmt) :
    env.Gains ((ss.flatMap blockDeclarations).zip
        ((analyzeAll ss env).value.1.flatMap Typed.Stmt.blockSymbols))
      (analyzeAll ss env).value.2 := by
  induction ss generalizing env with
  | nil => exact .refl env
  | cons s ss ih =>
    have hfirst := gains_analyze h s
    have hrest := ih (stable_formed.analyze s env h)
    have hgains := hfirst.trans hrest (stable_grows.analyzeAll ss _)
    rw [(analyzeAll_cons env s ss).1, List.flatMap_cons, List.flatMap_cons,
      List.zip_append (length_blockSymbols s env).symm]
    exact hgains

end Tree.Stmt

/-! ## Programs -/

namespace SymbolTable

variable {table : SymbolTable} {scope : Scope}

/-- Only the global scope is open, and a name stands there for the symbol of its first declaration
among the given ones, or for nothing if it is not declared among them. -/
structure TopLevel (table : SymbolTable) (declared : List (Declaration × SymbolRef)) : Prop where
  depth : table.depth = 1
  kind : table.current.kind = .global
  inLoop : table.inLoop = false
  missing : ∀ name, declared.find? (·.1.name = name) = none →
    table.lookup name = .error .missingBinding
  found : ∀ name declaration ref, declared.find? (·.1.name = name) = some (declaration, ref) →
    ∃ symbol id, ref = .ok id ∧ symbol.declaration = declaration
      ∧ table.lookup name = .ok { symbol, id, level := 0 }

theorem binding?_of_frames (h : table.Formed) (hframes : table.frames = [scope]) (name : String) :
    table.binding? name = (scope.find? name).map (·, scope.level) := by
  rw [binding?, visible_eq_frames h, hframes, List.findSome?_cons, List.findSome?_nil]
  cases scope.find? name <;> rfl

/-- What has been gained since the global scope was empty is what a name stands for. -/
theorem topLevel_of_gains {dialect : Dialect} {declared : List (Declaration × SymbolRef)} {env : Env}
    (hformed : env.table.Formed) (h : (Env.new dialect).Gains declared env) :
    env.table.TopLevel declared := by
  have hframes : env.table.frames = [Scope.global.bindAll (bound declared)] := h.frames
  have hcurrent : env.table.current = Scope.global.bindAll (bound declared) := h.current
  have hfind : ∀ name, (Scope.global.bindAll (bound declared)).find? name
      = ((bound declared).find? (·.1 = name)).map (·.2) := by
    intro name
    rw [Scope.find?_bindAll]
    exact Option.none_or
  refine ⟨?_, ?_, ?_, ?_, ?_⟩
  · rw [← length_frames, hframes, List.length_singleton]
  · rw [hcurrent]
    rfl
  · rw [inLoop_eq_any, hframes]
    rfl
  · intro name hnone
    have hbinding : env.table.binding? name = none := by
      rw [binding?_of_frames hformed hframes, hfind, find?_bound_of_none hnone]
      rfl
    rw [lookup, hbinding]
  · intro name declaration ref hsome
    obtain ⟨id, rfl⟩ : ∃ id, ref = .ok id := h.first name (declaration, ref) rfl hsome
    have hbinding : env.table.binding? name = some (id, 0) := by
      rw [binding?_of_frames hformed hframes, hfind, find?_bound_of_some hsome]
      rfl
    have hdeclares := h.declares _ (List.mem_of_find?_eq_some hsome) id rfl
    obtain ⟨symbol, hget, hdeclaration⟩ := Option.map_eq_some_iff.mp hdeclares
    exact ⟨symbol, id, rfl, hdeclaration, lookup_eq_ok_iff.mpr ⟨hbinding, hget⟩⟩

end SymbolTable

namespace Tree.Program

variable {program : Program} {dialect : Dialect}

/-- The declarations outside of all blocks of a program, with the symbols they get. -/
def declaredOutside (program : Program) : List (Declaration × SymbolRef) :=
  (program.stmts.flatMap Stmt.blockDeclarations).zip
    (program.analyze.program.stmts.flatMap Typed.Stmt.blockSymbols)

/-- Wherever a statement is analysed in a program, it changes the open scopes by what it declares in
the block it stands in and by nothing else. At the end the global scope alone is open, and it binds
what is declared outside of all blocks. -/
theorem scopes_analyze (h : program.dialect? = some dialect) :
    (∀ site ∈ program.sites dialect, ∀ s : Stmt,
        site.env.Gains (s.declared site.env) (s.analyze site.env).value.2)
      ∧ ∃ table, program.analyze.table = some table ∧ table.TopLevel program.declaredOutside := by
  have hnew : (Env.new dialect).table.Formed := SymbolTable.formed_new dialect
  refine ⟨?_, program.finalTable dialect, table_analyze h, ?_⟩
  · intro site hsite s
    exact Stmt.gains_analyze (placed_of_mem_sites hsite).ready.formed s
  · have hformed := stable_formed.analyzeAll program.stmts (Env.new dialect) hnew
    have hgains := Stmt.gains_analyzeAll hnew program.stmts
    rw [declaredOutside, analyze_eq h]
    exact SymbolTable.topLevel_of_gains hformed hgains

/-- `version 3; foreach i = 0 .. 1 { int x }; float x; bool x; if (true) { qubits 2 }`. -/
def twoLevels : Program :=
  let loc : Location := ⟨1, 1⟩
  { version := some ⟨[3], loc⟩
    stmts :=
      [.foreach ⟨"i", loc⟩ (.int loc 0) (.int loc 1)
          [.declare ⟨"x", loc⟩ (.scalar .int) none loc] loc,
        .declare ⟨"x", loc⟩ (.scalar .float) none loc,
        .declare ⟨"x", loc⟩ (.scalar .bool) none loc,
        .ifElse [(.literal (.bool true) loc, [.qubits (.int loc 2) loc])] none loc] }

/-- The `x` of the loop is symbol 1 and is gone at the end, as is the register `q`; the second `x`
outside of it fails. -/
theorem scopes_analyze_twoLevels :
    twoLevels.dialect? = some .v3
      ∧ twoLevels.declaredOutside.map (·.2) = [.ok 2, .error .alreadyBound]
      ∧ ∃ table, twoLevels.analyze.table = some table
        ∧ table.lookup "q" = .error .missingBinding
        ∧ ∃ symbol, table.lookup "x" = .ok { symbol, id := 2, level := 0 } := by
  have hdialect : twoLevels.dialect? = some .v3 := rfl
  obtain ⟨-, table, htable, htop⟩ := scopes_analyze hdialect
  have hq : twoLevels.declaredOutside.find? (·.1.name = "q") = none := by decide +kernel
  have hx : twoLevels.declaredOutside.find? (·.1.name = "x")
      = some (⟨"x", .var, ⟨1, 1⟩⟩, .ok 2) := by decide +kernel
  obtain ⟨symbol, id, hid, -, hlookup⟩ := htop.found "x" _ _ hx
  cases hid
  exact ⟨hdialect, by decide +kernel, table, htable, htop.missing "q" hq, symbol, hlookup⟩

end Tree.Program

end Cqasm
