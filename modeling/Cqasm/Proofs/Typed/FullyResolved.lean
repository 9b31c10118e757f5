import Cqasm.Proofs.Typed.Resolved

/-!
# Programs without errors

A program without errors is fully resolved if and only if every index in it selects no more elements
than a reference can have (`isFullyResolved_iff_sized`). The proof follows the statements, each of
which is resolved if it is sized and if the symbols in front of it have types, and carries along that
the symbols behind it have types, too.

* `Env.Defined` : the dialect is the given one and all symbols have types;
* `Tracks` : a part of a program is resolved if and only if it is sized;
* `Tree.Program.overlapping` : a program without errors that is not fully resolved.
-/

namespace Cqasm

open Diagnostics (Clean clean_append)
open Typed (Resolved resolved_nil resolved_cons resolved_append)

namespace Env

variable {dialect : Dialect} {env env' : Env}

/-- The symbols are those of a program of the dialect, and all of them have types. -/
structure Defined (dialect : Dialect) (env : Env) : Prop where
  dialect : env.table.dialect = dialect
  symbols : env.table.Defined

theorem defined_new (dialect : Dialect) : (Env.new dialect).Defined dialect :=
  ⟨rfl, fun _ hmem => absurd hmem List.not_mem_nil⟩

theorem Defined.enter (h : env.Defined dialect) (kind : BlockKind) :
    (env.enter kind).Defined dialect := ⟨h.dialect, h.symbols⟩

theorem Defined.leave (h : env'.Defined dialect) (env : Env) : (env.leave env').Defined dialect :=
  ⟨h.dialect, h.symbols⟩

theorem Defined.nameSubcircuit (h : env.Defined dialect) (ident : Tree.Ident) :
    (Analysis.nameSubcircuit ident env).value.2.Defined dialect :=
  ⟨by rw [Analysis.table_nameSubcircuit, h.dialect],
    by rw [Analysis.table_nameSubcircuit]; exact h.symbols⟩

theorem Defined.bindCurrent (h : env.Defined dialect) {symbol : Symbol}
    (hty : symbol.ty ≠ .undefined) : (env.bindCurrent symbol).Defined dialect where
  dialect := h.dialect
  symbols := by
    intro other hmem
    rcases List.mem_append.mp hmem with hmem | hmem
    · exact h.symbols other hmem
    · rw [List.mem_singleton.mp hmem]
      exact hty

end Env

/-- A part of a program is resolved if and only if it is sized, and if so, all symbols behind it have
types. -/
structure Tracks (dialect : Dialect) (env : Env) (resolved sized : Prop) : Prop where
  iff : resolved ↔ sized
  defined : resolved → env.Defined dialect

namespace Tracks

variable {dialect : Dialect} {env env' : Env} {resolved resolved' sized sized' : Prop}

theorem congr (h : Tracks dialect env resolved sized) (hresolved : resolved' ↔ resolved)
    (hsized : sized' ↔ sized) : Tracks dialect env resolved' sized' where
  iff := hresolved.trans (h.iff.trans hsized.symm)
  defined hr := h.defined (hresolved.mp hr)

/-- The second part is analysed behind the first. -/
theorem seq (h : Tracks dialect env resolved sized)
    (h' : env.Defined dialect → Tracks dialect env' resolved' sized') :
    Tracks dialect env' (resolved ∧ resolved') (sized ∧ sized') where
  iff := by
    constructor
    · rintro ⟨hr, hr'⟩
      exact ⟨h.iff.mp hr, (h' (h.defined hr)).iff.mp hr'⟩
    · rintro ⟨hs, hs'⟩
      have hr := h.iff.mpr hs
      exact ⟨hr, (h' (h.defined hr)).iff.mpr hs'⟩
  defined hr := (h' (h.defined hr.1)).defined hr.2

theorem leave (h : Tracks dialect env' resolved sized) (env : Env) :
    Tracks dialect (env.leave env') resolved sized :=
  ⟨h.iff, fun hr => (h.defined hr).leave env⟩

/-- A part that leaves the environment as it is. -/
theorem reads (h : env.Defined dialect) (hiff : resolved ↔ sized) :
    Tracks dialect env resolved sized := ⟨hiff, fun _ => h⟩

end Tracks

namespace Tree

open Analysis

variable {dialect : Dialect} {env : Env}

namespace Expr

theorem sizedAll_iff (dialect : Dialect) (es : List Expr) :
    SizedAll dialect es ↔ ∀ e ∈ es, e.Sized dialect := by
  induction es with
  | nil => exact iff_of_true trivial fun _ hmem => absurd hmem List.not_mem_nil
  | cons e es ih => rw [SizedAll, ih, List.forall_mem_cons]

theorem resolved_iff_sized (h : env.Defined dialect) {e : Expr}
    (hclean : (e.analyze env.table).log.Clean) :
    Resolved (e.analyze env.table).value.resolutions ↔ e.Sized dialect := by
  rw [resolved_expr h.symbols e hclean, h.dialect]

theorem resolved_condition (h : env.Defined dialect) {e : Expr}
    (hclean : (condition e env).log.Clean) :
    Resolved (e.analyze env.table).value.resolutions ↔ e.Sized dialect := by
  rw [log_condition, clean_append] at hclean
  exact resolved_iff_sized h hclean.1

end Expr

namespace Stmt

/-- Every index in the expressions of the statement itself selects no more elements than a reference
can have. The number of iterations of a subcircuit is not among them. -/
def Sized (dialect : Dialect) (s : Stmt) : Prop := ∀ e ∈ s.ownExprs, e.Sized dialect

/-! ## Parts of statements -/

theorem resolved_init (h : env.Defined dialect) {ty : Ty} {init : Option Expr}
    (hclean : (analyzeInit ty init env).log.Clean) :
    Resolved (Typed.Expr.resolutionsOpt (analyzeInit ty init env).value.1)
      ↔ ∀ e ∈ init.toList, e.Sized dialect := by
  cases init with
  | none => exact iff_of_true resolved_nil fun _ hmem => absurd hmem List.not_mem_nil
  | some e =>
    rw [(analyzeInit_some env ty e).2, clean_append] at hclean
    rw [(analyzeInit_some env ty e).1, Typed.Expr.resolutionsOpt,
      Expr.resolved_iff_sized h hclean.1, Option.toList_some, List.forall_mem_singleton]

theorem resolved_gateCondition (h : env.Defined dialect) {cond : Option Expr}
    (hclean : (analyzeCondition cond env).log.Clean) :
    Resolved (Typed.Expr.resolutionsOpt (analyzeCondition cond env).value.1)
      ↔ ∀ e ∈ cond.toList, e.Sized dialect := by
  cases cond with
  | none => exact iff_of_true resolved_nil fun _ hmem => absurd hmem List.not_mem_nil
  | some e =>
    rw [(analyzeCondition_some env e).2] at hclean
    rw [(analyzeCondition_some env e).1, Typed.Expr.resolutionsOpt,
      Expr.resolved_condition h hclean, Option.toList_some, List.forall_mem_singleton]

/-- Without an error, an instruction with resolved operands has an overload. -/
theorem resolved_instruction (h : env.Defined dialect) {i : Instruction}
    (hclean : (analyzeInstruction i env).log.Clean) :
    Resolved (analyzeInstruction i env).value.1.resolutions
      ↔ ∀ e ∈ i.operands ++ i.condition.toList, e.Sized dialect := by
  obtain ⟨hvalue, hlog⟩ := analyzeInstruction_eq env i
  rw [hlog, clean_append, clean_append] at hclean
  obtain ⟨⟨hoperands, hcond⟩, hoverload⟩ := hclean
  have hsome
      (hr : Resolved (Typed.Expr.resolutionsAll (Expr.analyzeAll env.table i.operands).value)) :=
    env.table.isSome_resolveInstruction (Typed.Expr.tys_ne_undefined hr) hoverload
  have hoperands' := Expr.resolved_exprs h.symbols i.operands hoperands
  rw [h.dialect, Expr.sizedAll_iff] at hoperands'
  rw [hvalue, Typed.GateCall.resolutions, resolved_cons, resolved_append, List.forall_mem_append,
    resolved_gateCondition h hcond, hoperands']
  constructor
  · rintro ⟨-, hc, ho⟩
    exact ⟨ho, hc⟩
  · rintro ⟨ho, hc⟩
    exact ⟨hsome (hoperands'.mpr ho), hc, ho⟩

theorem resolved_instructions (h : env.Defined dialect) {is : List Instruction}
    (hclean : (analyzeInstructions is env).log.Clean) :
    Resolved ((analyzeInstructions is env).value.1.flatMap Typed.GateCall.resolutions)
      ↔ ∀ e ∈ is.flatMap (fun i => i.operands ++ i.condition.toList), e.Sized dialect := by
  induction is with
  | nil => exact iff_of_true resolved_nil fun _ hmem => absurd hmem List.not_mem_nil
  | cons i is ih =>
    obtain ⟨hvalue, hlog⟩ := analyzeInstructions_cons env i is
    rw [hlog, clean_append] at hclean
    rw [List.flatMap_cons, List.forall_mem_append, hvalue, List.flatMap_cons, resolved_append,
      resolved_instruction h hclean.1, ih hclean.2]

/-! ## Declarations -/

/-- Without an error, a register with a size that has a type has one, too. -/
theorem ty_register_ne_undefined (kind : RegisterKind) {size : Typed.Expr}
    (hclean : (env.table.registerSize size).log.Clean) (hsize : size.ty ≠ .undefined) :
    kind.ty (env.table.registerSize size).value ≠ .undefined := by
  obtain ⟨n, hn, hpos⟩ := (SymbolTable.clean_registerSize _ hclean).resolve_left hsize
  rw [SymbolTable.value_registerSize, hn, Option.bind_some, if_pos hpos]
  cases kind <;> exact fun h => by cases h

/-- Without an error, a declaration whose size has a type is one of a symbol that has a type. -/
theorem resolved_type (h : env.Defined dialect) {type : TypeSpec}
    (hclean : (analyzeType type env).log.Clean) (init : Option Expr) (name : Ident)
    (loc : Location) :
    (Resolved (Typed.Expr.resolutionsOpt (analyzeType type env).value.1.1)
        ∧ (∀ e ∈ init.toList, e.Sized dialect) ↔ (declare name type init loc).Sized dialect)
      ∧ (Resolved (Typed.Expr.resolutionsOpt (analyzeType type env).value.1.1) →
        (analyzeType type env).value.1.2.1 ≠ .undefined) := by
  cases type with
  | scalar kind =>
    refine ⟨and_iff_right resolved_nil, fun _ => ?_⟩
    cases kind <;> exact fun h => by cases h
  | register kind size =>
    cases size with
    | none =>
      refine ⟨and_iff_right resolved_nil, fun _ => ?_⟩
      cases kind <;> exact fun h => by cases h
    | some size =>
      obtain ⟨hvalue, hlog⟩ := analyzeType_some env kind size
      rw [hlog, clean_append] at hclean
      rw [hvalue, Typed.Expr.resolutionsOpt]
      refine ⟨?_, fun hr => ty_register_ne_undefined kind hclean.2 (Typed.Expr.ty_ne_undefined hr)⟩
      rw [Expr.resolved_iff_sized h hclean.1, Sized, ownExprs, Option.toList_some,
        List.singleton_append, List.forall_mem_cons]

theorem tracks_declareSymbol {symbol : Symbol} {resolved sized : Prop}
    (h : Tracks dialect env resolved sized) (hclean : (declareSymbol symbol env).log.Clean)
    (hty : resolved → symbol.ty ≠ .undefined) :
    Tracks dialect (declareSymbol symbol env).value.2
      ((∃ id, (declareSymbol symbol env).value.1 = .ok id) ∧ resolved) sized := by
  rw [declareSymbol_of_clean hclean]
  refine ⟨?_, fun hr => (h.defined hr.2).bindCurrent (hty hr.2)⟩
  rw [and_iff_right ⟨_, rfl⟩, h.iff]

/-! ## Statements -/

theorem tracks_qubits (h : env.Defined dialect) {size : Expr} {loc : Location}
    (hclean : ((qubits size loc).analyze env).log.Clean) :
    Tracks dialect ((qubits size loc).analyze env).value.2
      (Resolved ((qubits size loc).analyze env).value.1.resolutions)
      ((qubits size loc).Sized dialect) := by
  obtain ⟨hvalue, hlog⟩ := analyze_qubits env size loc
  rw [hlog, clean_append, clean_append, clean_append] at hclean
  obtain ⟨⟨⟨hexpr, hsize⟩, hq⟩, hb⟩ := hclean
  have hty (hr : Resolved (size.analyze env.table).value.resolutions) (kind : RegisterKind) :=
    ty_register_ne_undefined kind hsize (Typed.Expr.ty_ne_undefined hr)
  have hiff := Expr.resolved_iff_sized h hexpr
  have htracks := tracks_declareSymbol (tracks_declareSymbol (Tracks.reads h hiff) hq
    fun hr => hty hr .qubit) hb fun hr => hty hr.2 .bit
  rw [hvalue, Typed.Stmt.resolutions, resolved_cons, resolved_cons]
  refine htracks.congr ?_ List.forall_mem_singleton
  exact and_left_comm

theorem tracks_declare (h : env.Defined dialect) {name : Ident} {type : TypeSpec}
    {init : Option Expr} {loc : Location}
    (hclean : ((declare name type init loc).analyze env).log.Clean) :
    Tracks dialect ((declare name type init loc).analyze env).value.2
      (Resolved ((declare name type init loc).analyze env).value.1.resolutions)
      ((declare name type init loc).Sized dialect) := by
  obtain ⟨hvalue, hlog⟩ := analyze_declare env name type init loc
  rw [hlog, clean_append, clean_append] at hclean
  obtain ⟨⟨htype, hinit⟩, hsymbol⟩ := hclean
  obtain ⟨hiff, hty⟩ := resolved_type h htype init name loc
  rw [← resolved_init h hinit] at hiff
  have htracks := tracks_declareSymbol (Tracks.reads h hiff) hsymbol fun hr => hty hr.1
  rw [hvalue, Typed.Stmt.resolutions, resolved_cons, resolved_append]
  exact htracks

theorem tracks_map (h : env.Defined dialect) {target : Expr} {name : Ident} {loc : Location}
    (hclean : ((map target name loc).analyze env).log.Clean) :
    Tracks dialect ((map target name loc).analyze env).value.2
      (Resolved ((map target name loc).analyze env).value.1.resolutions)
      ((map target name loc).Sized dialect) := by
  obtain ⟨hvalue, hlog⟩ := analyze_map env target name loc
  rw [hlog, clean_append] at hclean
  have hiff := Expr.resolved_iff_sized h hclean.1
  have htracks := tracks_declareSymbol (Tracks.reads h hiff) hclean.2 Typed.Expr.ty_ne_undefined
  rw [hvalue, Typed.Stmt.resolutions, resolved_cons]
  exact htracks.congr Iff.rfl List.forall_mem_singleton

theorem tracks_assign (h : env.Defined dialect) {lhs rhs : Expr} {loc : Location}
    (hclean : ((assign lhs rhs loc).analyze env).log.Clean) :
    Tracks dialect ((assign lhs rhs loc).analyze env).value.2
      (Resolved ((assign lhs rhs loc).analyze env).value.1.resolutions)
      ((assign lhs rhs loc).Sized dialect) := by
  obtain ⟨hvalue, hlog⟩ := analyze_assign env lhs rhs loc
  rw [hlog, clean_append, clean_append] at hclean
  rw [hvalue]
  refine Tracks.reads h ?_
  rw [Typed.Stmt.resolutions, resolved_append, Expr.resolved_iff_sized h hclean.1.1,
    Expr.resolved_iff_sized h hclean.1.2, Sized, ownExprs, List.forall_mem_cons,
    List.forall_mem_singleton]

mutual

/-- Without an error, a statement is resolved if and only if it and the statements nested in it are
sized. -/
theorem tracks_stmt {env : Env} (h : env.Defined dialect) : (s : Stmt) →
    (s.analyze env).log.Clean →
    Tracks dialect (s.analyze env).value.2 (Resolved (s.analyze env).value.1.resolutions)
      (∀ s' ∈ s.nodes, s'.Sized dialect)
  | .qubits size loc => fun hclean =>
    (tracks_qubits h hclean).congr Iff.rfl List.forall_mem_singleton
  | .declare name type init loc => fun hclean =>
    (tracks_declare h hclean).congr Iff.rfl List.forall_mem_singleton
  | .map target name loc => fun hclean =>
    (tracks_map h hclean).congr Iff.rfl List.forall_mem_singleton
  | .assign lhs rhs loc => fun hclean =>
    (tracks_assign h hclean).congr Iff.rfl List.forall_mem_singleton
  | .instruction i => fun hclean => by
    obtain ⟨hvalue, hlog⟩ := analyze_instruction env i
    rw [hlog] at hclean
    have hiff : _ ↔ (instruction i).Sized dialect := resolved_instruction h hclean
    rw [hvalue]
    exact (Tracks.reads h hiff).congr Iff.rfl List.forall_mem_singleton
  | .bundle is loc => fun hclean => by
    obtain ⟨hvalue, hlog⟩ := analyze_bundle env is loc
    rw [hlog] at hclean
    have hiff : _ ↔ (bundle is loc).Sized dialect := resolved_instructions h hclean
    rw [hvalue]
    exact (Tracks.reads h hiff).congr Iff.rfl List.forall_mem_singleton
  | .loopControl control loc => fun _ => by
    rw [(analyze_loopControl env control loc).1]
    refine Tracks.reads h (iff_of_true resolved_nil ?_)
    exact List.forall_mem_singleton.mpr fun _ hmem => absurd hmem List.not_mem_nil
  | .subcircuit name iterations body loc => fun hclean => by
    obtain ⟨hvalue, hlog⟩ := analyze_subcircuit env name iterations body loc
    rw [hlog, clean_append] at hclean
    have hbody := tracks_stmts ((h.nameSubcircuit name).enter .subcircuit) body hclean.2
    rw [hvalue, Typed.Stmt.resolutions]
    refine (hbody.leave _).congr Iff.rfl ?_
    rw [nodes, List.forall_mem_cons]
    exact and_iff_right fun _ hmem => absurd hmem List.not_mem_nil
  | .ifElse branches otherwise loc => fun hclean => by
    obtain ⟨hvalue, hlog⟩ := analyze_ifElse env branches otherwise loc
    rw [hlog, clean_append] at hclean
    have htracks := (tracks_branches h branches hclean.1).seq fun hbehind =>
      tracks_otherwise hbehind otherwise hclean.2
    rw [hvalue, Typed.Stmt.resolutions, resolved_append]
    refine htracks.congr Iff.rfl ?_
    rw [nodes, List.forall_mem_cons, List.forall_mem_append, and_assoc]
    exact Iff.rfl
  | .whileLoop cond body loc => fun hclean => by
    obtain ⟨hvalue, hlog⟩ := analyze_whileLoop env cond body loc
    rw [hlog, clean_append] at hclean
    have hcond := Tracks.reads h (Expr.resolved_condition h hclean.1)
    have htracks := hcond.seq fun _ => (tracks_stmts (h.enter .loop) body hclean.2).leave env
    rw [hvalue, Typed.Stmt.resolutions, resolved_append]
    refine htracks.congr Iff.rfl ?_
    rw [nodes, List.forall_mem_cons, Sized, ownExprs, List.forall_mem_singleton]
  | .repeatUntil body cond loc => fun hclean => by
    obtain ⟨hvalue, hlog⟩ := analyze_repeatUntil env body cond loc
    rw [hlog, clean_append] at hclean
    have hbody := (tracks_stmts (h.enter .loop) body hclean.1).leave env
    have htracks := hbody.seq fun hbehind =>
      Tracks.reads hbehind (Expr.resolved_condition hbehind hclean.2)
    rw [hvalue, Typed.Stmt.resolutions, resolved_append]
    refine htracks.congr Iff.rfl ?_
    rw [nodes, List.forall_mem_cons, Sized, ownExprs, List.forall_mem_singleton, and_comm]
  | .foreach name first last body loc => fun hclean => by
    obtain ⟨hvalue, hlog⟩ := analyze_foreach env name first last body loc
    rw [hlog, clean_append, clean_append, clean_append, log_analyzeBound, log_analyzeBound,
      clean_append, clean_append] at hclean
    obtain ⟨⟨⟨⟨hfirst, -⟩, ⟨hlast, -⟩⟩, hname⟩, hbody⟩ := hclean
    have hbounds := Tracks.reads (h.enter .loop) (and_congr (Expr.resolved_iff_sized h hfirst)
      (Expr.resolved_iff_sized h hlast))
    have hsymbol := tracks_declareSymbol hbounds hname fun _ hty => by cases hty
    have htracks := (hsymbol.seq fun hinner => tracks_stmts hinner body hbody).leave env
    rw [hvalue, Typed.Stmt.resolutions, resolved_cons, resolved_append, resolved_append]
    refine htracks.congr and_assoc.symm ?_
    rw [nodes, List.forall_mem_cons, Sized, ownExprs, List.forall_mem_cons,
      List.forall_mem_singleton]

theorem tracks_stmts {env : Env} (h : env.Defined dialect) : (ss : List Stmt) →
    (analyzeAll ss env).log.Clean →
    Tracks dialect (analyzeAll ss env).value.2
      (Resolved (Typed.Stmt.resolutionsAll (analyzeAll ss env).value.1))
      (∀ s ∈ nodesAll ss, s.Sized dialect)
  | [] => fun _ => Tracks.reads h
    (iff_of_true resolved_nil fun _ hmem => absurd hmem List.not_mem_nil)
  | s :: ss => fun hclean => by
    obtain ⟨hvalue, hlog⟩ := analyzeAll_cons env s ss
    rw [hlog, clean_append] at hclean
    have htracks := (tracks_stmt h s hclean.1).seq fun hbehind => tracks_stmts hbehind ss hclean.2
    rw [hvalue, Typed.Stmt.resolutionsAll, resolved_append]
    exact htracks.congr Iff.rfl List.forall_mem_append

theorem tracks_branches {env : Env} (h : env.Defined dialect) :
    (branches : List (Expr × List Stmt)) → (analyzeBranches branches env).log.Clean →
    Tracks dialect (analyzeBranches branches env).value.2
      (Resolved (Typed.Stmt.resolutionsBranches (analyzeBranches branches env).value.1))
      ((∀ e ∈ branches.map (·.1), e.Sized dialect) ∧ ∀ s ∈ nodesBranches branches, s.Sized dialect)
  | [] => fun _ => Tracks.reads h (iff_of_true resolved_nil
    ⟨fun _ hmem => absurd hmem List.not_mem_nil, fun _ hmem => absurd hmem List.not_mem_nil⟩)
  | (cond, body) :: branches => fun hclean => by
    obtain ⟨hvalue, hlog⟩ := analyzeBranches_cons env cond body branches
    rw [hlog, clean_append, clean_append] at hclean
    obtain ⟨⟨hcond, hbody⟩, hrest⟩ := hclean
    have hbranch := (Tracks.reads h (Expr.resolved_condition h hcond)).seq fun _ =>
      (tracks_stmts (h.enter .branch) body hbody).leave env
    have htracks := hbranch.seq fun hbehind => tracks_branches hbehind branches hrest
    rw [hvalue, Typed.Stmt.resolutionsBranches, resolved_append, resolved_append]
    refine htracks.congr Iff.rfl ?_
    rw [List.map_cons, List.forall_mem_cons, nodesBranches, List.forall_mem_append, and_and_and_comm]

theorem tracks_otherwise {env : Env} (h : env.Defined dialect) :
    (otherwise : Option (List Stmt)) → (analyzeOtherwise otherwise env).log.Clean →
    Tracks dialect (analyzeOtherwise otherwise env).value.2
      (Resolved (Typed.Stmt.resolutionsOtherwise (analyzeOtherwise otherwise env).value.1))
      (∀ s ∈ nodesOtherwise otherwise, s.Sized dialect)
  | none => fun _ => Tracks.reads h
    (iff_of_true resolved_nil fun _ hmem => absurd hmem List.not_mem_nil)
  | some body => fun hclean => by
    obtain ⟨hvalue, hlog⟩ := analyzeOtherwise_some env body
    rw [hlog] at hclean
    rw [hvalue]
    exact (tracks_stmts (h.enter .branch) body hclean).leave env

end

end Stmt

namespace Program

variable {program : Program}

theorem exists_dialect_of_resolved (h : program.analyze.state = .resolved) :
    ∃ dialect, program.dialect? = some dialect ∧ program.analyze.diagnostics.Clean := by
  have hclean : program.analyze.diagnostics.anyErrors = false := by
    unfold AnalysisResult.state at h
    split at h
    · cases h
    · next hno => exact Bool.eq_false_iff.mpr hno
  cases hdialect : program.dialect? with
  | some dialect => exact ⟨dialect, rfl, hclean⟩
  | none =>
    unfold dialect? at hdialect
    rw [analyze, hdialect] at hclean
    exact absurd hclean (Diagnostics.not_clean_singleton rfl)

/-- A program without errors is fully resolved if and only if every index in it, also one in an entry
of an index, selects no more elements than a reference can have. -/
theorem isFullyResolved_iff_sized (h : program.analyze.state = .resolved) :
    ∃ dialect, program.dialect? = some dialect
      ∧ (program.analyze.program.isFullyResolved = true
        ↔ ∀ s ∈ program.nodes, s.Sized dialect) := by
  obtain ⟨dialect, hdialect, hclean⟩ := exists_dialect_of_resolved h
  refine ⟨dialect, hdialect, ?_⟩
  rw [Typed.Program.isFullyResolved_iff]
  rw [analyze_eq hdialect] at hclean ⊢
  exact (Stmt.tracks_stmts (Env.defined_new dialect) program.stmts hclean).iff

/-- `qubit[9223372036854775807] q; map q[0:9223372036854775806, 0:9223372036854775806, 0:1], a`. The
entries lie inside of `q`, and together they select `2 ^ 64` elements. -/
def overlapping : Program :=
  let loc : Location := ⟨1, 1⟩
  let whole : IndexEntry Expr := .range (.int loc 0) (.int loc 9223372036854775806)
  { version := some ⟨[3, 0], loc⟩
    stmts :=
      [.declare ⟨"q", loc⟩ (.register .qubit (some (.int loc 9223372036854775807))) none loc,
        .map (.index ⟨"q", loc⟩ [whole, whole, .range (.int loc 0) (.int loc 1)] loc) ⟨"a", loc⟩
          loc] }

theorem isFullyResolved_iff_sized_overlapping :
    overlapping.analyze.state = .resolved ∧ ∃ dialect, overlapping.dialect? = some dialect
      ∧ (overlapping.analyze.program.isFullyResolved = true
        ↔ ∀ s ∈ overlapping.nodes, s.Sized dialect)
      ∧ overlapping.analyze.program.isFullyResolved = false
      ∧ ∃ s ∈ overlapping.nodes, ¬ s.Sized dialect := by
  have hresolved : overlapping.analyze.state = .resolved := by decide +kernel
  have hfully : overlapping.analyze.program.isFullyResolved = false := by decide +kernel
  obtain ⟨dialect, hdialect, hsized⟩ := isFullyResolved_iff_sized hresolved
  refine ⟨hresolved, dialect, hdialect, hsized, hfully, ?_⟩
  by_contra hnone
  have hall : ∀ s ∈ overlapping.nodes, s.Sized dialect := fun s hs =>
    not_not.mp fun hlarge => hnone ⟨s, hs, hlarge⟩
  rw [hsized.mpr hall] at hfully
  cases hfully

/-- There is a program without errors that is not fully resolved. -/
theorem not_isFullyResolved_of_resolved :
    ¬ ∀ program : Program, program.analyze.state = .resolved →
      program.analyze.program.isFullyResolved = true := by
  intro h
  have hfully := h overlapping (by decide +kernel)
  revert hfully
  decide +kernel

end Program

end Tree

end Cqasm
