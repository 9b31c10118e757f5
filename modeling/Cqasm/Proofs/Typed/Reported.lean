import Cqasm.Proofs.Analysis.Failures
import Cqasm.Proofs.Dialect.Unambiguous
import Cqasm.Proofs.Typed.Walk

/-!
# Failed resolutions are reported

Wherever a typed program holds a name without a symbol or a call without an overload, there is a
diagnostic that says so, at the same location, unless the call has an argument without a type and is
passed over (`reported_analyze`). A call of arguments that all have types is never passed over, since
the tables of the dialects are not ambiguous.

* `Diagnostics.Reports` : there is a diagnostic with the given cause and location;
* `Typed.Expr.Reported`, `Typed.GateCall.Reported` : what could not be resolved is reported;
* `Typed.Program.missingBindings`, `Diagnostics.undeclaredIdentifiers` : the number of references that
  stand for nothing, and of reports about them.
-/

namespace Cqasm

/-! ## Reports -/

namespace Diagnostics

/-- There is a diagnostic with the given cause and location. -/
def Reports (log : Diagnostics) (cause : Cause) (loc : Location) : Prop :=
  ∃ d ∈ log, d.cause = cause ∧ d.loc = loc

theorem Reports.mono {log log' : Diagnostics} {cause : Cause} {loc : Location}
    (h : log.Reports cause loc) (hcause : cause.isFailure = true)
    (hsub : log.failures ⊆ log'.failures) : log'.Reports cause loc := by
  obtain ⟨d, hd, rfl, hloc⟩ := h
  have hmem := hsub (mem_select.mpr ⟨hd, hcause⟩)
  exact ⟨d, (mem_select.mp hmem).1, rfl, hloc⟩

theorem reports_singleton (d : Diagnostic) : Reports [d] d.cause d.loc :=
  ⟨d, List.mem_singleton_self d, rfl, rfl⟩

end Diagnostics

namespace Typed

/-- What could not be resolved in the node itself is reported. A call with an argument without a type
may be passed over. -/
def Expr.Reported (log : Diagnostics) : Expr → Prop
  | name note (.error _) => ∃ name, log.Reports (.undeclaredIdentifier name) note.loc
  | call note function none args => (∃ arg ∈ args, arg.ty = .undefined)
      ∨ log.Reports (.unknownFunction function) note.loc
      ∨ log.Reports (.noMatchingOverload function (args.map (·.ty))) note.loc
  | _ => True

/-- If the instruction has no overload, this is reported, unless an operand has no type. -/
def GateCall.Reported (log : Diagnostics) (call : GateCall) : Prop :=
  call.overload = none → (∃ operand ∈ call.operands, operand.ty = .undefined)
    ∨ ∃ loc, log.Reports (.unknownInstruction call.name) loc
      ∨ log.Reports (.noMatchingOverload call.name (call.operands.map (·.ty))) loc

theorem Expr.Reported.mono {log log' : Diagnostics} {e : Expr} (h : e.Reported log)
    (hsub : log.failures ⊆ log'.failures) : e.Reported log' := by
  cases e with
  | name note symbol =>
    cases symbol with
    | ok id => trivial
    | error error =>
      obtain ⟨name, h⟩ := h
      exact ⟨name, h.mono rfl hsub⟩
  | call note function overload args =>
    cases overload with
    | some o => trivial
    | none => exact h.imp_right (Or.imp (·.mono rfl hsub) (·.mono rfl hsub))
  | _ => trivial

theorem GateCall.Reported.mono {log log' : Diagnostics} {call : GateCall} (h : call.Reported log)
    (hsub : log.failures ⊆ log'.failures) : call.Reported log' := by
  intro hnone
  refine (h hnone).imp_right fun ⟨loc, hreports⟩ => ⟨loc, ?_⟩
  exact hreports.imp (·.mono rfl hsub) (·.mono rfl hsub)

end Typed

/-! ## Names and calls -/

namespace SymbolTable

variable (table : SymbolTable)

theorem log_resolveName {name : String} {loc : Location} {error : SymbolError}
    (h : (table.resolveName name loc).value.1 = .error error) :
    (table.resolveName name loc).log
      = [⟨.undeclaredIdentifier name, loc, some table.dialect⟩] := by
  unfold resolveName at h ⊢
  cases hlookup : table.lookup name with
  | ok record =>
    rw [hlookup] at h
    cases h
  | error error => rfl

/-- A call that is decided has an overload, or it is reported that it has none. -/
theorem log_resolveCall {unknown : Cause} {set : Option OverloadSet} {name : String}
    {args : List Ty} {loc : Location} (hdecided : table.dialect.Decided set name args)
    (h : (table.resolveCall unknown set name args loc).value = none) :
    (table.resolveCall unknown set name args loc).log = [⟨unknown, loc, some table.dialect⟩]
      ∨ (table.resolveCall unknown set name args loc).log
        = [⟨.noMatchingOverload name args, loc, some table.dialect⟩] := by
  unfold resolveCall at h ⊢
  rcases hdecided with ⟨o, hresolve⟩ | hresolve | hresolve
  · rw [hresolve] at h
    cases h
  · rw [hresolve]
    exact Or.inr rfl
  · rw [hresolve]
    exact Or.inl rfl

theorem reports_resolveFunction {name : String} {args : List Ty} {loc : Location}
    (hargs : ∀ t ∈ args, t ≠ .undefined) (h : (table.resolveFunction name args loc).value = none) :
    (table.resolveFunction name args loc).log.Reports (.unknownFunction name) loc
      ∨ (table.resolveFunction name args loc).log.Reports (.noMatchingOverload name args) loc := by
  have hdecided : table.dialect.Decided (table.function? name) name args :=
    Dialect.decided_function hargs name
  unfold resolveFunction at h ⊢
  rcases table.log_resolveCall hdecided h with hlog | hlog
  · rw [hlog]
    exact Or.inl (Diagnostics.reports_singleton _)
  · rw [hlog]
    exact Or.inr (Diagnostics.reports_singleton _)

theorem reports_resolveInstruction {name : String} {args : List Ty} {loc : Location}
    (hargs : ∀ t ∈ args, t ≠ .undefined)
    (h : (table.resolveInstruction name args loc).value = none) :
    (table.resolveInstruction name args loc).log.Reports (.unknownInstruction name) loc
      ∨ (table.resolveInstruction name args loc).log.Reports (.noMatchingOverload name args) loc := by
  have hdecided : table.dialect.Decided (table.instruction? name) name args :=
    Dialect.decided_instruction hargs name
  have hcall : (table.resolveCall (.unknownInstruction name) (table.instruction? name) name args
      loc).value = none := by
    rw [value_resolveCall, ← value_resolveInstruction, h]
  have hlog : (table.resolveInstruction name args loc).log
      = (table.resolveCall (.unknownInstruction name) (table.instruction? name) name args loc).log := by
    unfold resolveInstruction
    rw [Logged.log_bind, hcall]
    exact List.append_nil _
  rcases table.log_resolveCall hdecided hcall with hreport | hreport
  · rw [hlog, hreport]
    exact Or.inl (Diagnostics.reports_singleton _)
  · rw [hlog, hreport]
    exact Or.inr (Diagnostics.reports_singleton _)

end SymbolTable

/-! ## Expressions -/

namespace Tree

variable (table : SymbolTable)

theorem reported_typedCall (name : String) (args : List Typed.Expr) (loc : Location) :
    (typedCall table name args loc).value.Reported (typedCall table name args loc).log := by
  rw [(typedCall_eq table name args loc).1, (typedCall_eq table name args loc).2]
  cases hoverload : (table.resolveFunction name (args.map (·.ty)) loc).value with
  | some o => trivial
  | none =>
    by_cases hargs : ∃ arg ∈ args, arg.ty = .undefined
    · exact Or.inl hargs
    · have hdefined : ∀ t ∈ args.map (·.ty), t ≠ .undefined :=
        List.forall_mem_map.mpr fun arg hmem hty => hargs ⟨arg, hmem, hty⟩
      exact Or.inr (table.reports_resolveFunction hdefined hoverload)

namespace Expr

mutual

/-- What could not be resolved in an expression is reported when it is analysed. -/
theorem reported_expr : (e : Expr) →
    ∀ e' ∈ (e.analyze table).value.subexprs, e'.Reported (e.analyze table).log
  | .literal value loc => List.forall_mem_singleton.mpr trivial
  | .name ident => by
    rw [(analyze_name table ident).1, (analyze_name table ident).2]
    refine List.forall_mem_singleton.mpr ?_
    cases hsymbol : (table.resolveName ident.name ident.loc).value.1 with
    | ok id => trivial
    | error error =>
      rw [table.log_resolveName hsymbol]
      exact ⟨ident.name, Diagnostics.reports_singleton _⟩
  | .index target entries loc => by
    rw [(analyze_index table target entries loc).1]
    exact List.forall_mem_singleton.mpr trivial
  | .unary op operand loc => by
    rw [(analyze_unary table op operand loc).1, (analyze_unary table op operand loc).2]
    refine List.forall_mem_cons.mpr ⟨?_, fun e' hmem => ?_⟩
    · exact (reported_typedCall table _ _ loc).mono (Diagnostics.failures_subset_right _ _)
    · rw [Typed.Expr.subexprsAll, Typed.Expr.subexprsAll, List.append_nil] at hmem
      exact (reported_expr operand e' hmem).mono (Diagnostics.failures_subset_left _ _)
  | .binary op lhs rhs loc => by
    rw [(analyze_binary table op lhs rhs loc).1, (analyze_binary table op lhs rhs loc).2]
    refine List.forall_mem_cons.mpr ⟨?_, fun e' hmem => ?_⟩
    · exact (reported_typedCall table _ _ loc).mono (Diagnostics.failures_subset_right _ _)
    · rw [Typed.Expr.subexprsAll, Typed.Expr.subexprsAll, Typed.Expr.subexprsAll, List.append_nil]
        at hmem
      rcases List.mem_append.mp hmem with hmem | hmem
      · rw [List.append_assoc]
        exact (reported_expr lhs e' hmem).mono (Diagnostics.failures_subset_left _ _)
      · exact ((reported_expr rhs e' hmem).mono (Diagnostics.failures_subset_right _ _)).mono
          (Diagnostics.failures_subset_left _ _)
  | .call function args loc => by
    rw [(analyze_call table function args loc).1, (analyze_call table function args loc).2]
    refine List.forall_mem_cons.mpr ⟨?_, fun e' hmem => ?_⟩
    · exact (reported_typedCall table _ _ loc).mono (Diagnostics.failures_subset_right _ _)
    · exact (reported_exprs args e' hmem).mono (Diagnostics.failures_subset_left _ _)
  | .array elements loc => by
    rw [(analyze_array table elements loc).1, (analyze_array table elements loc).2]
    refine List.forall_mem_cons.mpr ⟨trivial, fun e' hmem => ?_⟩
    exact (reported_exprs elements e' hmem).mono (Diagnostics.failures_subset_left _ _)

theorem reported_exprs : (es : List Expr) →
    ∀ e' ∈ Typed.Expr.subexprsAll (analyzeAll table es).value,
      e'.Reported (analyzeAll table es).log
  | [] => fun _ hmem => absurd hmem List.not_mem_nil
  | e :: es => by
    rw [(analyzeAll_cons table e es).1, (analyzeAll_cons table e es).2, Typed.Expr.subexprsAll]
    intro e' hmem
    rcases List.mem_append.mp hmem with hmem | hmem
    · exact (reported_expr e e' hmem).mono (Diagnostics.failures_subset_left _ _)
    · exact (reported_exprs es e' hmem).mono (Diagnostics.failures_subset_right _ _)

end

end Expr

/-- An instruction without an overload is reported, unless an operand has no type. -/
theorem Stmt.reported_analyzeInstruction (env : Env) (i : Instruction) :
    (analyzeInstruction i env).value.1.Reported (choice env i).log := by
  intro hnone
  rw [(analyzeInstruction_eq env i).1] at hnone ⊢
  by_cases hargs : ∃ operand ∈ (Expr.analyzeAll env.table i.operands).value, operand.ty = .undefined
  · exact Or.inl hargs
  · have hdefined : ∀ t ∈ (Expr.analyzeAll env.table i.operands).value.map (·.ty), t ≠ .undefined :=
      List.forall_mem_map.mpr fun operand hmem hty => hargs ⟨operand, hmem, hty⟩
    exact Or.inr ⟨i.loc, env.table.reports_resolveInstruction hdefined hnone⟩

end Tree

/-! ## Numbers of names -/

/-- Is it a reference to a name that nothing is bound to? -/
def Typed.Resolution.isMissingBinding : Typed.Resolution → Bool
  | .symbol (.error .missingBinding) => true
  | _ => false

/-- Is it a name that is not declared? -/
def Cause.isUndeclaredIdentifier : Cause → Bool
  | .undeclaredIdentifier _ => true
  | _ => false

/-- The number of references to names that nothing is bound to. -/
def Typed.missingBindings (rs : List Typed.Resolution) : Nat := rs.countP (·.isMissingBinding)

@[simp] theorem Typed.missingBindings_append (rs rs' : List Typed.Resolution) :
    missingBindings (rs ++ rs') = missingBindings rs + missingBindings rs' :=
  List.countP_append ..

/-- The number of names that are reported as not declared. -/
def Diagnostics.undeclaredIdentifiers (log : Diagnostics) : Nat :=
  log.countP (·.cause.isUndeclaredIdentifier)

namespace Diagnostics

@[simp] theorem undeclaredIdentifiers_append (log log' : Diagnostics) :
    undeclaredIdentifiers (log ++ log')
      = log.undeclaredIdentifiers + log'.undeclaredIdentifiers := List.countP_append ..

/-- A name that is not declared is a failure. -/
theorem undeclaredIdentifiers_failures (log : Diagnostics) :
    log.failures.undeclaredIdentifiers = log.undeclaredIdentifiers := by
  rw [undeclaredIdentifiers, failures, select, List.countP_filter, undeclaredIdentifiers]
  refine List.countP_congr fun d _ => ?_
  cases hcause : d.cause <;> simp [Cause.isUndeclaredIdentifier, Cause.isFailure]

end Diagnostics

open Typed (missingBindings)

namespace Tree

variable (table : SymbolTable)

theorem missing_resolveName (name : String) (loc : Location) :
    missingBindings [.symbol (table.resolveName name loc).value.1]
      ≤ (table.resolveName name loc).log.undeclaredIdentifiers := by
  cases hsymbol : (table.resolveName name loc).value.1 with
  | ok id => exact Nat.zero_le _
  | error error =>
    rw [table.log_resolveName hsymbol]
    exact List.countP_le_length

theorem missing_typedCall (name : String) (args : List Typed.Expr) (loc : Location) :
    missingBindings (typedCall table name args loc).value.resolutions
      = missingBindings (Typed.Expr.resolutionsAll args) := by
  rw [(typedCall_eq table name args loc).1]
  rfl

theorem missing_typedAxis (elements : List Typed.Expr) (loc : Location) :
    missingBindings (typedAxis table elements loc).value.resolutions
      = missingBindings (Typed.Expr.resolutionsAll elements) := by
  rw [(typedAxis_eq table elements loc).1]
  rfl

namespace Expr

mutual

/-- References that stand for nothing are reported when an expression is analysed. -/
theorem missing_expr : (e : Expr) →
    missingBindings (e.analyze table).value.resolutions
      ≤ (e.analyze table).log.undeclaredIdentifiers
  | .literal value loc => Nat.le_refl 0
  | .name ident => by
    rw [(analyze_name table ident).1, (analyze_name table ident).2]
    exact missing_resolveName table ident.name ident.loc
  | .index target entries loc => by
    have hname := missing_resolveName table target.name target.loc
    rw [(analyze_index table target entries loc).1, (analyze_index table target entries loc).2,
      Diagnostics.undeclaredIdentifiers_append, Diagnostics.undeclaredIdentifiers_append]
    exact Nat.le_trans hname (by omega)
  | .unary op operand loc => by
    have hoperand := missing_expr operand
    rw [(analyze_unary table op operand loc).1, (analyze_unary table op operand loc).2,
      missing_typedCall, Diagnostics.undeclaredIdentifiers_append, Typed.Expr.resolutionsAll,
      Typed.Expr.resolutionsAll, List.append_nil]
    omega
  | .binary op lhs rhs loc => by
    have hlhs := missing_expr lhs
    have hrhs := missing_expr rhs
    rw [(analyze_binary table op lhs rhs loc).1, (analyze_binary table op lhs rhs loc).2,
      missing_typedCall, Diagnostics.undeclaredIdentifiers_append,
      Diagnostics.undeclaredIdentifiers_append, Typed.Expr.resolutionsAll,
      Typed.Expr.resolutionsAll, Typed.Expr.resolutionsAll, List.append_nil,
      Typed.missingBindings_append]
    omega
  | .call function args loc => by
    have hargs := missing_exprs args
    rw [(analyze_call table function args loc).1, (analyze_call table function args loc).2,
      missing_typedCall, Diagnostics.undeclaredIdentifiers_append]
    omega
  | .array elements loc => by
    have helements := missing_exprs elements
    rw [(analyze_array table elements loc).1, (analyze_array table elements loc).2,
      missing_typedAxis, Diagnostics.undeclaredIdentifiers_append]
    omega

theorem missing_exprs : (es : List Expr) →
    missingBindings (Typed.Expr.resolutionsAll (analyzeAll table es).value)
      ≤ (analyzeAll table es).log.undeclaredIdentifiers
  | [] => Nat.le_refl 0
  | e :: es => by
    rw [(analyzeAll_cons table e es).1, (analyzeAll_cons table e es).2, Typed.Expr.resolutionsAll,
      Typed.missingBindings_append, Diagnostics.undeclaredIdentifiers_append]
    exact Nat.add_le_add (missing_expr e) (missing_exprs es)

end

end Expr

end Tree

/-! ## Statements -/

theorem Query.missing (query : Query) :
    missingBindings query.typed.resolutions ≤ query.failures.undeclaredIdentifiers := by
  rw [Query.failures, Diagnostics.undeclaredIdentifiers_failures]
  exact Tree.Expr.missing_expr query.table query.expr

/-- A declaration fails only because its name is taken. -/
theorem Analysis.missing_declareSymbol (symbol : Symbol) (env : Env) :
    Typed.Resolution.isMissingBinding (.symbol (declareSymbol symbol env).value.1) = false := by
  cases hbinds : env.table.current.binds symbol.name with
  | true =>
    rw [(declareSymbol_of_binds hbinds).1]
    rfl
  | false =>
    rw [(declareSymbol_of_not_binds hbinds).1]
    rfl

theorem Tree.Stmt.missing_ownSymbols (s : Stmt) (env : Env) :
    missingBindings ((s.analyze env).value.1.ownSymbols.map .symbol) = 0 := by
  refine List.countP_eq_zero.mpr (List.forall_mem_map.mpr fun ref href => ?_)
  rw [Bool.not_eq_true]
  cases s with
  | qubits size loc =>
    rw [(analyze_qubits env size loc).1] at href
    rcases List.mem_cons.mp href with rfl | href
    · exact Analysis.missing_declareSymbol _ _
    · rw [List.mem_singleton.mp href]
      exact Analysis.missing_declareSymbol _ _
  | declare name type init loc =>
    rw [(analyze_declare env name type init loc).1] at href
    rw [List.mem_singleton.mp href]
    exact Analysis.missing_declareSymbol _ _
  | map target name loc =>
    rw [(analyze_map env target name loc).1] at href
    rw [List.mem_singleton.mp href]
    exact Analysis.missing_declareSymbol _ _
  | foreach name first last body loc =>
    rw [(analyze_foreach env name first last body loc).1] at href
    rw [List.mem_singleton.mp href]
    exact Analysis.missing_declareSymbol _ _
  | _ =>
    rw [analyze] at href
    exact absurd href List.not_mem_nil

theorem countP_flatMap_le {α β γ : Type} {p : β → Bool} {q : γ → Bool} {f : α → List β}
    {g : α → List γ} {l : List α} (h : ∀ a ∈ l, (f a).countP p ≤ (g a).countP q) :
    (l.flatMap f).countP p ≤ (l.flatMap g).countP q := by
  induction l with
  | nil => exact Nat.le_refl 0
  | cons a l ih =>
    obtain ⟨hfirst, hrest⟩ := List.forall_mem_cons.mp h
    rw [List.flatMap_cons, List.flatMap_cons, List.countP_append, List.countP_append]
    exact Nat.add_le_add hfirst (ih hrest)

/-- References of a statement itself that stand for nothing are reported in the statement itself. -/
theorem Site.missing (site : Site) :
    missingBindings site.node.ownResolutions ≤ site.ownLog.undeclaredIdentifiers := by
  have hsymbols : missingBindings (site.node.ownSymbols.map .symbol) = 0 :=
    Tree.Stmt.missing_ownSymbols site.stmt site.env
  have hcalls : missingBindings (site.node.ownCalls.map Typed.GateCall.outcome) = 0 :=
    List.countP_eq_zero.mpr (List.forall_mem_map.mpr fun call _ => Bool.false_ne_true)
  have hexprs : missingBindings (site.node.ownExprs.flatMap Typed.Expr.resolutions)
      ≤ Diagnostics.undeclaredIdentifiers (site.queries.flatMap Query.failures) := by
    rw [ownExprs_node, List.flatMap_map]
    exact countP_flatMap_le fun query _ => query.missing
  have hlog : Diagnostics.undeclaredIdentifiers (site.queries.flatMap Query.failures)
      ≤ site.ownLog.undeclaredIdentifiers := by
    rw [← Diagnostics.undeclaredIdentifiers_failures site.ownLog,
      Diagnostics.undeclaredIdentifiers, Diagnostics.undeclaredIdentifiers,
      site.perm_failures.countP_eq, List.append_assoc, List.countP_append]
    exact Nat.le_add_right _ _
  rw [Typed.Stmt.ownResolutions, Typed.missingBindings_append, Typed.missingBindings_append, hsymbols,
    hcalls]
  omega

/-! ## Programs -/

namespace Tree.Program

variable {program : Program} {dialect : Dialect}

theorem missing_analyze (h : program.dialect? = some dialect) :
    missingBindings program.analyze.program.resolutions
      ≤ program.analyze.diagnostics.undeclaredIdentifiers := by
  rw [missingBindings, program.analyze.program.perm_resolutions.countP_eq, nodes_eq h,
    List.flatMap_map, Diagnostics.undeclaredIdentifiers, (perm_diagnostics h).countP_eq]
  exact countP_flatMap_le fun site _ => site.missing

theorem reported_of_mem_exprs (h : program.dialect? = some dialect) {e : Typed.Expr}
    (he : e ∈ program.analyze.program.exprs) : e.Reported program.analyze.diagnostics := by
  rw [Typed.Program.exprs, nodes_eq h, List.flatMap_map] at he
  obtain ⟨site, hsite, he⟩ := List.mem_flatMap.mp he
  obtain ⟨own, hown, he⟩ := List.mem_flatMap.mp he
  rw [site.ownExprs_node] at hown
  obtain ⟨query, hquery, rfl⟩ := List.mem_map.mp hown
  refine (Expr.reported_expr query.table query.expr e he).mono fun d hd => ?_
  exact (mem_failures_analyze h).mpr ⟨site, hsite, Or.inl ⟨query, hquery, hd⟩⟩

theorem reported_of_mem_gateCalls (h : program.dialect? = some dialect) {call : Typed.GateCall}
    (hcall : call ∈ program.analyze.program.gateCalls) :
    call.Reported program.analyze.diagnostics := by
  rw [Typed.Program.gateCalls, nodes_eq h, List.flatMap_map] at hcall
  obtain ⟨site, hsite, hcall⟩ := List.mem_flatMap.mp hcall
  rw [site.ownCalls_node] at hcall
  obtain ⟨i, hi, rfl⟩ := List.mem_map.mp hcall
  refine (Stmt.reported_analyzeInstruction site.env i).mono fun d hd => ?_
  exact (mem_failures_analyze h).mpr ⟨site, hsite, Or.inr (Or.inl ⟨i, hi, hd⟩)⟩

/-- Whatever a program holds without a symbol or an overload is reported or has an argument without a
type, and there are no fewer reports of names than references that stand for nothing. -/
theorem reported_analyze (h : program.dialect? = some dialect) :
    (∀ e ∈ program.analyze.program.exprs, e.Reported program.analyze.diagnostics)
      ∧ (∀ call ∈ program.analyze.program.gateCalls, call.Reported program.analyze.diagnostics)
      ∧ missingBindings program.analyze.program.resolutions
        ≤ program.analyze.diagnostics.undeclaredIdentifiers :=
  ⟨fun _ => reported_of_mem_exprs h, fun _ => reported_of_mem_gateCalls h, missing_analyze h⟩

/-- `version 3; int i = foo(1) + y; H i; H y; h i`, where `y` is not declared. -/
def misspelled : Program :=
  let loc : Location := ⟨1, 1⟩
  let i : Expr := .name ⟨"i", loc⟩
  let y : Expr := .name ⟨"y", loc⟩
  { version := some ⟨[3], loc⟩
    stmts :=
      [.declare ⟨"i", loc⟩ (.scalar .int)
          (some (.binary .add (.call ⟨"foo", loc⟩ [.int loc 1] loc) y loc)) loc,
        .instruction ⟨⟨"H", loc⟩, none, [i], loc⟩,
        .instruction ⟨⟨"H", loc⟩, none, [y], loc⟩,
        .instruction ⟨⟨"h", loc⟩, none, [i], loc⟩] }

/-- Four calls have no overload. The sum has operands without a type and is passed over, the other
three are reported; so is the name `y`, both times. -/
theorem reported_analyze_misspelled :
    misspelled.dialect? = some .v3
      ∧ misspelled.analyze.program.unresolvedCalls = 4
      ∧ misspelled.analyze.diagnostics.map (·.cause)
        = [.unknownFunction "foo", .undeclaredIdentifier "y", .noMatchingOverload "H" [.int],
          .undeclaredIdentifier "y", .unknownInstruction "h"]
      ∧ missingBindings misspelled.analyze.program.resolutions = 2
      ∧ (∀ e ∈ misspelled.analyze.program.exprs, e.Reported misspelled.analyze.diagnostics)
      ∧ (∀ call ∈ misspelled.analyze.program.gateCalls,
        call.Reported misspelled.analyze.diagnostics)
      ∧ missingBindings misspelled.analyze.program.resolutions
        ≤ misspelled.analyze.diagnostics.undeclaredIdentifiers := by
  have hdialect : misspelled.dialect? = some .v3 := rfl
  exact ⟨hdialect, by decide +kernel, by decide +kernel, by decide +kernel,
    reported_analyze hdialect⟩

end Tree.Program

end Cqasm
