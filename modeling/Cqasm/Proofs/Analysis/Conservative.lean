import Cqasm.Proofs.Dialect.Extension
import Cqasm.Proofs.Typed.FullyResolved

/-!
# Programs of cQASM 3.0 under the rules of cQASM 1.x

Without instructions, what cQASM 3.0 accepts and resolves means the same in cQASM 1.x
(`analyze_under_v1`). Expressions are compared first. One about which nothing is recorded is the same
in both dialects if every index in it selects no more elements than a reference can have, and also if
it has no type at all (`Settled`). In between there are expressions with a type and a part without
one, and these may differ: a power of two numbers without a type has an overload in cQASM 3.0 and is
ambiguous in cQASM 1.x. A resolved program holds none of them, and neither does the number of
iterations of a subcircuit.

* `Logged.Carries` : the second computation is the same as the first if that one records nothing;
* `SymbolTable.under`, `Env.under` : symbols and scopes under the rules of another dialect;
* `Analysis.Carries` : a step that does the same in cQASM 1.x if it records nothing in cQASM 3.0.
-/

namespace Cqasm

open Diagnostics (Clean)

theorem Diagnostics.clean_of_eq_nil {log : Diagnostics} (h : log = []) : log.Clean := by
  rw [h]
  exact clean_nil

/-- If the first records nothing then the second is the same. -/
def Logged.Carries {α : Type} (x y : Logged α) : Prop := x.log = [] → y = x

namespace Logged.Carries

variable {α β : Type} {x y : Logged α}

theorem refl (x : Logged α) : x.Carries x := fun _ => rfl

theorem bind (h : x.Carries y) {next next' : α → Logged β}
    (hnext : x.log = [] → (next x.value).Carries (next' x.value)) :
    (x >>= next).Carries (y >>= next') := by
  intro hlog
  rw [log_bind, List.append_eq_nil_iff] at hlog
  have hfirst := h hlog.1
  have hsecond := hnext hlog.1 hlog.2
  rw [hfirst]
  ext1
  · rw [value_bind, value_bind, hsecond]
  · rw [log_bind, log_bind, hsecond]

end Logged.Carries

namespace SymbolTable

/-- The table under the rules of the given dialect. -/
def under (dialect : Dialect) (table : SymbolTable) : SymbolTable := { table with dialect }

variable (table : SymbolTable) (dialect : Dialect)

/-! ## Checks that do not depend on the dialect -/

theorem carries_report (cause : Cause) (loc : Location) (y : Logged Unit) :
    (table.report cause loc).Carries y := fun hlog => absurd hlog (List.cons_ne_nil _ _)

theorem carries_resolveName (name : String) (loc : Location) :
    (table.resolveName name loc).Carries ((table.under dialect).resolveName name loc) := by
  have hlookup : (table.under dialect).lookup name = table.lookup name := rfl
  unfold resolveName
  rw [hlookup]
  cases table.lookup name with
  | ok record => exact .refl _
  | error error => exact (table.carries_report _ loc _).bind fun _ => .refl _

theorem carries_constInteger (e : Typed.Expr) :
    (table.constInteger e).Carries ((table.under dialect).constInteger e) := by
  unfold constInteger
  cases e.ty.isDefined with
  | false => exact .refl _
  | true =>
    rw [if_pos rfl, if_pos rfl]
    cases e.constInt? with
    | some n => exact .refl _
    | none => exact (table.carries_report _ e.loc _).bind fun _ => .refl _

theorem carries_natural (p : Int → Prop) [DecidablePred p] (cause : Int → Cause) (e : Typed.Expr) :
    (table.natural p cause e).Carries ((table.under dialect).natural p cause e) := by
  unfold natural
  refine (table.carries_constInteger dialect e).bind fun _ => ?_
  cases (table.constInteger e).value with
  | none => exact .refl _
  | some n =>
    by_cases hn : p n.toInt
    · simp only [if_pos hn]
      exact .refl _
    · simp only [if_neg hn]
      exact (table.carries_report _ e.loc _).bind fun _ => .refl _

theorem carries_checkSpans (name : String) (size : Nat) (spans : List IndexSpan) :
    (table.checkSpans name size spans).Carries
      ((table.under dialect).checkSpans name size spans) := by
  induction spans with
  | nil => exact .refl _
  | cons span spans ih =>
    have hspan : (table.checkSpan name size span).Carries
        ((table.under dialect).checkSpan name size span) := by
      unfold checkSpan
      cases span.outside? size with
      | none => exact .refl _
      | some bound => exact table.carries_report _ bound.loc _
    exact hspan.bind fun _ => ih

theorem carries_indexType (name : String) (loc : Location) (ty : Ty)
    (entries : List (Option IndexSpan)) :
    (table.indexType name loc ty entries).Carries
      ((table.under dialect).indexType name loc ty entries) := by
  unfold indexType
  cases ty.isDefined with
  | false => exact .refl _
  | true =>
    rw [if_pos rfl, if_pos rfl]
    cases ty.registerSize? with
    | none => exact (table.carries_report _ loc _).bind fun _ => .refl _
    | some size => exact (table.carries_checkSpans dialect name size _).bind fun _ => .refl _

/-! ## Calls and conversions -/

variable {table}

theorem resolveCall_of_ok {unknown : Cause} {set : Option OverloadSet} {name : String}
    {args : List Ty} {loc : Location} {o : Overload}
    (h : resolve table.dialect.promotions set name args = .ok o) :
    table.resolveCall unknown set name args loc = pure (some o) := by
  unfold resolveCall
  rw [h]

theorem resolveCall_of_isAmbiguous {unknown : Cause} {set : Option OverloadSet} {name : String}
    {args : List Ty} {loc : Location}
    (h : isAmbiguous (resolve table.dialect.promotions set name args) = true)
    (hargs : args.all (·.isDefined) = false) :
    table.resolveCall unknown set name args loc = pure none := by
  cases hresolve : resolve table.dialect.promotions set name args with
  | ok o =>
    rw [hresolve] at h
    cases h
  | error error =>
    rw [hresolve] at h
    cases error with
    | unknown name => cases h
    | noMatch name args => cases h
    | ambiguous name candidates =>
      unfold resolveCall
      rw [hresolve]
      exact if_neg (Bool.eq_false_iff.mp hargs)

/-- A call about which nothing is recorded has an overload, or it is ambiguous since an argument has
no type. -/
theorem resolve_of_quiet {unknown : Cause} {set : Option OverloadSet} {name : String}
    {args : List Ty} {loc : Location}
    (hlog : (table.resolveCall unknown set name args loc).log = []) :
    (∃ o, resolve table.dialect.promotions set name args = .ok o)
      ∨ isAmbiguous (resolve table.dialect.promotions set name args) = true
        ∧ args.all (·.isDefined) = false := by
  unfold resolveCall at hlog
  cases hresolve : resolve table.dialect.promotions set name args with
  | ok o => exact Or.inl ⟨o, rfl⟩
  | error error =>
    rw [hresolve] at hlog
    cases error with
    | unknown name => cases hlog
    | noMatch name args => cases hlog
    | ambiguous name candidates =>
      refine Or.inr ⟨rfl, ?_⟩
      cases hargs : args.all (·.isDefined) with
      | false => rfl
      | true =>
        simp only [hargs] at hlog
        cases hlog

variable {name : String} {args : List Ty} {loc : Location}

/-- A call without an overload, about which nothing is recorded, has no argument with a type. -/
theorem undefined_of_quiet (h3 : table.dialect = .v3)
    (hlog : (table.resolveFunction name args loc).log = [])
    (hnone : (table.resolveFunction name args loc).value = none) : ∀ t ∈ args, t = .undefined := by
  rcases resolve_of_quiet hlog with ⟨o, ho⟩ | ⟨hambiguous, -⟩
  · rw [resolveFunction, resolveCall_of_ok ho] at hnone
    cases hnone
  · rw [function?, h3] at hambiguous
    exact (Dialect.isAmbiguous_v1 hambiguous).1

/-- The overload of a call is the same in cQASM 1.x if the arguments have types, and so is that
there is none. -/
theorem carries_resolveFunction (h3 : table.dialect = .v3)
    (hargs : (∀ t ∈ args, t ≠ .undefined) ∨ (table.resolveFunction name args loc).value = none) :
    (table.resolveFunction name args loc).Carries
      ((table.under .v1).resolveFunction name args loc) := by
  intro hlog
  rcases resolve_of_quiet hlog with ⟨o, ho⟩ | ⟨hambiguous, hsome⟩
  · have hdefined : ∀ t ∈ args, t ≠ .undefined := by
      refine hargs.resolve_right fun hnone => ?_
      rw [resolveFunction, resolveCall_of_ok ho] at hnone
      cases hnone
    have ho' : resolve (table.under .v1).dialect.promotions ((table.under .v1).function? name) name
        args = .ok o := by
      rw [function?, h3] at ho
      exact Dialect.resolve_v1 hdefined ho
    rw [resolveFunction, resolveFunction, resolveCall_of_ok ho, resolveCall_of_ok ho']
  · have hambiguous' : isAmbiguous (resolve (table.under .v1).dialect.promotions
        ((table.under .v1).function? name) name args) = true := by
      rw [function?, h3] at hambiguous
      exact (Dialect.isAmbiguous_v1 hambiguous).2
    rw [resolveFunction, resolveFunction, resolveCall_of_isAmbiguous hambiguous hsome,
      resolveCall_of_isAmbiguous hambiguous' hsome]

theorem checkConversion_of_accepts {e : Typed.Expr} {ty : Ty}
    (h : ty = .undefined ∨ table.dialect.promotions.Accepts e.ty ty) :
    table.checkConversion e ty = pure true := by
  have hvalue := (table.value_checkConversion e ty).mpr h
  unfold checkConversion at hvalue ⊢
  split at hvalue
  · cases hvalue
  · next hcond => rw [if_neg hcond]

theorem carries_checkConversion (h3 : table.dialect = .v3) (e : Typed.Expr) (ty : Ty) :
    (table.checkConversion e ty).Carries ((table.under .v1).checkConversion e ty) := by
  intro hlog
  have haccepts := table.clean_checkConversion.mp (Diagnostics.clean_of_eq_nil hlog)
  rw [checkConversion_of_accepts haccepts]
  rw [h3] at haccepts
  exact checkConversion_of_accepts (haccepts.imp_right Dialect.accepts_v1)

theorem carries_checkConversions (h3 : table.dialect = .v3) (ty : Ty) (es : List Typed.Expr) :
    (table.checkConversions ty es).Carries ((table.under .v1).checkConversions ty es) := by
  induction es with
  | nil => exact .refl _
  | cons e es ih =>
    exact (carries_checkConversion h3 e ty).bind fun _ => Logged.Carries.bind ih fun _ => .refl _

end SymbolTable

/-! ## Expressions -/

namespace Tree

variable {table : SymbolTable}

/-- A call without a type has no overload, since every function has a result. -/
theorem value_resolveFunction_of_undefined {name : String} {args : List Typed.Expr} {loc : Location}
    (h : (typedCall table name args loc).value.ty = .undefined) :
    (table.resolveFunction name (args.map (·.ty)) loc).value = none := by
  rw [(typedCall_eq table name args loc).1] at h
  cases hoverload : (table.resolveFunction name (args.map (·.ty)) loc).value with
  | none => rfl
  | some o =>
    rw [hoverload] at h
    exact absurd h (SymbolTable.typed_of_resolveFunction hoverload)

theorem carries_typedCall (h3 : table.dialect = .v3) {name : String} {args : List Typed.Expr}
    {loc : Location}
    (hargs : (∀ t ∈ args.map (·.ty), t ≠ .undefined)
      ∨ (typedCall table name args loc).value.ty = .undefined) :
    (typedCall table name args loc).Carries (typedCall (table.under .v1) name args loc) := by
  have hoverload := SymbolTable.carries_resolveFunction h3
    (hargs.imp_right value_resolveFunction_of_undefined)
  exact hoverload.bind fun _ => .refl _

theorem carries_typedAxis (h3 : table.dialect = .v3) (elements : List Typed.Expr) (loc : Location) :
    (typedAxis table elements loc).Carries (typedAxis (table.under .v1) elements loc) := by
  have hsize : (checkAxisSize table elements.length loc).Carries
      (checkAxisSize (table.under .v1) elements.length loc) := by
    unfold checkAxisSize
    by_cases h : elements.length = 3
    · rw [if_pos h, if_pos h]
      exact .refl _
    · rw [if_neg h]
      exact table.carries_report _ loc _
  exact hsize.bind fun _ =>
    (SymbolTable.carries_checkConversions h3 .float elements).bind fun _ => .refl _

namespace Expr

/-- Every index in the expression selects no more elements than a reference can have, or the
expression has no type. -/
def Settled (table : SymbolTable) (e : Expr) : Prop :=
  e.Sized .v3 ∨ (e.analyze table).value.ty = .undefined

/-- What is used as a constant integer is one or has no type. -/
theorem settled_of_constInteger {e : Expr}
    (hlog : (table.constInteger (e.analyze table).value).log = []) : e.Settled table := by
  rcases table.clean_constInteger.mp (Diagnostics.clean_of_eq_nil hlog) with hty | ⟨n, hn⟩
  · exact Or.inr hty
  · exact Or.inl (sized_of_isConst .v3 e (SymbolTable.ty_of_constInt? hn).2)

theorem analyze_unary_eq (op : UnaryOp) (operand : Expr) (loc : Location) :
    (unary op operand loc).analyze table
      = analyzeAll table [operand] >>= fun args => typedCall table op.functionName args loc := by
  rw [analyze, analyzeAll, analyzeAll]
  simp only [bind_assoc, pure_bind]

theorem analyze_binary_eq (op : BinaryOp) (lhs rhs : Expr) (loc : Location) :
    (binary op lhs rhs loc).analyze table
      = analyzeAll table [lhs, rhs] >>= fun args => typedCall table op.functionName args loc := by
  rw [analyze, analyzeAll, analyzeAll, analyzeAll]
  simp only [bind_assoc, pure_bind]

/-- A call carries over if its arguments do as soon as they are settled. -/
theorem carries_call (h : table.Defined) (h3 : table.dialect = .v3) {name : String} {es : List Expr}
    {loc : Location}
    (hes : (∀ e ∈ es, e.Settled table) →
      (analyzeAll table es).Carries (analyzeAll (table.under .v1) es))
    (hsettled : SizedAll .v3 es
      ∨ (typedCall table name (analyzeAll table es).value loc).value.ty = .undefined) :
    (analyzeAll table es >>= fun args => typedCall table name args loc).Carries
      (analyzeAll (table.under .v1) es >>= fun args =>
        typedCall (table.under .v1) name args loc) := by
  intro hlog
  have hlogs := hlog
  rw [Logged.log_bind, List.append_eq_nil_iff] at hlogs
  have hargs : ∀ e ∈ es, e.Settled table := by
    intro e he
    rcases hsettled with hsized | hundefined
    · exact Or.inl ((sizedAll_iff .v3 es).mp hsized e he)
    · refine Or.inr ?_
      have hcall := hlogs.2
      rw [(typedCall_eq table name _ loc).2] at hcall
      refine SymbolTable.undefined_of_quiet h3 hcall
        (value_resolveFunction_of_undefined hundefined) _ ?_
      rw [analyzeAll_eq_map, List.map_map]
      exact List.mem_map.mpr ⟨e, he, rfl⟩
  have hdefined : SizedAll .v3 es →
      ∀ t ∈ (analyzeAll table es).value.map (·.ty), t ≠ .undefined := by
    intro hsized
    rw [← h3] at hsized
    have hresolved := (resolved_exprs h es (Diagnostics.clean_of_eq_nil hlogs.1)).mpr hsized
    exact Typed.Expr.tys_ne_undefined hresolved
  exact ((hes hargs).bind fun _ => carries_typedCall h3 (hsettled.imp_left hdefined)) hlog

theorem carries_cons {e : Expr} {es : List Expr}
    (he : (e.analyze table).Carries (e.analyze (table.under .v1)))
    (hes : (analyzeAll table es).Carries (analyzeAll (table.under .v1) es)) :
    (analyzeAll table (e :: es)).Carries (analyzeAll (table.under .v1) (e :: es)) := by
  rw [analyzeAll, analyzeAll]
  exact he.bind fun _ => hes.bind fun _ => .refl _

mutual

/-- A settled expression about which nothing is recorded is the same in cQASM 1.x. -/
theorem carries_analyze (h : table.Defined) (h3 : table.dialect = .v3) : (e : Expr) →
    e.Settled table → (e.analyze table).Carries (e.analyze (table.under .v1))
  | .literal value loc => fun _ => by
    rw [analyze, analyze]
    exact .refl _
  | .name ident => fun _ => by
    rw [analyze, analyze]
    exact (table.carries_resolveName .v1 ident.name ident.loc).bind fun _ => .refl _
  | .index target entries loc => fun _ => by
    rw [analyze, analyze]
    refine (table.carries_resolveName .v1 target.name target.loc).bind fun _ => ?_
    refine (carries_analyzeEntries h h3 entries).bind fun _ => ?_
    exact (table.carries_indexType .v1 target.name target.loc _ _).bind fun _ => .refl _
  | .unary op operand loc => fun hsettled => by
    have hes : (∀ e ∈ [operand], e.Settled table) →
        (analyzeAll table [operand]).Carries (analyzeAll (table.under .v1) [operand]) := by
      intro hes
      have hoperand := List.forall_mem_singleton.mp hes
      exact carries_cons (carries_analyze h h3 operand hoperand) (.refl _)
    rw [Settled, analyze_unary_eq] at hsettled
    rw [analyze_unary_eq, analyze_unary_eq]
    exact carries_call h h3 hes (hsettled.imp_left fun hsized => ⟨hsized, trivial⟩)
  | .binary op lhs rhs loc => fun hsettled => by
    have hes : (∀ e ∈ [lhs, rhs], e.Settled table) →
        (analyzeAll table [lhs, rhs]).Carries (analyzeAll (table.under .v1) [lhs, rhs]) := by
      intro hes
      obtain ⟨hlhs, hrhs⟩ := List.forall_mem_cons.mp hes
      have hrhs := List.forall_mem_singleton.mp hrhs
      exact carries_cons (carries_analyze h h3 lhs hlhs)
        (carries_cons (carries_analyze h h3 rhs hrhs) (.refl _))
    rw [Settled, analyze_binary_eq] at hsettled
    rw [analyze_binary_eq, analyze_binary_eq]
    exact carries_call h h3 hes
      (hsettled.imp_left fun hsized => ⟨hsized.1, hsized.2, trivial⟩)
  | .call function args loc => fun hsettled => by
    rw [Settled, analyze] at hsettled
    rw [analyze, analyze]
    exact carries_call h h3 (carries_analyzeAll h h3 args) hsettled
  | .array elements loc => fun hsettled => by
    intro hlog
    have hlogs := hlog
    rw [(analyze_array table elements loc).2, List.append_eq_nil_iff] at hlogs
    have helements : ∀ e ∈ elements, e.Settled table := by
      rcases hsettled with hsized | hundefined
      · exact fun e he => Or.inl ((sizedAll_iff .v3 elements).mp hsized e he)
      · have haxis := ty_typedAxis (Diagnostics.clean_of_eq_nil hlogs.2)
        rw [(analyze_array table elements loc).1, haxis] at hundefined
        cases hundefined
    revert hlog
    rw [analyze, analyze]
    exact (carries_analyzeAll h h3 elements helements).bind fun _ => carries_typedAxis h3 _ loc

theorem carries_analyzeAll (h : table.Defined) (h3 : table.dialect = .v3) : (es : List Expr) →
    (∀ e ∈ es, e.Settled table) →
    (analyzeAll table es).Carries (analyzeAll (table.under .v1) es)
  | [] => fun _ => .refl _
  | e :: es => fun hes =>
    have hes := List.forall_mem_cons.mp hes
    carries_cons (carries_analyze h h3 e hes.1) (carries_analyzeAll h h3 es hes.2)

theorem carries_analyzeEntry (h : table.Defined) (h3 : table.dialect = .v3) :
    (entry : IndexEntry Expr) →
    (analyzeEntry table entry).Carries (analyzeEntry (table.under .v1) entry)
  | .item e => by
    intro hlog
    have hlogs := hlog
    rw [(analyzeEntry_item table e).2, List.append_eq_nil_iff] at hlogs
    revert hlog
    rw [analyzeEntry, analyzeEntry]
    refine (carries_analyze h h3 e (settled_of_constInteger hlogs.2)).bind fun _ => ?_
    exact (table.carries_constInteger .v1 _).bind fun _ => .refl _
  | .range first last => by
    intro hlog
    have hlogs := hlog
    rw [(analyzeEntry_range table first last).2, List.append_eq_nil_iff,
      List.append_eq_nil_iff] at hlogs
    revert hlog
    rw [analyzeEntry, analyzeEntry]
    refine (carries_analyze h h3 first (settled_of_constInteger hlogs.1.2)).bind fun _ => ?_
    refine (carries_analyze h h3 last (settled_of_constInteger hlogs.2)).bind fun _ => ?_
    refine (table.carries_constInteger .v1 _).bind fun _ => ?_
    exact (table.carries_constInteger .v1 _).bind fun _ => .refl _

theorem carries_analyzeEntries (h : table.Defined) (h3 : table.dialect = .v3) :
    (entries : List (IndexEntry Expr)) →
    (analyzeEntries table entries).Carries (analyzeEntries (table.under .v1) entries)
  | [] => .refl _
  | entry :: entries => by
    rw [analyzeEntries, analyzeEntries]
    exact (carries_analyzeEntry h h3 entry).bind fun _ =>
      (carries_analyzeEntries h h3 entries).bind fun _ => .refl _

end

end Expr

end Tree

/-! ## Steps -/

/-- The environment under the rules of the given dialect. -/
def Env.under (dialect : Dialect) (env : Env) : Env := { env with table := env.table.under dialect }

/-- If the step records nothing then it does the same in cQASM 1.x. -/
def Analysis.Carries {α : Type} (step : Analysis α) (env : Env) : Prop :=
  (step env).log = [] →
    step (env.under .v1) = ⟨((step env).value.1, (step env).value.2.under .v1), []⟩

namespace Analysis.Carries

variable {α β : Type} {step : Analysis α} {env : Env}

theorem pure (a : α) (env : Env) : Carries (Pure.pure a) env := fun _ => rfl

/-- The second step is compared where the first one ends. -/
theorem seq {next : α → Analysis β} (h : Carries step env)
    (hnext : (step env).log = [] →
      Carries (next (step env).value.1) (step env).value.2) : Carries (step >>= next) env := by
  intro hlog
  rw [log_bind, List.append_eq_nil_iff] at hlog
  have hfirst := h hlog.1
  have hsecond := hnext hlog.1 hlog.2
  apply Logged.ext
  · rw [value_bind, value_bind, hfirst, hsecond]
  · rw [log_bind, hfirst, hsecond]
    rfl

/-- A step that is followed by putting together the typed statement. -/
theorem last (h : Carries step env) (f : α → β) :
    Carries (step >>= fun a => Pure.pure (f a)) env := h.seq fun _ => .pure _ _

theorem map (f : α → β) (h : Carries step env) : Carries (f <$> step) env := by
  rw [map_eq_pure_bind]
  exact h.last f

theorem reading {f : SymbolTable → Logged α} (h : (f env.table).Carries (f (env.under .v1).table)) :
    Carries (reading f) env := by
  intro hlog
  rw [log_reading] at hlog
  have hread := h hlog
  apply Logged.ext
  · rw [value_reading, value_reading, hread]
  · rw [log_reading, hread, hlog]

theorem marked (loc : Location) {step : Analysis (Typed.Mark → Typed.Stmt)}
    (h : Carries step env) : Carries (marked loc step) env := by
  intro hlog
  rw [log_marked] at hlog
  have hstep := h hlog
  apply Logged.ext
  · rw [value_marked, value_marked, hstep, hlog]
  · rw [log_marked, hstep]

theorem inBlock (kind : BlockKind) (h : Carries step (env.enter kind)) :
    Carries (inBlock kind step) env := by
  intro hlog
  rw [log_inBlock] at hlog
  have hbody : step ((env.under .v1).enter kind) = _ := h hlog
  apply Logged.ext
  · rw [value_inBlock, value_inBlock, hbody]
    rfl
  · rw [log_inBlock]
    show (step ((env.under .v1).enter kind)).log = []
    rw [hbody]

theorem declareSymbol (symbol : Symbol) (env : Env) : Carries (declareSymbol symbol) env := by
  intro hlog
  cases hbinds : env.table.current.binds symbol.name with
  | true =>
    rw [(declareSymbol_of_binds hbinds).2] at hlog
    cases hlog
  | false =>
    have hbinds' : (env.under .v1).table.current.binds symbol.name = false := hbinds
    obtain ⟨hvalue, -⟩ := declareSymbol_of_not_binds hbinds
    obtain ⟨hvalue', hlog'⟩ := declareSymbol_of_not_binds hbinds'
    apply Logged.ext
    · rw [hvalue, hvalue']
      rfl
    · exact hlog'

theorem nameSubcircuit (ident : Tree.Ident) (env : Env) : Carries (nameSubcircuit ident) env := by
  intro hlog
  have hsubcircuits : (env.under .v1).subcircuits = env.subcircuits := rfl
  unfold Analysis.nameSubcircuit at hlog ⊢
  rw [hsubcircuits]
  by_cases h : ident.name ∈ env.subcircuits
  · rw [if_pos h] at hlog
    cases hlog
  · rw [if_neg h, if_neg h]
    rfl

section

variable (h : env.Defined .v3)

include h

theorem expr {e : Tree.Expr} (he : e.Settled env.table) : Carries (expr e) env :=
  reading (e.carries_analyze h.symbols h.dialect he)

theorem checkConversion (e : Typed.Expr) (ty : Ty) : Carries (checkConversion e ty) env :=
  reading ((SymbolTable.carries_checkConversion h.dialect e ty).bind fun _ => .refl _)

theorem condition {e : Tree.Expr} (he : e.Sized .v3) : Carries (condition e) env :=
  (expr h (Or.inl he)).seq fun _ => (checkConversion h _ .bool).last _

end

end Analysis.Carries

/-! ## Statements -/

/-- Behind a part that is sized all symbols have types. -/
theorem Tracks.defined_of_sized {dialect : Dialect} {env : Env} {resolved sized : Prop}
    (h : Tracks dialect env resolved sized) (hsized : sized) : env.Defined dialect :=
  h.defined (h.iff.mpr hsized)

namespace Tree.Stmt

open Analysis

/-- Is it an instruction or a bundle of instructions? -/
def isGate : Stmt → Bool
  | instruction _ | bundle _ _ => true
  | _ => false

variable {env : Env}

section

variable (h : env.Defined .v3)

include h

theorem carries_qubits {size : Expr} (hsize : size.Sized .v3) (loc : Location) :
    Carries (analyzeQubits size loc) env := by
  refine (Carries.expr h (Or.inl hsize)).seq fun _ => ?_
  refine (Carries.reading (env.table.carries_natural .v1 _ _ _)).seq fun _ => ?_
  exact (Carries.declareSymbol _ _).seq fun _ => (Carries.declareSymbol _ _).last _

theorem carries_type {type : TypeSpec} {init : Option Expr} {name : Ident} {loc : Location}
    (hsized : (declare name type init loc).Sized .v3) : Carries (analyzeType type) env := by
  cases type with
  | scalar kind => exact .pure _ _
  | register kind size =>
    cases size with
    | none => exact .pure _ _
    | some size =>
      have hsize : size.Sized .v3 := hsized size List.mem_cons_self
      exact (Carries.expr h (Or.inl hsize)).seq fun _ =>
        (Carries.reading (env.table.carries_natural .v1 _ _ _)).last _

theorem carries_init {init : Option Expr} (hinit : ∀ e ∈ init.toList, e.Sized .v3) (ty : Ty) :
    Carries (analyzeInit ty init) env := by
  cases init with
  | none => exact .pure _ _
  | some e =>
    have he := hinit e List.mem_cons_self
    exact (Carries.expr h (Or.inl he)).seq fun _ => (Carries.checkConversion h _ ty).last _

theorem carries_declare {type : TypeSpec} {init : Option Expr} {name : Ident} {loc : Location}
    (hsized : (declare name type init loc).Sized .v3) :
    Carries (analyzeDeclare name type init) env := by
  have hinit : ∀ e ∈ init.toList, e.Sized .v3 := by
    intro e he
    refine hsized e ?_
    cases type with
    | scalar kind => exact he
    | register kind size => exact List.mem_append_right _ he
  refine (carries_type h hsized).seq fun _ => ?_
  rw [env_analyzeType]
  exact (carries_init h hinit _).seq fun _ => (Carries.declareSymbol _ _).last _

theorem carries_map {target : Expr} (htarget : target.Sized .v3) (name : Ident) :
    Carries (analyzeMap target name) env :=
  (Carries.expr h (Or.inl htarget)).seq fun _ => (Carries.declareSymbol _ _).last _

/-- The number of iterations need not be sized. It is a constant, or it has no type. -/
theorem carries_iterations (count : Option Expr) : Carries (analyzeIterations count) env := by
  cases count with
  | none => exact .pure _ _
  | some e =>
    intro hlog
    have hcount := hlog
    rw [(analyzeIterations_some env e).2, SymbolTable.iterationCount_eq_natural,
      SymbolTable.natural, Logged.log_bind, List.append_eq_nil_iff,
      List.append_eq_nil_iff] at hcount
    have he : e.Settled env.table := Expr.settled_of_constInteger hcount.2.1
    have hcarries : Carries (analyzeIterations (some e)) env :=
      (Carries.expr h he).seq fun _ => Carries.reading (env.table.carries_natural .v1 _ _ _)
    exact hcarries hlog

theorem carries_checkAssign (lhs rhs : Typed.Expr) : Carries (checkAssign lhs rhs) env := by
  cases lhs with
  | name note symbol =>
    cases symbol with
    | error error => exact .pure _ _
    | ok id =>
      intro hlog
      have hsymbols : (env.under .v1).table.symbols = env.table.symbols := rfl
      simp only [checkAssign, hsymbols] at hlog ⊢
      cases hsymbol : env.table.symbols[id]? with
      | none => rfl
      | some symbol =>
        obtain ⟨name, kind, ty, loc⟩ := symbol
        rw [hsymbol] at hlog
        cases kind with
        | var => exact Carries.checkConversion h rhs note.ty hlog
        | mapping | qubitRegister | bitRegister => cases hlog
  | literal | index | call | axis => exact fun hlog => by cases hlog

theorem carries_assign {lhs rhs : Expr} (hlhs : lhs.Sized .v3) (hrhs : rhs.Sized .v3) :
    Carries (analyzeAssign lhs rhs) env :=
  (Carries.expr h (Or.inl hlhs)).seq fun _ => (Carries.expr h (Or.inl hrhs)).seq fun _ =>
    (carries_checkAssign h _ _).last _

theorem carries_bound {e : Expr} (he : e.Sized .v3) : Carries (analyzeBound e) env :=
  (Carries.expr h (Or.inl he)).seq fun _ => (Carries.checkConversion h _ .int).last _

end

theorem carries_checkLoopControl (control : LoopControl) (loc : Location) :
    Carries (checkLoopControl control loc) env := by
  intro hlog
  have hloop : (env.under .v1).table.inLoop = env.table.inLoop := rfl
  unfold checkLoopControl at hlog ⊢
  rw [hloop]
  cases h : env.table.inLoop with
  | true => rfl
  | false =>
    rw [h] at hlog
    cases hlog

mutual

/-- A statement without instructions is the same in cQASM 1.x if nothing is recorded about it and
all expressions in it are sized. -/
theorem carries_analyze {env : Env} (h : env.Defined .v3) : (s : Stmt) →
    (∀ s' ∈ s.nodes, s'.Sized .v3) → (∀ s' ∈ s.nodes, s'.isGate = false) → Carries s.analyze env
  | .qubits size loc => fun hsized _ => by
    have hsize := hsized _ (List.mem_singleton_self _) size List.mem_cons_self
    rw [analyze]
    exact (carries_qubits h hsize loc).marked loc
  | .declare name type init loc => fun hsized _ => by
    rw [analyze]
    exact (carries_declare h (hsized _ (List.mem_singleton_self _))).marked loc
  | .map target name loc => fun hsized _ => by
    have htarget := hsized _ (List.mem_singleton_self _) target List.mem_cons_self
    rw [analyze]
    exact (carries_map h htarget name).marked loc
  | .instruction i => fun _ hgate => by cases hgate _ (List.mem_singleton_self _)
  | .bundle is loc => fun _ hgate => by cases hgate _ (List.mem_singleton_self _)
  | .assign lhs rhs loc => fun hsized _ => by
    have hsides := hsized _ (List.mem_singleton_self _)
    have hlhs := hsides lhs List.mem_cons_self
    have hrhs := hsides rhs (List.mem_cons_of_mem _ List.mem_cons_self)
    rw [analyze]
    exact (carries_assign h hlhs hrhs).marked loc
  | .loopControl control loc => fun _ _ => by
    rw [analyze]
    exact ((carries_checkLoopControl control loc).last _).marked loc
  | .subcircuit name iterations body loc => fun hsized hgate => by
    rw [nodes, List.forall_mem_cons] at hsized hgate
    have hnamed := h.nameSubcircuit name
    rw [analyze]
    refine ((Carries.nameSubcircuit name env).seq fun _ => ?_).marked loc
    refine (carries_iterations hnamed iterations).seq fun _ => ?_
    rw [env_analyzeIterations]
    exact ((carries_analyzeAll (hnamed.enter .subcircuit) body hsized.2 hgate.2).inBlock
      .subcircuit).last _
  | .ifElse branches otherwise loc => fun hsized hgate => by
    rw [nodes, List.forall_mem_cons, List.forall_mem_append] at hsized hgate
    rw [analyze]
    have hbranches := carries_branches h branches hsized.1 hsized.2.1 hgate.2.1
    refine (hbranches.seq fun hlog => ?_).marked loc
    have hbehind := (tracks_branches h branches (Diagnostics.clean_of_eq_nil hlog)).defined_of_sized
      ⟨hsized.1, hsized.2.1⟩
    exact (carries_otherwise hbehind otherwise hsized.2.2 hgate.2.2).last _
  | .whileLoop cond body loc => fun hsized hgate => by
    rw [nodes, List.forall_mem_cons] at hsized hgate
    have hcond := hsized.1 cond List.mem_cons_self
    rw [analyze]
    refine ((Carries.condition h hcond).seq fun _ => ?_).marked loc
    exact ((carries_analyzeAll (h.enter .loop) body hsized.2 hgate.2).inBlock .loop).last _
  | .repeatUntil body cond loc => fun hsized hgate => by
    rw [nodes, List.forall_mem_cons] at hsized hgate
    have hcond := hsized.1 cond List.mem_cons_self
    have hbody := carries_analyzeAll (h.enter .loop) body hsized.2 hgate.2
    rw [analyze]
    refine ((hbody.inBlock .loop).seq fun hlog => ?_).marked loc
    -- the condition stands behind the body
    rw [log_inBlock] at hlog
    have hbehind := (tracks_stmts (h.enter .loop) body
      (Diagnostics.clean_of_eq_nil hlog)).defined_of_sized hsized.2
    exact (Carries.condition (hbehind.leave env) hcond).last _
  | .foreach name first last body loc => fun hsized hgate => by
    rw [nodes, List.forall_mem_cons] at hsized hgate
    have hfirst := hsized.1 first List.mem_cons_self
    have hlast := hsized.1 last (List.mem_cons_of_mem _ List.mem_cons_self)
    rw [analyze]
    refine ((carries_bound h hfirst).seq fun _ => (carries_bound h hlast).seq fun _ =>
      (Carries.inBlock .loop ?_).last _).marked loc
    refine (Carries.declareSymbol _ _).seq fun hlog => ?_
    rw [declareSymbol_of_clean (Diagnostics.clean_of_eq_nil hlog)]
    have hty : (Symbol.mk name.name .var .int name.loc).ty ≠ .undefined := nofun
    have hinner := (h.enter .loop).bindCurrent hty
    exact (carries_analyzeAll hinner body hsized.2 hgate.2).last _

theorem carries_analyzeAll {env : Env} (h : env.Defined .v3) : (ss : List Stmt) →
    (∀ s ∈ nodesAll ss, s.Sized .v3) → (∀ s ∈ nodesAll ss, s.isGate = false) →
    Carries (analyzeAll ss) env
  | [] => fun _ _ => .pure _ _
  | s :: ss => fun hsized hgate => by
    rw [nodesAll, List.forall_mem_append] at hsized hgate
    rw [analyzeAll]
    refine (carries_analyze h s hsized.1 hgate.1).seq fun hlog => ?_
    have hbehind := (tracks_stmt h s (Diagnostics.clean_of_eq_nil hlog)).defined_of_sized hsized.1
    exact (carries_analyzeAll hbehind ss hsized.2 hgate.2).last _

theorem carries_branches {env : Env} (h : env.Defined .v3) : (branches : List (Expr × List Stmt)) →
    (∀ e ∈ branches.map (·.1), e.Sized .v3) → (∀ s ∈ nodesBranches branches, s.Sized .v3) →
    (∀ s ∈ nodesBranches branches, s.isGate = false) → Carries (analyzeBranches branches) env
  | [] => fun _ _ _ => .pure _ _
  | (cond, body) :: branches => fun hconds hsized hgate => by
    rw [List.map_cons, List.forall_mem_cons] at hconds
    rw [nodesBranches, List.forall_mem_append] at hsized hgate
    have hbody := carries_analyzeAll (h.enter .branch) body hsized.1 hgate.1
    rw [analyzeBranches]
    refine (Carries.condition h hconds.1).seq fun _ => (hbody.inBlock .branch).seq fun hlog => ?_
    rw [log_inBlock] at hlog
    have hbehind := (tracks_stmts (h.enter .branch) body
      (Diagnostics.clean_of_eq_nil hlog)).defined_of_sized hsized.1
    exact (carries_branches (hbehind.leave env) branches hconds.2 hsized.2 hgate.2).last _

theorem carries_otherwise {env : Env} (h : env.Defined .v3) : (otherwise : Option (List Stmt)) →
    (∀ s ∈ nodesOtherwise otherwise, s.Sized .v3) →
    (∀ s ∈ nodesOtherwise otherwise, s.isGate = false) → Carries (analyzeOtherwise otherwise) env
  | none => fun _ _ => .pure _ _
  | some body => fun hsized hgate => by
    rw [analyzeOtherwise]
    exact ((carries_analyzeAll (h.enter .branch) body hsized hgate).inBlock .branch).map _

end

end Tree.Stmt

/-! ## Programs -/

namespace Tree.Program

variable {program program' : Program}

/-- Without instructions, a program that is fully resolved in cQASM 3.0 and about which nothing is
recorded becomes the same typed statements in cQASM 1.x, and nothing is recorded about it there. The
symbols are the same, too. -/
theorem analyze_under_v1 (hstmts : program'.stmts = program.stmts)
    (h3 : program.dialect? = some .v3) (h1 : program'.dialect? = some .v1)
    (hgate : ∀ s ∈ program.nodes, s.isGate = false) (hlog : program.analyze.diagnostics = [])
    (hresolved : program.analyze.program.isFullyResolved = true) :
    program'.analyze.diagnostics = []
      ∧ program'.analyze.program.stmts = program.analyze.program.stmts
      ∧ ∃ table, program.analyze.table = some table
        ∧ program'.analyze.table = some (table.under .v1) := by
  rw [Typed.Program.isFullyResolved_iff] at hresolved
  rw [table_analyze h3, table_analyze h1]
  rw [analyze_eq h3] at hlog hresolved ⊢
  rw [analyze_eq h1]
  have hnew := Env.defined_new .v3
  have htracks := Stmt.tracks_stmts hnew program.stmts (Diagnostics.clean_of_eq_nil hlog)
  have hsized := htracks.iff.mp hresolved
  have hrun := Stmt.carries_analyzeAll hnew program.stmts hsized hgate hlog
  have hnew' : (Env.new .v3).under .v1 = Env.new .v1 := rfl
  rw [hnew', ← hstmts] at hrun
  refine ⟨congrArg Logged.log hrun, ?_, program.finalTable .v3, rfl, ?_⟩
  · show (Stmt.analyzeAll program'.stmts (Env.new .v1)).value.1 = _
    rw [hrun, hstmts]
    rfl
  · rw [finalTable, hrun, hstmts]
    rfl

/-- `qubits 2; float x = 2 ** 3; foreach (i = 0..1) { x = x * i }; if (x == 8) { map q[0], a }` under
the given version. -/
def powers (version : List Int) : Program :=
  let loc : Location := ⟨1, 1⟩
  let x : Expr := .name ⟨"x", loc⟩
  let power : Expr := .binary .pow (.int loc 2) (.int loc 3) loc
  { version := some ⟨version, loc⟩
    stmts :=
      [.qubits (.int loc 2) loc, .declare ⟨"x", loc⟩ (.scalar .float) (some power) loc,
        .foreach ⟨"i", loc⟩ (.int loc 0) (.int loc 1)
          [.assign x (.binary .mul x (.name ⟨"i", loc⟩) loc) loc] loc,
        .ifElse [(.binary .eq x (.int loc 8) loc, [.map (.items loc "q" [0]) ⟨"a", loc⟩ loc])] none
          loc] }

/-- The complex overloads of the three operators, which cQASM 1.2 has besides, are not taken. -/
theorem analyze_under_v1_powers :
    (powers [3]).dialect? = some .v3 ∧ (powers [1, 2]).dialect? = some .v1
      ∧ (powers [3]).analyze.program.isFullyResolved = true
      ∧ (powers [1, 2]).analyze.diagnostics = []
      ∧ (powers [1, 2]).analyze.program.stmts = (powers [3]).analyze.program.stmts
      ∧ ∃ table, (powers [3]).analyze.table = some table
        ∧ (powers [1, 2]).analyze.table = some (table.under .v1)
        ∧ table.symbols.map (·.ty) = [.qubit 2, .bit 2, .float, .int, .qubit 1] := by
  have h3 : (powers [3]).dialect? = some .v3 := rfl
  have h1 : (powers [1, 2]).dialect? = some .v1 := rfl
  have hsame : (powers [1, 2]).stmts = (powers [3]).stmts := rfl
  have hresolved : (powers [3]).analyze.program.isFullyResolved = true := by decide +kernel
  obtain ⟨hlog, hstmts, table, htable, htable'⟩ :=
    analyze_under_v1 hsame h3 h1 (by decide +kernel) (by decide +kernel) hresolved
  have htypes : (powers [3]).analyze.table.map (·.symbols.map (·.ty))
      = some [.qubit 2, .bit 2, .float, .int, .qubit 1] := by decide +kernel
  rw [htable] at htypes
  exact ⟨h3, h1, hresolved, hlog, hstmts, table, htable, htable', Option.some.inj htypes⟩

end Tree.Program

end Cqasm
