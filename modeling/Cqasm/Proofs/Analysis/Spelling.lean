import Cqasm.Proofs.Analysis.Reached
import Cqasm.Proofs.Dialect.Extension
import Cqasm.Proofs.Symbol.Named
import Cqasm.Proofs.Typed.Spelling

/-!
# Letter case does not matter in cQASM 1.x

In cQASM 1.x the case of the letters in the names of instructions and functions does not matter. Two
runs are compared, one on a program and one on the program in another spelling. They go in lockstep
through the same environments, and what they give and record is the same once the written names are
lower-cased (`analyze_respell`). Names of operands and subcircuits remain different if the case of a
letter is (`caseSensitive_of_reached`).

* `Logged.Agrees`, `Analysis.Agrees` : runs in lockstep, without and with an environment;
* `Env.CaseSensitive` : declared names are told apart letter by letter.
-/

namespace Cqasm

/-! ## Looking up a name -/

namespace Dialect

theorem caseRule_instructions : v1.instructions.caseRule = .insensitive :=
  OverloadTable.caseRule_ofList .insensitive Builtin.instructions1

theorem caseRule_functions : v1.functions.caseRule = .insensitive :=
  OverloadTable.caseRule_ofList .insensitive (Builtin.functions ++ Builtin.complexFunctions)

end Dialect

theorem OverloadTable.get?_of_lowerCase {table : OverloadTable} (h : table.caseRule = .insensitive)
    {name name' : String} (hname : Text.lowerCase name' = Text.lowerCase name) :
    table.get? name' = table.get? name := by
  rw [get?, get?, h, CaseRule.key, CaseRule.key, hname]

/-- The error about another name. -/
def ResolveError.withName (name : String) : ResolveError → ResolveError
  | unknown _ => unknown name
  | noMatch _ args => noMatch name args
  | ambiguous _ candidates => ambiguous name candidates

/-- The name of a call is only quoted. -/
theorem resolve_withName (rules : Promotions) (set : Option OverloadSet) (name name' : String)
    (args : List Ty) :
    resolve rules set name' args = (resolve rules set name args).mapError (.withName name') := by
  unfold resolve
  cases set with
  | none => rfl
  | some set =>
    simp only
    generalize undominated (applicable rules set args) = best
    match best with
    | [] | [_] | _ :: _ :: _ => rfl

/-! ## Checks in lockstep -/

/-- The values are the same from the given point of view, and so are the diagnostics but for the
spelling of instructions and functions. -/
structure Logged.Agrees {α β : Type} (view : α → β) (x y : Logged α) : Prop where
  value : view y.value = view x.value
  log : y.log.map Diagnostic.lowered = x.log.map Diagnostic.lowered

namespace Logged.Agrees

variable {α β γ δ : Type} {view : α → β} {x y : Logged α}

theorem refl (view : α → β) (x : Logged α) : x.Agrees view x := ⟨rfl, rfl⟩

theorem of_eq (view : α → β) (h : y = x) : x.Agrees view y := h ▸ .refl view y

theorem pure {a b : α} (h : view b = view a) :
    (Pure.pure a : Logged α).Agrees view (Pure.pure b) := ⟨h, rfl⟩

theorem bind {view' : γ → δ} (h : x.Agrees view y) {next next' : α → Logged γ}
    (hnext : ∀ a b, view b = view a → (next a).Agrees view' (next' b)) :
    (x >>= next).Agrees view' (y >>= next') where
  value := by rw [value_bind, value_bind, (hnext _ _ h.value).value]
  log := by
    rw [log_bind, log_bind, List.map_append, List.map_append, h.log, (hnext _ _ h.value).log]

theorem given {x y : Logged (α × Env)} (h : x.Agrees (Prod.map view id) y) :
    view y.value.1 = view x.value.1 := (Prod.ext_iff.mp h.value).1

theorem env {x y : Logged (α × Env)} (h : x.Agrees (Prod.map view id) y) :
    y.value.2 = x.value.2 := (Prod.ext_iff.mp h.value).2

end Logged.Agrees

namespace Typed.Expr

variable {α : Type} {check : Expr → α} (hcheck : ∀ e, check e.lowered = check e)

include hcheck

/-- What a check finds does not depend on the spelling if it finds the same in lower case. -/
theorem eq_of_lowered {e e' : Expr} (h : e'.lowered = e.lowered) : check e' = check e := by
  rw [← hcheck e', h, hcheck e]

theorem map_of_loweredAll {es es' : List Expr} (h : loweredAll es' = loweredAll es) :
    es'.map check = es.map check := by
  have hcomp : check ∘ lowered = check := funext hcheck
  rw [loweredAll_eq_map, loweredAll_eq_map] at h
  simpa only [List.map_map, hcomp] using congrArg (List.map check) h

end Typed.Expr

theorem Typed.Expr.allConst_of_loweredAll {es es' : List Typed.Expr}
    (h : loweredAll es' = loweredAll es) : es'.all (·.isConst) = es.all (·.isConst) := by
  simpa only [List.all_map, Function.id_comp] using
    congrArg (List.all · id) (map_of_loweredAll isConst_lowered h)

namespace SymbolTable

variable (table : SymbolTable)

theorem report_agrees {cause cause' : Cause} (h : cause'.lowered = cause.lowered)
    (loc : Location) : (table.report cause loc).Agrees id (table.report cause' loc) where
  value := rfl
  log := congrArg (fun c => [Diagnostic.mk c loc (some table.dialect)]) h

theorem resolveCall_agrees {unknown unknown' : Cause} (hunknown : unknown'.lowered = unknown.lowered)
    (set : Option OverloadSet) {name name' : String}
    (hname : Text.lowerCase name' = Text.lowerCase name) (args : List Ty) (loc : Location) :
    (table.resolveCall unknown set name args loc).Agrees id
      (table.resolveCall unknown' set name' args loc) := by
  unfold resolveCall
  rw [resolve_withName _ set "" name, resolve_withName _ set "" name']
  cases resolve table.dialect.promotions set "" args with
  | ok o => exact .refl _ _
  | error error =>
    cases error with
    | unknown => exact (table.report_agrees hunknown loc).bind fun _ _ _ => .refl _ _
    | noMatch _ args =>
      refine (table.report_agrees ?_ loc).bind fun _ _ _ => .refl _ _
      rw [Cause.lowered, Cause.lowered, hname]
    | ambiguous _ candidates =>
      simp only [Except.mapError, ResolveError.withName]
      split
      · refine (table.report_agrees ?_ loc).bind fun _ _ _ => .refl _ _
        rw [Cause.lowered, Cause.lowered, hname]
      · exact .refl _ _

variable {table}

theorem resolveFunction_agrees (h : table.dialect = .v1) {name name' : String}
    (hname : Text.lowerCase name' = Text.lowerCase name) (args : List Ty) (loc : Location) :
    (table.resolveFunction name args loc).Agrees id (table.resolveFunction name' args loc) := by
  have hset : table.function? name' = table.function? name := by
    rw [function?, function?, h, OverloadTable.get?_of_lowerCase Dialect.caseRule_functions hname]
  have hunknown : (Cause.unknownFunction name').lowered = (Cause.unknownFunction name).lowered :=
    congrArg Cause.unknownFunction hname
  rw [resolveFunction, resolveFunction, hset]
  exact table.resolveCall_agrees hunknown _ hname args loc

theorem warnDeprecated_agrees {name name' : String}
    (hname : Text.lowerCase name' = Text.lowerCase name) (o : Overload) (loc : Location) :
    (table.warnDeprecated name o loc).Agrees id (table.warnDeprecated name' o loc) := by
  unfold warnDeprecated
  cases o.replacement with
  | none => exact .refl _ _
  | some replacement =>
    refine table.report_agrees ?_ loc
    rw [Cause.lowered, Cause.lowered, hname]

theorem resolveInstruction_agrees (h : table.dialect = .v1) {name name' : String}
    (hname : Text.lowerCase name' = Text.lowerCase name) (args : List Ty) (loc : Location) :
    (table.resolveInstruction name args loc).Agrees id
      (table.resolveInstruction name' args loc) := by
  have hset : table.instruction? name' = table.instruction? name := by
    rw [instruction?, instruction?, h,
      OverloadTable.get?_of_lowerCase Dialect.caseRule_instructions hname]
  have hunknown : (Cause.unknownInstruction name').lowered
      = (Cause.unknownInstruction name).lowered := congrArg Cause.unknownInstruction hname
  rw [resolveInstruction, resolveInstruction, hset]
  refine (table.resolveCall_agrees hunknown _ hname args loc).bind fun o o' ho => ?_
  cases ho
  cases o with
  | none => exact .refl _ _
  | some o => exact (warnDeprecated_agrees hname o loc).bind fun _ _ _ => .refl _ _

/-! ### Checks of typed expressions -/

theorem checkConversion_lowered (e : Typed.Expr) (ty : Ty) :
    table.checkConversion e.lowered ty = table.checkConversion e ty := by
  simp only [checkConversion, Typed.Expr.ty_lowered, Typed.Expr.loc_lowered]

theorem checkConversions_lowered (ty : Ty) (es : List Typed.Expr) :
    table.checkConversions ty (Typed.Expr.loweredAll es) = table.checkConversions ty es := by
  induction es with
  | nil => rfl
  | cons e es ih =>
    rw [Typed.Expr.loweredAll, checkConversions, checkConversions, ih, checkConversion_lowered]

theorem constInteger_lowered (e : Typed.Expr) :
    table.constInteger e.lowered = table.constInteger e := by
  simp only [constInteger, Typed.Expr.ty_lowered, Typed.Expr.loc_lowered,
    Typed.Expr.constInt?_lowered]

theorem registerSize_lowered (e : Typed.Expr) :
    table.registerSize e.lowered = table.registerSize e := by
  simp only [registerSize, constInteger_lowered, Typed.Expr.loc_lowered]

theorem iterationCount_lowered (e : Typed.Expr) :
    table.iterationCount e.lowered = table.iterationCount e := by
  simp only [iterationCount, constInteger_lowered, Typed.Expr.loc_lowered]

end SymbolTable

/-! ## Expressions in lockstep -/

namespace Tree

open Typed.Expr (lowered loweredAll loweredAll_eq_map)

variable {table : SymbolTable}

theorem typedCall_agrees (h : table.dialect = .v1) {name name' : String}
    (hname : Text.lowerCase name' = Text.lowerCase name) {args args' : List Typed.Expr}
    (hargs : loweredAll args' = loweredAll args) (loc : Location) :
    (typedCall table name args loc).Agrees lowered (typedCall table name' args' loc) := by
  unfold typedCall
  rw [Typed.Expr.map_of_loweredAll Typed.Expr.ty_lowered hargs,
    Typed.Expr.allConst_of_loweredAll hargs]
  refine (SymbolTable.resolveFunction_agrees h hname _ loc).bind fun o o' ho => ?_
  cases ho
  exact .pure (by rw [lowered, lowered, hname, hargs])

theorem typedAxis_agrees {elements elements' : List Typed.Expr}
    (h : loweredAll elements' = loweredAll elements) (loc : Location) :
    (typedAxis table elements loc).Agrees lowered (typedAxis table elements' loc) := by
  have hlength : elements'.length = elements.length := by
    simpa only [loweredAll_eq_map, List.length_map] using congrArg List.length h
  have hconversions : table.checkConversions .float elements'
      = table.checkConversions .float elements := by
    rw [← table.checkConversions_lowered, h, table.checkConversions_lowered]
  unfold typedAxis
  rw [hlength, hconversions, Typed.Expr.allConst_of_loweredAll h]
  refine (Logged.Agrees.refl id _).bind fun _ _ _ => ?_
  refine (Logged.Agrees.refl id _).bind fun convertible convertible' hconvertible => ?_
  cases hconvertible
  exact .pure (by rw [lowered, lowered, h])

namespace Expr

mutual

/-- Another spelling of an expression becomes the same expression in another spelling. -/
theorem analyze_respelled (h : table.dialect = .v1) (f : Respelling) : (e : Expr) →
    (e.analyze table).Agrees lowered ((e.respell f).analyze table)
  | .literal value loc => by
    rw [respell]
    exact .refl _ _
  | .name ident => by
    rw [respell]
    exact .refl _ _
  | .index target entries loc => by
    rw [respell, analyze, analyze]
    refine (Logged.Agrees.refl id _).bind fun resolved resolved' hresolved => ?_
    cases hresolved
    refine (analyzeEntries_respelled h f entries).bind fun spans spans' hspans => ?_
    cases hspans
    exact .refl _ _
  | .unary op operand loc => by
    rw [respell, analyze, analyze]
    refine (analyze_respelled h f operand).bind fun e e' he => ?_
    exact typedCall_agrees h rfl (by simp only [loweredAll, he]) loc
  | .binary op lhs rhs loc => by
    rw [respell, analyze, analyze]
    refine (analyze_respelled h (f.part 0) lhs).bind fun l l' hl => ?_
    refine (analyze_respelled h (f.part 1) rhs).bind fun r r' hr => ?_
    exact typedCall_agrees h rfl (by simp only [loweredAll, hl, hr]) loc
  | .call function args loc => by
    rw [respell, analyze, analyze]
    refine (analyzeAll_respelled h (f.part 0) args).bind fun es es' hes => ?_
    exact typedCall_agrees h (f.lowerCase_eq [] function.name) hes loc
  | .array elements loc => by
    rw [respell, analyze, analyze]
    exact (analyzeAll_respelled h f elements).bind fun es es' hes => typedAxis_agrees hes loc

theorem analyzeAll_respelled (h : table.dialect = .v1) (f : Respelling) : (es : List Expr) →
    (analyzeAll table es).Agrees loweredAll (analyzeAll table (respellAll f es))
  | [] => .refl _ _
  | e :: es => by
    rw [respellAll, analyzeAll, analyzeAll]
    refine (analyze_respelled h (f.part 0) e).bind fun e e' he => ?_
    refine (analyzeAll_respelled h (f.part 1) es).bind fun es es' hes => ?_
    exact .pure (by rw [loweredAll, loweredAll, he, hes])

theorem analyzeEntry_respelled (h : table.dialect = .v1) (f : Respelling) :
    (entry : IndexEntry Expr) →
    (analyzeEntry table entry).Agrees id (analyzeEntry table (respellEntry f entry))
  | .item e => by
    rw [respellEntry, analyzeEntry, analyzeEntry]
    refine (analyze_respelled h f e).bind fun e e' he => ?_
    rw [Typed.Expr.eq_of_lowered table.constInteger_lowered he,
      Typed.Expr.eq_of_lowered Typed.Expr.loc_lowered he]
    exact .refl _ _
  | .range first last => by
    rw [respellEntry, analyzeEntry, analyzeEntry]
    refine (analyze_respelled h (f.part 0) first).bind fun l l' hl => ?_
    refine (analyze_respelled h (f.part 1) last).bind fun r r' hr => ?_
    rw [Typed.Expr.eq_of_lowered table.constInteger_lowered hl,
      Typed.Expr.eq_of_lowered table.constInteger_lowered hr,
      Typed.Expr.eq_of_lowered Typed.Expr.loc_lowered hl,
      Typed.Expr.eq_of_lowered Typed.Expr.loc_lowered hr]
    exact .refl _ _

theorem analyzeEntries_respelled (h : table.dialect = .v1) (f : Respelling) :
    (entries : List (IndexEntry Expr)) →
    (analyzeEntries table entries).Agrees id (analyzeEntries table (respellEntries f entries))
  | [] => .refl _ _
  | entry :: entries => by
    rw [respellEntries, analyzeEntries, analyzeEntries]
    refine (analyzeEntry_respelled h (f.part 0) entry).bind fun span span' hspan => ?_
    refine (analyzeEntries_respelled h (f.part 1) entries).bind fun spans spans' hspans => ?_
    cases hspan
    cases hspans
    exact .refl _ _

end

end Expr

end Tree

/-! ## Steps in lockstep -/

/-- In every environment of cQASM 1.x the two steps give the same from the given point of view, leave
the same environment of cQASM 1.x, and record the same diagnostics but for the spelling of
instructions and functions. -/
def Analysis.Agrees {α β : Type} (view : α → β) (step step' : Analysis α) : Prop :=
  ∀ env, env.table.dialect = .v1 →
    (step env).Agrees (Prod.map view id) (step' env) ∧ (step env).value.2.table.dialect = .v1

namespace Analysis.Agrees

variable {α β γ δ : Type} {view : α → β} {view' : γ → δ} {step step' : Analysis α}

theorem pure {a b : α} (h : view b = view a) : Agrees view (Pure.pure a) (Pure.pure b) :=
  fun env hdialect => ⟨⟨congrArg (·, env) h, rfl⟩, hdialect⟩

theorem seq {next next' : α → Analysis γ} (h : Agrees view step step')
    (hnext : ∀ a b, view b = view a → Agrees view' (next a) (next' b)) :
    Agrees view' (step >>= next) (step' >>= next') := by
  intro env hdialect
  obtain ⟨hfirst, hbehind⟩ := h env hdialect
  obtain ⟨hsecond, hend⟩ := hnext _ _ hfirst.given _ hbehind
  refine ⟨⟨?_, ?_⟩, hend⟩
  · rw [value_bind, value_bind, hfirst.env, hsecond.value]
  · rw [log_bind, log_bind, List.map_append, List.map_append, hfirst.log, hfirst.env, hsecond.log]

/-- Steps that are followed by putting together the typed statement. -/
theorem last (h : Agrees view step step') {g g' : α → γ}
    (hlast : ∀ a b, view b = view a → view' (g' b) = view' (g a)) :
    Agrees view' (step >>= fun a => Pure.pure (g a)) (step' >>= fun a => Pure.pure (g' a)) :=
  h.seq fun a b hab => .pure (hlast a b hab)

theorem map (h : Agrees view step step') {g : α → γ}
    (hlast : ∀ a b, view b = view a → view' (g b) = view' (g a)) :
    Agrees view' (g <$> step) (g <$> step') := by
  rw [map_eq_pure_bind, map_eq_pure_bind]
  exact h.last hlast

theorem reading {g g' : SymbolTable → Logged α}
    (h : ∀ table, table.dialect = .v1 → (g table).Agrees view (g' table)) :
    Agrees view (reading g) (reading g') := by
  intro env hdialect
  have hread := h env.table hdialect
  refine ⟨⟨congrArg (·, env) hread.value, ?_⟩, hdialect⟩
  rw [log_reading, log_reading]
  exact hread.log

/-- A step on which the spelling has no influence. -/
theorem fixed (step : Analysis α)
    (h : ∀ env, (step env).value.2.table.dialect = env.table.dialect) : Agrees id step step :=
  fun env hdialect => ⟨.refl _ _, (h env).trans hdialect⟩

theorem declareSymbol (symbol : Symbol) :
    Agrees id (declareSymbol symbol) (declareSymbol symbol) :=
  .fixed _ (dialect_declareSymbol symbol)

theorem nameSubcircuit (ident : Tree.Ident) :
    Agrees id (nameSubcircuit ident) (nameSubcircuit ident) :=
  .fixed _ fun env => congrArg SymbolTable.dialect (table_nameSubcircuit ident env)

/-- The mark of a statement tells whether there is an error, whatever its message quotes. -/
theorem marked (loc : Location) {step step' : Analysis (Typed.Mark → Typed.Stmt)}
    (h : Agrees (fun make mark => (make mark).lowered) step step') :
    Agrees Typed.Stmt.lowered (marked loc step) (marked loc step') := by
  intro env hdialect
  obtain ⟨hstep, hbehind⟩ := h env hdialect
  have herrors :=
    Diagnostics.anyErrors_of_severities (Diagnostics.severities_of_lowered hstep.log)
  refine ⟨⟨?_, hstep.log⟩, hbehind⟩
  rw [value_marked, value_marked, herrors, hstep.env]
  exact congrArg (·, _) (congrFun hstep.given _)

theorem inBlock (kind : BlockKind) (h : Agrees view step step') :
    Agrees view (inBlock kind step) (inBlock kind step') := by
  intro env hdialect
  obtain ⟨hbody, hbehind⟩ := h (env.enter kind) hdialect
  refine ⟨⟨?_, ?_⟩, hbehind⟩
  · have hleave := congrArg (Prod.map id env.leave) hbody.value
    rw [value_inBlock, value_inBlock]
    exact hleave
  · rw [log_inBlock, log_inBlock]
    exact hbody.log

/-! ### Expressions and checks -/

variable (f : Respelling)

theorem expr (e : Tree.Expr) : Agrees Typed.Expr.lowered (expr e) (expr (e.respell f)) :=
  .reading fun _ h => e.analyze_respelled h f

theorem exprs (es : List Tree.Expr) :
    Agrees Typed.Expr.loweredAll (Analysis.reading fun table => Tree.Expr.analyzeAll table es)
      (Analysis.reading fun table => Tree.Expr.analyzeAll table (Tree.Expr.respellAll f es)) :=
  .reading fun _ h => Tree.Expr.analyzeAll_respelled h f es

/-- A check of a typed expression that only reads the symbol table. -/
theorem check {check : SymbolTable → Typed.Expr → Logged γ}
    (hcheck : ∀ table e, check table e.lowered = check table e) {e e' : Typed.Expr}
    (h : e'.lowered = e.lowered) :
    Agrees id (Analysis.reading fun table => check table e)
      (Analysis.reading fun table => check table e') :=
  .reading fun table _ => .of_eq id (Typed.Expr.eq_of_lowered (hcheck table) h)

theorem checkConversion {e e' : Typed.Expr} (h : e'.lowered = e.lowered) (ty : Ty) :
    Agrees id (checkConversion e ty) (checkConversion e' ty) :=
  .reading fun table _ => by
    rw [← table.checkConversion_lowered e', h, table.checkConversion_lowered e]
    exact .refl _ _

theorem registerSize {e e' : Typed.Expr} (h : e'.lowered = e.lowered) :
    Agrees id (Analysis.reading fun table => table.registerSize e)
      (Analysis.reading fun table => table.registerSize e') :=
  .check (fun table => table.registerSize_lowered) h

theorem iterationCount {e e' : Typed.Expr} (h : e'.lowered = e.lowered) :
    Agrees id (Analysis.reading fun table => table.iterationCount e)
      (Analysis.reading fun table => table.iterationCount e') :=
  .check (fun table => table.iterationCount_lowered) h

theorem condition (e : Tree.Expr) :
    Agrees Typed.Expr.lowered (condition e) (condition (e.respell f)) :=
  (expr f e).seq fun _ _ he => (checkConversion he .bool).last fun _ _ _ => he

end Analysis.Agrees

/-! ## Statements in lockstep -/

namespace Tree.Stmt

open Analysis
open Typed.Expr (lowered loweredAll)

variable (f : Respelling)

theorem analyzeQubits_respelled (size : Expr) (loc : Location) :
    Agrees (fun make mark => (make mark).lowered) (analyzeQubits size loc)
      (analyzeQubits (size.respell f) loc) := by
  refine (Agrees.expr f size).seq fun size size' hsize => ?_
  refine (Agrees.registerSize hsize).seq fun n n' hn => ?_
  cases hn
  refine (Agrees.declareSymbol _).seq fun q q' hq => (Agrees.declareSymbol _).last fun b b' hb => ?_
  cases hq
  cases hb
  funext mark
  rw [Typed.Stmt.lowered, Typed.Stmt.lowered, hsize]

theorem analyzeType_respelled (type : TypeSpec) :
    Agrees (Prod.map (Option.map lowered) id) (analyzeType type)
      (analyzeType (type.respell f)) := by
  cases type with
  | scalar kind => exact .pure rfl
  | register kind size =>
    cases size with
    | none => exact .pure rfl
    | some size =>
      refine (Agrees.expr f size).seq fun size size' hsize => ?_
      refine (Agrees.registerSize hsize).last fun n n' hn => ?_
      cases hn
      exact congrArg (fun e => (some e, _)) hsize

theorem analyzeInit_respelled (ty : Ty) (init : Option Expr) :
    Agrees (Option.map lowered) (analyzeInit ty init)
      (analyzeInit ty (init.map (Expr.respell f))) := by
  cases init with
  | none => exact .pure rfl
  | some e =>
    exact (Agrees.expr f e).seq fun _ _ he =>
      (Agrees.checkConversion he ty).last fun _ _ _ => congrArg some he

theorem analyzeDeclare_respelled (name : Ident) (type : TypeSpec) (init : Option Expr) :
    Agrees (fun make mark => (make mark).lowered) (analyzeDeclare name type init)
      (analyzeDeclare name (type.respell (f.part 0)) (init.map (Expr.respell (f.part 1)))) := by
  refine (analyzeType_respelled (f.part 0) type).seq fun found found' hfound => ?_
  obtain ⟨size, ty, kind⟩ := found
  obtain ⟨size', ty', kind'⟩ := found'
  obtain ⟨hsize, hrest⟩ := Prod.ext_iff.mp hfound
  cases hrest
  refine (analyzeInit_respelled (f.part 1) ty init).seq fun e e' he => ?_
  refine (Agrees.declareSymbol _).last fun symbol symbol' hsymbol => ?_
  cases hsymbol
  funext mark
  exact congrArg₂ (Typed.Stmt.declare mark symbol) hsize he

theorem analyzeMap_respelled (target : Expr) (name : Ident) :
    Agrees (fun make mark => (make mark).lowered) (analyzeMap target name)
      (analyzeMap (target.respell f) name) := by
  refine (Agrees.expr f target).seq fun target target' htarget => ?_
  rw [Typed.Expr.eq_of_lowered Typed.Expr.ty_lowered htarget]
  refine (Agrees.declareSymbol _).last fun symbol symbol' hsymbol => ?_
  cases hsymbol
  funext mark
  rw [Typed.Stmt.lowered, Typed.Stmt.lowered, htarget]

theorem analyzeCondition_respelled (cond : Option Expr) :
    Agrees (Option.map lowered) (analyzeCondition cond)
      (analyzeCondition (cond.map (Expr.respell f))) := by
  cases cond with
  | none => exact .pure rfl
  | some e => exact (Agrees.condition f e).map fun _ _ he => congrArg some he

theorem analyzeInstruction_respelled (i : Instruction) :
    Agrees Typed.GateCall.lowered (analyzeInstruction i) (analyzeInstruction (i.respell f)) := by
  refine (Agrees.exprs (f.part 1) i.operands).seq fun es es' hes => ?_
  refine (analyzeCondition_respelled (f.part 0) i.condition).seq fun cond cond' hcond => ?_
  have hname : Text.lowerCase (i.respell f).name.name = Text.lowerCase i.name.name :=
    f.lowerCase_eq [] i.name.name
  rw [Typed.Expr.map_of_loweredAll Typed.Expr.ty_lowered hes]
  have hresolve : Agrees id _ _ := .reading fun table h =>
    table.resolveInstruction_agrees h hname (es.map (·.ty)) i.loc
  refine hresolve.last fun o o' ho => ?_
  cases ho
  simp only [Typed.GateCall.lowered, hname, hes]
  exact congrArg (Typed.GateCall.mk _ o · _) hcond

theorem analyzeInstructions_respelled (f : Respelling) (is : List Instruction) :
    Agrees (List.map Typed.GateCall.lowered) (analyzeInstructions is)
      (analyzeInstructions (Instruction.respellAll f is)) := by
  induction is generalizing f with
  | nil => exact .pure rfl
  | cons i is ih =>
    refine (analyzeInstruction_respelled (f.part 0) i).seq fun call call' hcall => ?_
    exact (ih (f.part 1)).last fun calls calls' hcalls => congrArg₂ List.cons hcall hcalls

theorem analyzeIterations_respelled (count : Option Expr) :
    Agrees id (analyzeIterations count) (analyzeIterations (count.map (Expr.respell f))) := by
  cases count with
  | none => exact .pure rfl
  | some e => exact (Agrees.expr f e).seq fun _ _ he => .iterationCount he

theorem checkAssign_lowered (lhs rhs : Typed.Expr) :
    checkAssign lhs.lowered rhs.lowered = checkAssign lhs rhs := by
  have hconversion (ty : Ty) : checkConversion rhs.lowered ty = checkConversion rhs ty := by
    unfold checkConversion
    simp only [SymbolTable.checkConversion_lowered]
  cases lhs with
  | name note symbol =>
    cases symbol with
    | error error => rfl
    | ok id => simp only [lowered, checkAssign, hconversion]
  | literal | index | call | axis => rfl

theorem analyzeAssign_respelled (lhs rhs : Expr) :
    Agrees (fun make mark => (make mark).lowered) (analyzeAssign lhs rhs)
      (analyzeAssign (lhs.respell (f.part 0)) (rhs.respell (f.part 1))) := by
  refine (Agrees.expr (f.part 0) lhs).seq fun l l' hl => ?_
  refine (Agrees.expr (f.part 1) rhs).seq fun r r' hr => ?_
  have hcheck : checkAssign l' r' = checkAssign l r := by
    rw [← checkAssign_lowered l', hl, hr, checkAssign_lowered]
  rw [hcheck]
  refine (Agrees.fixed (checkAssign l r) fun env => ?_).last fun _ _ _ => ?_
  · rw [env_checkAssign]
  · funext mark
    rw [Typed.Stmt.lowered, Typed.Stmt.lowered, hl, hr]

theorem analyzeBound_respelled (e : Expr) :
    Agrees lowered (analyzeBound e) (analyzeBound (e.respell f)) :=
  (Agrees.expr f e).seq fun _ _ he => (Agrees.checkConversion he .int).last fun _ _ _ => he

mutual

/-- Another spelling of a statement is analysed in lockstep with the statement. -/
theorem analyze_respelled (f : Respelling) :
    (s : Stmt) → Agrees Typed.Stmt.lowered s.analyze (s.respell f).analyze
  | .qubits size loc => by
    rw [respell, analyze, analyze]
    exact (analyzeQubits_respelled f size loc).marked loc
  | .declare name type init loc => by
    rw [respell, analyze, analyze]
    exact (analyzeDeclare_respelled f name type init).marked loc
  | .map target name loc => by
    rw [respell, analyze, analyze]
    exact (analyzeMap_respelled f target name).marked loc
  | .instruction i => by
    rw [respell, analyze, analyze]
    refine ((analyzeInstruction_respelled f i).last fun call call' hcall => ?_).marked i.loc
    funext mark
    rw [Typed.Stmt.lowered, Typed.Stmt.lowered, hcall]
  | .bundle is loc => by
    rw [respell, analyze, analyze]
    refine ((analyzeInstructions_respelled f is).last fun calls calls' hcalls => ?_).marked loc
    funext mark
    rw [Typed.Stmt.lowered, Typed.Stmt.lowered, hcalls]
  | .subcircuit name iterations body loc => by
    rw [respell, analyze, analyze]
    refine Agrees.marked loc ((Agrees.nameSubcircuit name).seq fun _ _ _ => ?_)
    refine (analyzeIterations_respelled (f.part 0) iterations).seq fun n n' hn => ?_
    refine ((analyzeAll_respelled (f.part 1) body).inBlock .subcircuit).last fun ss ss' hss => ?_
    cases hn
    funext mark
    rw [Typed.Stmt.lowered, Typed.Stmt.lowered, hss]
  | .assign lhs rhs loc => by
    rw [respell, analyze, analyze]
    exact (analyzeAssign_respelled f lhs rhs).marked loc
  | .ifElse branches otherwise loc => by
    rw [respell, analyze, analyze]
    refine Agrees.marked loc ((analyzeBranches_respelled (f.part 0) branches).seq fun bs bs' hbs => ?_)
    refine (analyzeOtherwise_respelled (f.part 1) otherwise).last fun ss ss' hss => ?_
    funext mark
    rw [Typed.Stmt.lowered, Typed.Stmt.lowered, hbs, hss]
  | .whileLoop cond body loc => by
    rw [respell, analyze, analyze]
    refine Agrees.marked loc ((Agrees.condition (f.part 0) cond).seq fun e e' he => ?_)
    refine ((analyzeAll_respelled (f.part 1) body).inBlock .loop).last fun ss ss' hss => ?_
    funext mark
    rw [Typed.Stmt.lowered, Typed.Stmt.lowered, he, hss]
  | .repeatUntil body cond loc => by
    rw [respell, analyze, analyze]
    refine Agrees.marked loc
      (((analyzeAll_respelled (f.part 0) body).inBlock .loop).seq fun ss ss' hss => ?_)
    refine (Agrees.condition (f.part 1) cond).last fun e e' he => ?_
    funext mark
    rw [Typed.Stmt.lowered, Typed.Stmt.lowered, he, hss]
  | .foreach name first last body loc => by
    rw [respell, analyze, analyze]
    refine Agrees.marked loc ((analyzeBound_respelled (f.part 0) first).seq fun l l' hl => ?_)
    refine (analyzeBound_respelled (f.part 1) last).seq fun r r' hr => ?_
    let symbol := declareSymbol ⟨name.name, .var, .int, name.loc⟩
    have hblock : Agrees (Prod.map id Typed.Stmt.loweredAll)
        (symbol >>= fun symbol => analyzeAll body >>= fun body => pure (symbol, body))
        (symbol >>= fun symbol =>
          analyzeAll (respellAll (f.part 2) body) >>= fun body => pure (symbol, body)) :=
      (Agrees.declareSymbol _).seq fun _ _ hsymbol =>
        (analyzeAll_respelled (f.part 2) body).last fun _ _ hss => Prod.ext hsymbol hss
    refine (hblock.inBlock .loop).last fun found found' hfound => ?_
    obtain ⟨hsymbol, hss⟩ := Prod.ext_iff.mp hfound
    funext mark
    show (Typed.Stmt.foreach mark found'.1 l' r' found'.2).lowered
      = (Typed.Stmt.foreach mark found.1 l r found.2).lowered
    rw [Typed.Stmt.lowered, Typed.Stmt.lowered, hl, hr]
    exact congrArg₂ (Typed.Stmt.foreach mark · _ _ ·) hsymbol hss
  | .loopControl control loc => by
    rw [respell, analyze]
    have hcheck : Agrees id (checkLoopControl control loc) (checkLoopControl control loc) :=
      .fixed _ fun env => by rw [env_checkLoopControl]
    exact (hcheck.last fun _ _ _ => rfl).marked loc

theorem analyzeAll_respelled (f : Respelling) : (ss : List Stmt) →
    Agrees Typed.Stmt.loweredAll (analyzeAll ss) (analyzeAll (respellAll f ss))
  | [] => .pure rfl
  | s :: ss => by
    rw [respellAll, analyzeAll, analyzeAll]
    refine (analyze_respelled (f.part 0) s).seq fun s s' hs => ?_
    refine (analyzeAll_respelled (f.part 1) ss).last fun ss ss' hss => ?_
    rw [Typed.Stmt.loweredAll, Typed.Stmt.loweredAll, hs, hss]

theorem analyzeBranches_respelled (f : Respelling) : (branches : List (Expr × List Stmt)) →
    Agrees Typed.Stmt.loweredBranches (analyzeBranches branches)
      (analyzeBranches (respellBranches f branches))
  | [] => .pure rfl
  | (cond, body) :: branches => by
    rw [respellBranches, analyzeBranches, analyzeBranches]
    refine (Agrees.condition (f.part 0) cond).seq fun e e' he => ?_
    refine ((analyzeAll_respelled (f.part 1) body).inBlock .branch).seq fun ss ss' hss => ?_
    refine (analyzeBranches_respelled (f.part 2) branches).last fun bs bs' hbs => ?_
    rw [Typed.Stmt.loweredBranches, Typed.Stmt.loweredBranches, he, hss, hbs]

theorem analyzeOtherwise_respelled (f : Respelling) : (otherwise : Option (List Stmt)) →
    Agrees Typed.Stmt.loweredOtherwise (analyzeOtherwise otherwise)
      (analyzeOtherwise (respellOtherwise f otherwise))
  | none => .pure rfl
  | some body => by
    rw [respellOtherwise, analyzeOtherwise, analyzeOtherwise]
    exact ((analyzeAll_respelled f body).inBlock .branch).map fun _ _ hss => congrArg some hss

end

end Tree.Stmt

/-! ## Names that are declared -/

/-- Names of operands and subcircuits are told apart letter by letter. What a name stands for has
this very name, and declaring a name has no effect on another one, even if both have the same lower
case. -/
structure Env.CaseSensitive (env : Env) : Prop where
  lookup : ∀ name record, env.table.lookup name = .ok record → record.symbol.name = name
  declare : ∀ (symbol : Symbol) (other : String), other ≠ symbol.name →
    let behind := (Analysis.declareSymbol symbol env).value.2
    behind.table.lookup other = env.table.lookup other
      ∧ behind.table.current.binds other = env.table.current.binds other
  subcircuit : ∀ (ident : Tree.Ident) (other : String), other ≠ ident.name →
    (other ∈ (Analysis.nameSubcircuit ident env).value.2.subcircuits ↔ other ∈ env.subcircuits)

theorem named_of_reached {dialect : Dialect} {env : Env} (h : env.Reached dialect) :
    env.table.Named :=
  h.table_induction (SymbolTable.named_new dialect) (fun _ _ h => h.bindCurrent _)
    (fun kind h => h.enter kind) (fun depth h => h.closeTo depth)

theorem caseSensitive_of_reached {dialect : Dialect} {env : Env} (h : env.Reached dialect) :
    env.CaseSensitive where
  lookup name record := SymbolTable.name_of_lookup (named_of_reached h)
  declare symbol other hne := by
    cases hbinds : env.table.current.binds symbol.name with
    | true =>
      rw [(Analysis.declareSymbol_of_binds hbinds).1]
      exact ⟨rfl, rfl⟩
    | false =>
      rw [(Analysis.declareSymbol_of_not_binds hbinds).1]
      exact ⟨SymbolTable.lookup_bindCurrent_of_ne h.formed hne,
        SymbolTable.binds_bindCurrent_of_ne h.formed hne⟩
  subcircuit ident other hne := by
    rcases Analysis.env_nameSubcircuit ident env with henv | henv
    · rw [henv]
    · rw [henv, Env.nameSubcircuit, List.mem_cons, or_iff_right hne]

/-! ## Programs -/

namespace Tree.Program

variable {program : Program}

/-- In cQASM 1.x the names of instructions and of called functions may be written in any other letter
case, each place for itself. The typed program is the same but for the written names, the symbols are
the same, and so are the kinds, severities and locations of the diagnostics. Operands and subcircuits
are different names if the case of a letter is. -/
theorem analyze_respell (f : Respelling) (h : program.dialect? = some .v1) :
    (program.respell f).analyze.program.lowered = program.analyze.program.lowered
      ∧ (program.respell f).analyze.table = program.analyze.table
      ∧ (program.respell f).analyze.diagnostics.map Diagnostic.lowered
        = program.analyze.diagnostics.map Diagnostic.lowered
      ∧ (program.respell f).analyze.diagnostics.map Diagnostic.severity
        = program.analyze.diagnostics.map Diagnostic.severity
      ∧ ∀ env, Env.Reached .v1 env → env.CaseSensitive := by
  have h' : (program.respell f).dialect? = some .v1 := h
  obtain ⟨hrun, -⟩ := Stmt.analyzeAll_respelled f program.stmts (Env.new .v1) rfl
  have hlog : (program.respell f).analyze.diagnostics.map Diagnostic.lowered
      = program.analyze.diagnostics.map Diagnostic.lowered := by
    rw [analyze_eq h, analyze_eq h']
    exact hrun.log
  refine ⟨?_, ?_, hlog, Diagnostics.severities_of_lowered hlog,
    fun env henv => caseSensitive_of_reached henv⟩
  · rw [analyze_eq h, analyze_eq h']
    exact congrArg (Typed.Program.mk program.versionItems (some .v1)) hrun.given
  · rw [analyze_eq h, analyze_eq h']
    exact congrArg (fun env : Env => some env.table) hrun.env

/-- Where the instruction `prep` and the function `sin` stand for themselves, they are shouted. -/
def shouted : Respelling where
  toFun _ name :=
    if name = "prep" then "PREP" else if name = "sin" then "SIN" else name
  lowerCase_eq _ name := by
    split
    · next h =>
      rw [h]
      decide +kernel
    · split
      · next h =>
        rw [h]
        decide +kernel
      · rfl

/-- `version 1.1; qubits 2; prep q[0]; rx Q[1], sin(1)`, where `Q` is not declared. -/
def quiet : Program :=
  let loc : Location := ⟨1, 1⟩
  { version := some ⟨[1, 1], loc⟩
    stmts :=
      [.qubits (.int loc 2) loc, .instruction ⟨⟨"prep", loc⟩, none, [.items loc "q" [0]], loc⟩,
        .instruction ⟨⟨"rx", loc⟩, none,
          [.items loc "Q" [1], .call ⟨"sin", loc⟩ [.int loc 1] loc], loc⟩] }

/-- The warning about `prep` quotes the name as it is written, and `Q` is not `q`. -/
theorem analyze_respell_quiet :
    quiet.dialect? = some .v1
      ∧ (quiet.respell shouted).analyze.program.lowered = quiet.analyze.program.lowered
      ∧ (quiet.respell shouted).analyze.table = quiet.analyze.table
      ∧ (quiet.respell shouted).analyze.diagnostics.map (·.cause)
        = [.deprecatedInstruction "PREP" "prep_z", .undeclaredIdentifier "Q"] := by
  have hdialect : quiet.dialect? = some .v1 := rfl
  obtain ⟨hprogram, htable, -⟩ := analyze_respell shouted hdialect
  exact ⟨hdialect, hprogram, htable, by decide +kernel⟩

end Tree.Program

end Cqasm
