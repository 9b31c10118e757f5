import Cqasm.Proofs.Analysis.Own
import Cqasm.Proofs.Analysis.Recorded

/-!
# Diagnostics of one sort

The diagnostics of a sort are those whose causes a predicate selects. If the checks of types, sizes,
counts and targets record none of the sort, then those of a part of a statement come from the
expressions in it and, if it is an instruction, from the choice of the overload. Failed resolutions
are such a sort, and so are duplicates.

* `Diagnostics.select` : the diagnostics of a sort;
* `Cause.Unchecked` : checks record nothing of the sort;
* `Cause.Resolving` : nor do declarations and loop controls, so that diagnostics of the sort come from
  expressions and instructions alone (`Site.perm_select`);
* `Tree.Expr.selectAll` : the diagnostics of the sort about expressions.
-/

namespace Cqasm

namespace Diagnostics

/-- The diagnostics whose causes are of the given sort. -/
def select (p : Cause → Bool) (log : Diagnostics) : Diagnostics := log.filter (p ·.cause)

variable {p : Cause → Bool} {log log' : Diagnostics}

@[simp] theorem select_append (p : Cause → Bool) (log log' : Diagnostics) :
    select p (log ++ log') = select p log ++ select p log' := List.filter_append ..

theorem mem_select {d : Diagnostic} : d ∈ log.select p ↔ d ∈ log ∧ p d.cause = true :=
  List.mem_filter

theorem select_flatMap {α : Type} (p : Cause → Bool) (l : List α) (f : α → Diagnostics) :
    select p (l.flatMap f) = l.flatMap fun a => select p (f a) := List.filter_flatMap

/-- What records no cause of the sort has no diagnostics of it. -/
theorem select_of_causes {α : Type} {x : Logged α} (h : x.Causes fun cause => p cause = false) :
    x.log.select p = [] :=
  List.filter_eq_nil_iff.mpr fun d hd hselected => Bool.false_ne_true ((h d hd).symm.trans hselected)

end Diagnostics

open Diagnostics (select select_append select_of_causes select_flatMap)

/-- The checks of types, sizes, counts and targets record nothing of the sort. -/
structure Cause.Unchecked (p : Cause → Bool) : Prop where
  incompatibleTypes : ∀ expected found, p (.incompatibleTypes expected found) = false
  expectedConstInteger : p .expectedConstInteger = false
  invalidRegisterSize : ∀ size, p (.invalidRegisterSize size) = false
  invalidIterationCount : ∀ count, p (.invalidIterationCount count) = false
  notAssignable : ∀ description, p (.notAssignable description) = false

/-- The diagnostics of the sort that are recorded about an expression. -/
def Query.select (p : Cause → Bool) (query : Query) : Diagnostics := query.log.select p

variable {p : Cause → Bool}

/-! ## Checks -/

namespace SymbolTable

variable (hp : Cause.Unchecked p) (table : SymbolTable)

include hp

theorem select_checkConversion (e : Typed.Expr) (ty : Ty) :
    select p (table.checkConversion e ty).log = [] :=
  select_of_causes (causes_checkConversion hp.incompatibleTypes)

theorem select_constInteger (e : Typed.Expr) : select p (table.constInteger e).log = [] :=
  select_of_causes (causes_constInteger hp.expectedConstInteger)

theorem select_registerSize (e : Typed.Expr) : select p (table.registerSize e).log = [] :=
  select_of_causes (registerSize_eq_natural table e ▸
    causes_natural hp.expectedConstInteger hp.invalidRegisterSize)

theorem select_iterationCount (e : Typed.Expr) : select p (table.iterationCount e).log = [] :=
  select_of_causes (iterationCount_eq_natural table e ▸
    causes_natural hp.expectedConstInteger hp.invalidIterationCount)

end SymbolTable

/-- All that the choice of an overload for an instruction records besides is a warning. -/
theorem SymbolTable.select_log_resolveInstruction
    (hwarning : ∀ name replacement, p (.deprecatedInstruction name replacement) = false)
    {table : SymbolTable} {name : String} {args : List Ty} {loc : Location} :
    select p (table.resolveInstruction name args loc).log
      = select p (table.resolveCall (.unknownInstruction name) (table.instruction? name) name args
        loc).log := by
  unfold resolveInstruction
  rw [Logged.log_bind, select_append]
  refine (congrArg _ ?_).trans (List.append_nil _)
  split
  · rfl
  · exact select_of_causes (.bind (causes_warnDeprecated fun _ => hwarning _ _) (.pure _))

open SymbolTable (select_checkConversion select_registerSize select_iterationCount)

/-! ## Parts of statements -/

namespace Tree

/-- The diagnostics of the sort about several expressions that are analysed with one table. -/
def Expr.selectAll (p : Cause → Bool) (table : SymbolTable) (es : List Expr) : Diagnostics :=
  (es.map (Query.mk · table)).flatMap (Query.select p)

namespace Expr

variable (table : SymbolTable)

theorem log_analyzeAll (es : List Expr) :
    (analyzeAll table es).log = es.flatMap fun e => (e.analyze table).log := by
  induction es with
  | nil => rfl
  | cons e es ih => rw [(analyzeAll_cons table e es).2, ih, List.flatMap_cons]

theorem selectAll_append (es es' : List Expr) :
    selectAll p table (es ++ es') = selectAll p table es ++ selectAll p table es' := by
  rw [selectAll, List.map_append, List.flatMap_append, selectAll, selectAll]

theorem selectAll_singleton (e : Expr) : selectAll p table [e] = select p (e.analyze table).log :=
  List.append_nil _

theorem select_analyzeAll (es : List Expr) :
    select p (analyzeAll table es).log = selectAll p table es := by
  rw [log_analyzeAll, selectAll, List.flatMap_map, select_flatMap]
  rfl

/-- Causes that are not recorded in expressions are not recorded in these. -/
theorem selectAll_eq_nil (h : ∀ cause, Cause.InExpr table.dialect cause → p cause = false)
    (es : List Expr) : selectAll p table es = [] := by
  rw [← select_analyzeAll]
  exact select_of_causes fun d hd => h d.cause (inExpr_analyzeAll table es d hd)

end Expr

namespace Stmt

open Analysis Tree.Expr

variable (hp : Cause.Unchecked p) (env : Env)

include hp

theorem select_condition (e : Expr) :
    select p (condition e env).log = selectAll p env.table [e] := by
  rw [log_condition, select_append, select_checkConversion hp, List.append_nil, selectAll_singleton]

theorem select_analyzeBound (e : Expr) :
    select p (analyzeBound e env).log = selectAll p env.table [e] := by
  rw [log_analyzeBound, select_append, select_checkConversion hp, List.append_nil,
    selectAll_singleton]

theorem select_analyzeInit (ty : Ty) (init : Option Expr) :
    select p (analyzeInit ty init env).log = selectAll p env.table init.toList := by
  cases init with
  | none => rfl
  | some e =>
    rw [(analyzeInit_some env ty e).2, select_append, select_checkConversion hp, List.append_nil,
      Option.toList_some, selectAll_singleton]

theorem select_analyzeType (type : TypeSpec) :
    select p (analyzeType type env).log = selectAll p env.table type.size?.toList := by
  cases type with
  | scalar kind => rfl
  | register kind size =>
    cases size with
    | none => rfl
    | some size =>
      rw [(analyzeType_some env kind size).2, select_append, select_registerSize hp, List.append_nil]
      exact (selectAll_singleton env.table size).symm

theorem select_analyzeIterations (count : Option Expr) :
    select p (analyzeIterations count env).log = selectAll p env.table count.toList := by
  cases count with
  | none => rfl
  | some e =>
    rw [(analyzeIterations_some env e).2, select_append, select_iterationCount hp, List.append_nil,
      Option.toList_some, selectAll_singleton]

theorem select_analyzeCondition (cond : Option Expr) :
    select p (analyzeCondition cond env).log = selectAll p env.table cond.toList := by
  cases cond with
  | none => rfl
  | some e => rw [(analyzeCondition_some env e).2, select_condition hp, Option.toList_some]

theorem select_analyzeInstruction (i : Instruction) :
    select p (analyzeInstruction i env).log
      = selectAll p env.table i.exprs ++ select p (choice env i).log := by
  rw [(analyzeInstruction_eq env i).2, select_append, select_append, Expr.select_analyzeAll,
    select_analyzeCondition hp, Instruction.exprs, selectAll_append, choice]

theorem perm_select_analyzeInstructions (is : List Instruction) :
    (select p (analyzeInstructions is env).log).Perm
      (selectAll p env.table (is.flatMap Instruction.exprs)
        ++ is.flatMap fun i => select p (choice env i).log) := by
  induction is with
  | nil => exact .nil
  | cons i is ih =>
    rw [(analyzeInstructions_cons env i is).2, select_append, select_analyzeInstruction hp,
      List.flatMap_cons, List.flatMap_cons, selectAll_append, List.append_assoc, List.append_assoc]
    refine List.Perm.append_left _ ?_
    exact (ih.append_left _).trans (List.perm_append_comm_assoc _ _ _)

theorem select_conditionsLog (branches : List (Expr × List Stmt)) :
    select p (conditionsLog env branches) = (conditions env branches).flatMap (Query.select p) := by
  induction branches generalizing env with
  | nil => rfl
  | cons branch branches ih =>
    obtain ⟨cond, body⟩ := branch
    rw [conditionsLog, select_append, select_condition hp, ih, conditions, List.flatMap_cons,
      selectAll_singleton]
    rfl

theorem select_checkAssign (lhs rhs : Typed.Expr) : select p (checkAssign lhs rhs env).log = [] :=
  select_of_causes (causes_checkAssign hp.incompatibleTypes hp.notAssignable)

end Stmt

end Tree

/-! ## Sites -/

/-- Diagnostics of the sort are recorded only where something is resolved: neither checks nor
declarations nor loop controls record any. -/
structure Cause.Resolving (p : Cause → Bool) : Prop extends Unchecked p where
  duplicateDeclaration : ∀ name, p (.duplicateDeclaration name) = false
  loopControlOutsideLoop : ∀ keyword, p (.loopControlOutsideLoop keyword) = false

theorem Cause.Resolving.select_declareSymbol (hp : Resolving p) (env : Env) (symbol : Symbol) :
    select p (Analysis.declareSymbol symbol env).log = [] :=
  select_of_causes (Analysis.causes_declareSymbol (hp.duplicateDeclaration symbol.name))

theorem Cause.Resolving.select_nameSubcircuit (hp : Resolving p) (env : Env) (ident : Tree.Ident) :
    select p (Analysis.nameSubcircuit ident env).log = [] :=
  select_of_causes (Analysis.causes_nameSubcircuit (hp.duplicateDeclaration ident.name))

namespace Site

open Analysis Tree.Stmt
open Tree.Expr (selectAll selectAll_append selectAll_singleton)

/-- What a statement records itself of a sort that is only recorded where something is resolved is
recorded in its expressions, in its instructions or in the count of a subcircuit. -/
theorem perm_select (hp : Cause.Resolving p) (site : Site) :
    (select p site.ownLog).Perm
      (site.queries.flatMap (Query.select p)
        ++ site.stmt.ownInstructions.flatMap (fun i => select p (choice site.env i).log)
        ++ site.counts.flatMap (Query.select p)) := by
  have hchecks := hp.toUnchecked
  obtain ⟨s, env, inLoop⟩ := site
  unfold ownLog queries counts
  cases s with
  | qubits size loc =>
    show (select p ((qubits size loc).analyze env).log).Perm (selectAll p env.table [size] ++ [] ++ [])
    rw [(analyze_qubits env size loc).2, select_append, select_append, select_append,
      hp.select_declareSymbol, hp.select_declareSymbol, select_registerSize hchecks,
      selectAll_singleton]
    simp only [List.append_nil, List.Perm.refl]
  | declare name type init loc =>
    have hexprs : (declare name type init loc).ownExprs = type.size?.toList ++ init.toList := by
      cases type <;> rfl
    show (select p ((declare name type init loc).analyze env).log).Perm
      (selectAll p env.table (declare name type init loc).ownExprs ++ [] ++ [])
    rw [(analyze_declare env name type init loc).2, select_append, select_append,
      hp.select_declareSymbol, select_analyzeType hchecks, select_analyzeInit hchecks, hexprs,
      selectAll_append, List.append_nil, List.append_nil]
  | map target name loc =>
    show (select p ((map target name loc).analyze env).log).Perm
      (selectAll p env.table [target] ++ [] ++ [])
    rw [(analyze_map env target name loc).2, select_append, hp.select_declareSymbol,
      selectAll_singleton, List.append_nil, List.append_nil]
  | instruction i =>
    show (select p ((instruction i).analyze env).log).Perm
      (selectAll p env.table i.exprs ++ [i].flatMap (fun i => select p (choice env i).log) ++ [])
    rw [(analyze_instruction env i).2, select_analyzeInstruction hchecks, List.flatMap_singleton,
      List.append_nil]
  | bundle is loc =>
    show (select p ((bundle is loc).analyze env).log).Perm
      (selectAll p env.table (is.flatMap Tree.Instruction.exprs)
        ++ is.flatMap (fun i => select p (choice env i).log) ++ [])
    rw [(analyze_bundle env is loc).2, List.append_nil]
    exact perm_select_analyzeInstructions hchecks env is
  | subcircuit name iterations body loc =>
    show (select p ((nameSubcircuit name env).log ++ (analyzeIterations iterations env).log)).Perm
      (selectAll p env.table iterations.toList)
    rw [select_append, hp.select_nameSubcircuit, select_analyzeIterations hchecks, List.nil_append]
  | assign lhs rhs loc =>
    show (select p ((assign lhs rhs loc).analyze env).log).Perm
      (selectAll p env.table ([lhs] ++ [rhs]) ++ [] ++ [])
    rw [(analyze_assign env lhs rhs loc).2, select_append, select_append, select_checkAssign hchecks,
      selectAll_append, selectAll_singleton, selectAll_singleton, List.append_nil, List.append_nil]
  | ifElse branches otherwise loc =>
    show (select p (conditionsLog env branches)).Perm
      ((conditions env branches).flatMap (Query.select p) ++ [] ++ [])
    rw [select_conditionsLog hchecks, List.append_nil, List.append_nil]
  | whileLoop cond body loc =>
    show (select p (condition cond env).log).Perm (selectAll p env.table [cond] ++ [] ++ [])
    rw [select_condition hchecks, List.append_nil, List.append_nil]
  | repeatUntil body cond loc =>
    show (select p (condition cond (inBlock .loop (analyzeAll body) env).value.2).log).Perm
      (selectAll p (inBlock .loop (analyzeAll body) env).value.2.table [cond] ++ [] ++ [])
    rw [select_condition hchecks, List.append_nil, List.append_nil]
  | foreach name first last body loc =>
    show (select p ((analyzeBound first env).log ++ (analyzeBound last env).log
        ++ (declareSymbol ⟨name.name, .var, .int, name.loc⟩ (env.enter .loop)).log)).Perm
      (selectAll p env.table ([first] ++ [last]) ++ [] ++ [])
    rw [select_append, select_append, hp.select_declareSymbol, select_analyzeBound hchecks,
      select_analyzeBound hchecks, selectAll_append, List.append_nil, List.append_nil]
  | loopControl control loc =>
    show (select p ((loopControl control loc).analyze env).log).Perm []
    rw [(analyze_loopControl env control loc).2, select_of_causes
      (causes_checkLoopControl (hp.loopControlOutsideLoop control.keyword))]

end Site

/-- The diagnostics of a program of one sort are those that its statements record themselves. -/
theorem Tree.Program.perm_select_analyze {program : Program} {dialect : Dialect}
    (h : program.dialect? = some dialect) (p : Cause → Bool) :
    (program.analyze.diagnostics.select p).Perm
      ((program.sites dialect).flatMap fun site => site.ownLog.select p) := by
  refine ((perm_diagnostics h).filter _).trans ?_
  rw [List.filter_flatMap]
  exact .refl _

end Cqasm
