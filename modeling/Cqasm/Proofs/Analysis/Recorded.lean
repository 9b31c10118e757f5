import Cqasm.Analysis.Program
import Cqasm.Proofs.Analysis.Causes
import Cqasm.Proofs.Analysis.Environment

/-!
# What an analysis may record

Which causes the diagnostics of a program of a supported version may have (`inProgram_analyzeAs`). A
call is reported as ambiguous only if resolution finds it ambiguous and all its arguments have types.
For expressions the proof follows the analysis; for statements it is enough that the checks and the
declarations record only such causes (`Records.compositional`).

* `Cause.InExpr`, `Cause.InProgram` : the causes that may be recorded in an expression and in a
  program;
* `Records` : a step of the analysis that records only such causes.
-/

namespace Cqasm

/-- The cause is one that may be recorded in an expression. A call in it is one of a built-in
function. -/
def Cause.InExpr (dialect : Dialect) : Cause → Prop
  | .undeclaredIdentifier _ | .unknownFunction _ | .noMatchingOverload _ _
  | .incompatibleTypes _ _ | .expectedConstInteger | .notIndexable _ | .indexOutOfRange _ _ _
  | .invalidAxis _ => True
  | .ambiguousOverload name candidates => ∃ called args, (∀ t ∈ args, t ≠ .undefined)
      ∧ resolve dialect.promotions (dialect.functions.get? called) called args
        = .error (.ambiguous name candidates)
  | _ => False

/-- The cause is one that may be recorded in a program. A call in it is one of a built-in function
or of a built-in instruction. -/
def Cause.InProgram (dialect : Dialect) : Cause → Prop
  | .unsupportedVersion _ => False
  | .ambiguousOverload name candidates => ∃ called args, (∀ t ∈ args, t ≠ .undefined)
      ∧ (resolve dialect.promotions (dialect.functions.get? called) called args
          = .error (.ambiguous name candidates)
        ∨ resolve dialect.promotions (dialect.instructions.get? called) called args
          = .error (.ambiguous name candidates))
  | _ => True

theorem Cause.InExpr.inProgram {dialect : Dialect} {cause : Cause} (h : cause.InExpr dialect) :
    cause.InProgram dialect := by
  cases cause with
  | unsupportedVersion version => exact h
  | ambiguousOverload name candidates =>
    obtain ⟨called, args, hargs, hresolve⟩ := h
    exact ⟨called, args, hargs, Or.inl hresolve⟩
  | _ => trivial

open Logged (Causes)

/-! ## Expressions -/

namespace Tree

variable (table : SymbolTable)

theorem inExpr_typedCall (name : String) (args : List Typed.Expr) (loc : Location) :
    (typedCall table name args loc).Causes (Cause.InExpr table.dialect) :=
  causes_typedCall trivial (fun _ _ => trivial) fun _ _ hargs hresolve =>
    ⟨_, _, hargs, hresolve⟩

namespace Expr

mutual

theorem inExpr_analyze : (e : Expr) → (e.analyze table).Causes (Cause.InExpr table.dialect)
  | .literal value loc => by
    rw [analyze]
    exact .pure _
  | .name ident => by
    rw [analyze]
    exact .bind (SymbolTable.causes_resolveName trivial) (.pure _)
  | .index target entries loc => by
    rw [analyze]
    refine .bind (SymbolTable.causes_resolveName trivial)
      (.bind (inExpr_analyzeEntries entries) (.bind ?_ (.pure _)))
    exact SymbolTable.causes_indexType trivial fun _ _ => trivial
  | .unary op operand loc => by
    rw [analyze]
    exact .bind (inExpr_analyze operand) (inExpr_typedCall table _ _ _)
  | .binary op lhs rhs loc => by
    rw [analyze]
    exact .bind (inExpr_analyze lhs) (.bind (inExpr_analyze rhs) (inExpr_typedCall table _ _ _))
  | .call function args loc => by
    rw [analyze]
    exact .bind (inExpr_analyzeAll args) (inExpr_typedCall table _ _ _)
  | .array elements loc => by
    rw [analyze]
    exact .bind (inExpr_analyzeAll elements) (causes_typedAxis (fun _ => trivial) fun _ _ => trivial)

theorem inExpr_analyzeAll : (es : List Expr) →
    (analyzeAll table es).Causes (Cause.InExpr table.dialect)
  | [] => by
    rw [analyzeAll]
    exact .pure _
  | e :: es => by
    rw [analyzeAll]
    exact .bind (inExpr_analyze e) (.bind (inExpr_analyzeAll es) (.pure _))

theorem inExpr_analyzeEntry : (entry : IndexEntry Expr) →
    (analyzeEntry table entry).Causes (Cause.InExpr table.dialect)
  | .item e => by
    rw [analyzeEntry]
    exact .bind (inExpr_analyze e) (.bind (SymbolTable.causes_constInteger trivial) (.pure _))
  | .range first last => by
    rw [analyzeEntry]
    exact .bind (inExpr_analyze first) (.bind (inExpr_analyze last)
      (.bind (SymbolTable.causes_constInteger trivial)
        (.bind (SymbolTable.causes_constInteger trivial) (.pure _))))

theorem inExpr_analyzeEntries : (entries : List (IndexEntry Expr)) →
    (analyzeEntries table entries).Causes (Cause.InExpr table.dialect)
  | [] => by
    rw [analyzeEntries]
    exact .pure _
  | entry :: entries => by
    rw [analyzeEntries]
    exact .bind (inExpr_analyzeEntry entry) (.bind (inExpr_analyzeEntries entries) (.pure _))

end

end Expr

end Tree

/-! ## Statements -/

namespace Analysis

variable {α β : Type} {dialect : Dialect}

/-- Under the dialect, the step records only what may be recorded in a program, and the dialect stays
the same. -/
def Records (dialect : Dialect) (step : Analysis α) : Prop :=
  ∀ env, env.table.dialect = dialect →
    (step env).Causes (Cause.InProgram dialect) ∧ (step env).value.2.table.dialect = dialect

namespace Records

theorem seq {step : Analysis α} {next : α → Analysis β} (h : Records dialect step)
    (hnext : ∀ env, Records dialect (next (step env).value.1)) :
    Records dialect (step >>= next) := by
  intro env henv
  obtain ⟨hlog, henv'⟩ := h env henv
  obtain ⟨hlog', henv''⟩ := hnext env _ henv'
  refine ⟨?_, henv''⟩
  show ∀ d ∈ ((step >>= next) env).log, d.cause.InProgram dialect
  rw [log_bind]
  exact List.forall_mem_append.mpr ⟨hlog, hlog'⟩

theorem reading {f : SymbolTable → Logged α}
    (h : ∀ table, table.dialect = dialect → (f table).Causes (Cause.InProgram dialect)) :
    Records dialect (reading f) :=
  fun env henv => ⟨.bind (h env.table henv) (.pure _), henv⟩

/-- A step that leaves the environment as it is and records only what may be recorded. -/
theorem of_reads {step : Analysis α} (hreads : Reads step)
    (h : ∀ env, (step env).Causes (Cause.InProgram dialect)) : Records dialect step :=
  fun env henv => ⟨h env, by rw [hreads, henv]⟩

theorem expr (e : Tree.Expr) : Records dialect (expr e) := by
  refine .reading fun table htable d hd => ?_
  rw [← htable]
  exact (Tree.Expr.inExpr_analyze table e d hd).inProgram

theorem exprs (es : List Tree.Expr) :
    Records dialect (Analysis.reading fun table => Tree.Expr.analyzeAll table es) := by
  refine .reading fun table htable d hd => ?_
  rw [← htable]
  exact (Tree.Expr.inExpr_analyzeAll table es d hd).inProgram

theorem natural {p : Int → Prop} [DecidablePred p] {cause : Int → Cause} (e : Typed.Expr)
    (h : ∀ n, (cause n).InProgram dialect) :
    Records dialect (Analysis.reading fun table => table.natural p cause e) :=
  .reading fun _ _ => SymbolTable.causes_natural trivial h

theorem declareSymbol (symbol : Symbol) : Records dialect (declareSymbol symbol) :=
  fun env henv => ⟨causes_declareSymbol trivial, (dialect_declareSymbol symbol env).trans henv⟩

theorem inBlock {step : Analysis α} (kind : BlockKind) (h : Records dialect step) :
    Records dialect (inBlock kind step) := by
  intro env henv
  obtain ⟨hlog, henv'⟩ := h (env.enter kind) henv
  exact ⟨.bind hlog (.pure _), henv'⟩

theorem resolveInstruction (name : String) (args : List Ty) (loc : Location) :
    Records dialect (Analysis.reading fun table => table.resolveInstruction name args loc) := by
  refine .reading fun table htable => ?_
  subst htable
  exact SymbolTable.causes_resolveInstruction trivial (fun _ _ => trivial)
    (fun _ _ hargs hresolve => ⟨_, _, hargs, Or.inr hresolve⟩) fun _ => trivial

theorem compositional (dialect : Dialect) : Compositional fun _ step => Records dialect step where
  pure _ _ henv := ⟨.pure _, henv⟩
  seq := .seq
  marked _ _ h := h
  inBlock kind _ h := h.inBlock kind
  declareSymbol _ := .declareSymbol _
  nameSubcircuit ident env henv :=
    ⟨causes_nameSubcircuit trivial, by rw [table_nameSubcircuit, henv]⟩
  expr := .expr
  exprs := .exprs
  checkConversion _ _ := .reading fun _ _ =>
    .bind (SymbolTable.causes_checkConversion fun _ _ => trivial) (.pure _)
  registerSize e := .natural e fun _ => trivial
  iterationCount e := .natural e fun _ => trivial
  resolveInstruction := .resolveInstruction
  checkAssign lhs rhs := .of_reads (Tree.Stmt.reads_checkAssign lhs rhs) fun _ =>
    Tree.Stmt.causes_checkAssign (fun _ _ => trivial) fun _ => trivial
  checkLoopControl control loc := .of_reads (Tree.Stmt.reads_checkLoopControl control loc) fun _ =>
    Tree.Stmt.causes_checkLoopControl trivial

end Records

end Analysis

namespace Tree.Program

/-- What is recorded in a program of a dialect is what may be. -/
theorem inProgram_analyzeAs (dialect : Dialect) (program : Program) :
    ∀ d ∈ (program.analyzeAs dialect).diagnostics, d.cause.InProgram dialect :=
  ((Analysis.Records.compositional dialect).analyzeAll program.stmts (Env.new dialect) rfl).1

end Tree.Program

end Cqasm
