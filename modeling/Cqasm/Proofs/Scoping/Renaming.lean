import Cqasm.Proofs.Analysis.Site
import Cqasm.Proofs.Symbol.Renaming
import Mathlib.Logic.Equiv.Basic

/-!
# What operands are called does not matter

Two runs are compared, one on a program and one on the program with its operands renamed. They go in
lockstep: wherever the one environment is the renamed other one, both steps give the same value,
leave environments that are related in the same way, and record diagnostics that differ only in the
operands they quote. So the renamed program becomes the same typed program (`analyze_rename`).
Instructions, functions and subcircuits keep their names; they are never compared with operands.

* `Diagnostic.anonymous` : a diagnostic without the operands it quotes;
* `Tree.Expr.rename`, `Tree.Stmt.rename` : expressions and statements with renamed operands;
* `Logged.Alike`, `Analysis.Renames` : runs in lockstep, without and with an environment.
-/

namespace Cqasm

/-! ## Diagnostics without names -/

/-- The cause without the operand that its message quotes. -/
def Cause.anonymous : Cause → Cause
  | duplicateDeclaration _ => duplicateDeclaration ""
  | undeclaredIdentifier _ => undeclaredIdentifier ""
  | indexOutOfRange _ index size => indexOutOfRange "" index size
  | notAssignable _ => notAssignable ""
  | notIndexable _ => notIndexable ""
  | cause => cause

/-- The diagnostic without the operand that its message quotes. -/
def Diagnostic.anonymous (d : Diagnostic) : Diagnostic := { d with cause := d.cause.anonymous }

theorem Diagnostic.severity_anonymous (d : Diagnostic) : d.anonymous.severity = d.severity := by
  unfold anonymous severity
  cases d.cause <;> rfl

theorem Diagnostics.severities_of_anonymous {log log' : Diagnostics}
    (h : log.map Diagnostic.anonymous = log'.map Diagnostic.anonymous) :
    log.map Diagnostic.severity = log'.map Diagnostic.severity :=
  severities_of_map Diagnostic.severity_anonymous h

/-! ## Renamed trees -/

namespace Tree

/-- The name under which it goes on. -/
def Ident.rename (f : Renaming) (ident : Ident) : Ident := { ident with name := f ident.name }

namespace Expr

mutual

/-- The expression with its operands renamed. Functions keep their names. -/
def rename (f : Renaming) : Expr → Expr
  | literal value loc => literal value loc
  | name ident => name (ident.rename f)
  | index target entries loc => index (target.rename f) (renameEntries f entries) loc
  | unary op operand loc => unary op (rename f operand) loc
  | binary op lhs rhs loc => binary op (rename f lhs) (rename f rhs) loc
  | call function args loc => call function (renameAll f args) loc
  | array elements loc => array (renameAll f elements) loc

/-- Several expressions with their operands renamed. -/
def renameAll (f : Renaming) : List Expr → List Expr
  | [] => []
  | e :: es => rename f e :: renameAll f es

/-- The entry of an index with its operands renamed. -/
def renameEntry (f : Renaming) : IndexEntry Expr → IndexEntry Expr
  | .item e => .item (rename f e)
  | .range first last => .range (rename f first) (rename f last)

/-- The entries of an index with their operands renamed. -/
def renameEntries (f : Renaming) : List (IndexEntry Expr) → List (IndexEntry Expr)
  | [] => []
  | entry :: entries => renameEntry f entry :: renameEntries f entries

end

end Expr

/-- The type of a declaration with the operands of its size renamed. -/
def TypeSpec.rename (f : Renaming) : TypeSpec → TypeSpec
  | register kind size => register kind (size.map (Expr.rename f))
  | scalar kind => scalar kind

/-- The instruction with its operands renamed. It keeps its own name. -/
def Instruction.rename (f : Renaming) (i : Instruction) : Instruction :=
  { i with
    condition := i.condition.map (Expr.rename f)
    operands := Expr.renameAll f i.operands }

namespace Stmt

mutual

/-- The statement with its operands renamed. A subcircuit keeps its name. -/
def rename (f : Renaming) : Stmt → Stmt
  | qubits size loc => qubits (size.rename f) loc
  | declare name type init loc =>
    declare (name.rename f) (type.rename f) (init.map (Expr.rename f)) loc
  | map target name loc => map (target.rename f) (name.rename f) loc
  | instruction i => instruction (i.rename f)
  | bundle is loc => bundle (is.map (Instruction.rename f)) loc
  | subcircuit name iterations body loc =>
    subcircuit name (iterations.map (Expr.rename f)) (renameAll f body) loc
  | assign lhs rhs loc => assign (lhs.rename f) (rhs.rename f) loc
  | ifElse branches otherwise loc =>
    ifElse (renameBranches f branches) (renameOtherwise f otherwise) loc
  | whileLoop condition body loc => whileLoop (condition.rename f) (renameAll f body) loc
  | repeatUntil body condition loc => repeatUntil (renameAll f body) (condition.rename f) loc
  | foreach name first last body loc =>
    foreach (name.rename f) (first.rename f) (last.rename f) (renameAll f body) loc
  | loopControl control loc => loopControl control loc

/-- The block with its operands renamed. -/
def renameAll (f : Renaming) : List Stmt → List Stmt
  | [] => []
  | s :: ss => rename f s :: renameAll f ss

/-- The branches of a conditional with their operands renamed. -/
def renameBranches (f : Renaming) : List (Expr × List Stmt) → List (Expr × List Stmt)
  | [] => []
  | (condition, body) :: branches =>
    (condition.rename f, renameAll f body) :: renameBranches f branches

/-- The block of a conditional with its operands renamed, if there is a block. -/
def renameOtherwise (f : Renaming) : Option (List Stmt) → Option (List Stmt)
  | none => none
  | some body => some (renameAll f body)

end

end Stmt

/-- The program with its operands renamed. -/
def Program.rename (f : Renaming) (program : Program) : Program :=
  { program with stmts := Stmt.renameAll f program.stmts }

end Tree

/-! ## Checks in lockstep -/

/-- The values are the same, and so are the diagnostics but for the operands they quote. -/
structure Logged.Alike {α : Type} (x y : Logged α) : Prop where
  value : y.value = x.value
  log : y.log.map Diagnostic.anonymous = x.log.map Diagnostic.anonymous

namespace Logged.Alike

variable {α β : Type} {x y : Logged α}

theorem refl (x : Logged α) : x.Alike x := ⟨rfl, rfl⟩

theorem of_eq (h : y = x) : x.Alike y := h ▸ .refl y

theorem bind (h : x.Alike y) {next next' : α → Logged β}
    (hnext : ∀ a, (next a).Alike (next' a)) : (x >>= next).Alike (y >>= next') where
  value := by rw [value_bind, value_bind, h.value, (hnext _).value]
  log := by
    rw [log_bind, log_bind, List.map_append, List.map_append, h.log, h.value, (hnext _).log]

end Logged.Alike

namespace SymbolTable

variable (f : Renaming) (table : SymbolTable)

theorem report_rename (cause cause' : Cause) (h : cause'.anonymous = cause.anonymous)
    (loc : Location) : (table.report cause loc).Alike ((table.rename f).report cause' loc) where
  value := rfl
  log := congrArg (fun c => [Diagnostic.mk c loc (some table.dialect)]) h

theorem resolveName_rename (name : String) (loc : Location) :
    (table.resolveName name loc).Alike ((table.rename f).resolveName (f name) loc) := by
  unfold resolveName
  rw [lookup_rename]
  cases table.lookup name with
  | ok record => exact .refl _
  | error error =>
    have hreport := table.report_rename f (.undeclaredIdentifier name)
      (.undeclaredIdentifier (f name)) rfl loc
    exact hreport.bind fun _ => .refl _

theorem resolveInstruction_rename (name : String) (args : List Ty) (loc : Location) :
    (table.rename f).resolveInstruction name args loc = table.resolveInstruction name args loc :=
  rfl

theorem checkConversions_rename (ty : Ty) (es : List Typed.Expr) :
    (table.rename f).checkConversions ty es = table.checkConversions ty es := by
  induction es with
  | nil => rfl
  | cons e es ih =>
    rw [checkConversions, checkConversions, ih]
    rfl

theorem checkSpan_rename (name : String) (size : Nat) (span : IndexSpan) :
    (table.checkSpan name size span).Alike ((table.rename f).checkSpan (f name) size span) := by
  unfold checkSpan
  cases span.outside? size with
  | none => exact .refl _
  | some bound =>
    exact table.report_rename f (.indexOutOfRange name bound.value.toInt size)
      (.indexOutOfRange (f name) bound.value.toInt size) rfl bound.loc

theorem checkSpans_rename (name : String) (size : Nat) (spans : List IndexSpan) :
    (table.checkSpans name size spans).Alike
      ((table.rename f).checkSpans (f name) size spans) := by
  induction spans with
  | nil => exact .refl _
  | cons span spans ih => exact (table.checkSpan_rename f name size span).bind fun _ => ih

theorem indexType_rename (name : String) (loc : Location) (ty : Ty)
    (entries : List (Option IndexSpan)) :
    (table.indexType name loc ty entries).Alike
      ((table.rename f).indexType (f name) loc ty entries) := by
  unfold indexType
  cases ty.isDefined with
  | false => exact .refl _
  | true =>
    rw [if_pos rfl, if_pos rfl]
    cases ty.registerSize? with
    | none =>
      have hreport := table.report_rename f (.notIndexable name) (.notIndexable (f name)) rfl loc
      exact hreport.bind fun _ => .refl _
    | some size => exact (table.checkSpans_rename f name size _).bind fun _ => .refl _

end SymbolTable

namespace Tree.Expr

variable (f : Renaming) (table : SymbolTable)

theorem typedAxis_rename (elements : List Typed.Expr) (loc : Location) :
    typedAxis (table.rename f) elements loc = typedAxis table elements loc := by
  unfold typedAxis
  rw [SymbolTable.checkConversions_rename]
  rfl

mutual

/-- A renamed expression in a renamed table is what the expression was. -/
theorem analyze_renamed : (e : Expr) →
    (e.analyze table).Alike ((e.rename f).analyze (table.rename f))
  | .literal value loc => by
    rw [rename, analyze, analyze]
    exact .refl _
  | .name ident => by
    rw [rename, analyze, analyze]
    exact (table.resolveName_rename f ident.name ident.loc).bind fun _ => .refl _
  | .index target entries loc => by
    rw [rename, analyze, analyze]
    refine (table.resolveName_rename f target.name target.loc).bind fun (_, ty) => ?_
    refine (analyzeEntries_renamed entries).bind fun spans => ?_
    exact (table.indexType_rename f target.name target.loc ty spans).bind fun _ => .refl _
  | .unary op operand loc => by
    rw [rename, analyze, analyze]
    exact (analyze_renamed operand).bind fun _ => .refl _
  | .binary op lhs rhs loc => by
    rw [rename, analyze, analyze]
    exact (analyze_renamed lhs).bind fun _ => (analyze_renamed rhs).bind fun _ => .refl _
  | .call function args loc => by
    rw [rename, analyze, analyze]
    exact (analyzeAll_renamed args).bind fun _ => .refl _
  | .array elements loc => by
    rw [rename, analyze, analyze]
    exact (analyzeAll_renamed elements).bind fun elements =>
      .of_eq (typedAxis_rename f table elements loc)

theorem analyzeAll_renamed : (es : List Expr) →
    (analyzeAll table es).Alike (analyzeAll (table.rename f) (renameAll f es))
  | [] => .refl _
  | e :: es => by
    rw [renameAll, analyzeAll, analyzeAll]
    exact (analyze_renamed e).bind fun _ => (analyzeAll_renamed es).bind fun _ => .refl _

theorem analyzeEntry_renamed : (entry : IndexEntry Expr) →
    (analyzeEntry table entry).Alike (analyzeEntry (table.rename f) (renameEntry f entry))
  | .item e => by
    rw [renameEntry, analyzeEntry, analyzeEntry]
    exact (analyze_renamed e).bind fun _ => .refl _
  | .range first last => by
    rw [renameEntry, analyzeEntry, analyzeEntry]
    exact (analyze_renamed first).bind fun _ => (analyze_renamed last).bind fun _ => .refl _

theorem analyzeEntries_renamed : (entries : List (IndexEntry Expr)) →
    (analyzeEntries table entries).Alike (analyzeEntries (table.rename f) (renameEntries f entries))
  | [] => .refl _
  | entry :: entries => by
    rw [renameEntries, analyzeEntries, analyzeEntries]
    exact (analyzeEntry_renamed entry).bind fun _ =>
      (analyzeEntries_renamed entries).bind fun _ => .refl _

end

end Tree.Expr

/-! ## Steps in lockstep -/

namespace Env

/-- The environment with all operands renamed. Subcircuits keep their names. -/
def rename (f : Renaming) (env : Env) : Env := { env with table := env.table.rename f }

variable (f : Renaming) (env : Env)

theorem enter_rename (kind : BlockKind) : (env.enter kind).rename f = (env.rename f).enter kind :=
  congrArg (Env.mk · env.subcircuits) (env.table.enter_rename f kind)

theorem bindCurrent_rename (symbol : Symbol) :
    (env.bindCurrent symbol).rename f = (env.rename f).bindCurrent (symbol.rename f) :=
  congrArg (Env.mk · env.subcircuits) (env.table.bindCurrent_rename f symbol)

end Env

/-- The second run gives what the first one gives and ends in the renamed environment. The
diagnostics are the same but for the operands they quote. -/
structure Logged.Mirrors {α : Type} (f : Renaming) (x y : Logged (α × Env)) : Prop where
  value : y.value = (x.value.1, x.value.2.rename f)
  log : y.log.map Diagnostic.anonymous = x.log.map Diagnostic.anonymous

/-- The second step does in a renamed environment what the first one does in the environment. -/
def Analysis.Renames {α : Type} (f : Renaming) (step step' : Analysis α) : Prop :=
  ∀ env, (step env).Mirrors f (step' (env.rename f))

namespace Analysis.Renames

variable {α β : Type} {f : Renaming} {step step' : Analysis α}

theorem pure (a : α) : Renames f (Pure.pure a) (Pure.pure a) := fun _ => ⟨rfl, rfl⟩

theorem seq {next next' : α → Analysis β} (h : Renames f step step')
    (hnext : ∀ a, Renames f (next a) (next' a)) :
    Renames f (step >>= next) (step' >>= next') := by
  intro env
  have hfirst := h env
  have hsecond := hnext (step env).value.1 (step env).value.2
  refine ⟨?_, ?_⟩
  · rw [value_bind, value_bind, hfirst.value, hsecond.value]
  · rw [log_bind, log_bind, List.map_append, List.map_append, hfirst.log, hfirst.value,
      hsecond.log]

/-- Steps that are followed by putting together the typed statement. -/
theorem last (h : Renames f step step') (g : α → β) :
    Renames f (step >>= fun a => Pure.pure (g a)) (step' >>= fun a => Pure.pure (g a)) :=
  h.seq fun _ => .pure _

theorem map (g : α → β) (h : Renames f step step') : Renames f (g <$> step) (g <$> step') := by
  rw [map_eq_pure_bind, map_eq_pure_bind]
  exact h.last g

theorem reading {g g' : SymbolTable → Logged α}
    (h : ∀ table, (g table).Alike (g' (table.rename f))) : Renames f (reading g) (reading g') := by
  intro env
  have hread := h env.table
  refine ⟨?_, ?_⟩
  · rw [value_reading, value_reading]
    exact congrArg (·, env.rename f) hread.value
  · rw [log_reading, log_reading]
    exact hread.log

/-- A step that reads no names gives the same in the renamed environment. -/
theorem fixed (g : SymbolTable → Logged α) (h : ∀ table, g (table.rename f) = g table) :
    Renames f (Analysis.reading g) (Analysis.reading g) := reading fun table => .of_eq (h table)

/-- The mark of a statement tells whether there is an error, whatever its message quotes. -/
theorem marked (loc : Location) {step step' : Analysis (Typed.Mark → Typed.Stmt)}
    (h : Renames f step step') : Renames f (marked loc step) (marked loc step') := by
  intro env
  have hstep := h env
  have herrors :=
    Diagnostics.anyErrors_of_severities (Diagnostics.severities_of_anonymous hstep.log)
  refine ⟨?_, hstep.log⟩
  rw [value_marked, value_marked, herrors, hstep.value]

theorem inBlock (kind : BlockKind) (h : Renames f step step') :
    Renames f (inBlock kind step) (inBlock kind step') := by
  intro env
  have hbody := h (env.enter kind)
  rw [Env.enter_rename] at hbody
  refine ⟨?_, ?_⟩
  · rw [value_inBlock, value_inBlock, hbody.value]
    rfl
  · rw [log_inBlock, log_inBlock]
    exact hbody.log

/-! ### Declarations -/

theorem declareSymbol (symbol : Symbol) :
    Renames f (declareSymbol symbol) (declareSymbol (symbol.rename f)) := by
  intro env
  have hbinds : (env.rename f).table.current.binds (symbol.rename f).name
      = env.table.current.binds symbol.name := env.table.binds_current_rename f symbol.name
  cases h : env.table.current.binds symbol.name with
  | true =>
    obtain ⟨hvalue, hlog⟩ := declareSymbol_of_binds h
    obtain ⟨hvalue', hlog'⟩ := declareSymbol_of_binds (hbinds.trans h)
    refine ⟨?_, ?_⟩
    · rw [hvalue, hvalue']
    · rw [hlog, hlog']
      rfl
  | false =>
    obtain ⟨hvalue, hlog⟩ := declareSymbol_of_not_binds h
    obtain ⟨hvalue', hlog'⟩ := declareSymbol_of_not_binds (hbinds.trans h)
    have hlength : (env.rename f).table.symbols.length = env.table.symbols.length :=
      List.length_map ..
    refine ⟨?_, ?_⟩
    · rw [hvalue, hvalue', hlength, Env.bindCurrent_rename]
    · rw [hlog, hlog']

theorem nameSubcircuit (ident : Tree.Ident) :
    Renames f (nameSubcircuit ident) (nameSubcircuit ident) := by
  intro env
  have hsubcircuits : (env.rename f).subcircuits = env.subcircuits := rfl
  unfold Analysis.nameSubcircuit
  rw [hsubcircuits]
  by_cases h : ident.name ∈ env.subcircuits
  · rw [if_pos h, if_pos h]
    exact ⟨rfl, rfl⟩
  · rw [if_neg h, if_neg h]
    exact ⟨rfl, rfl⟩

/-! ### Expressions and checks -/

theorem expr (e : Tree.Expr) : Renames f (expr e) (expr (e.rename f)) :=
  .reading fun table => e.analyze_renamed f table

theorem exprs (es : List Tree.Expr) :
    Renames f (Analysis.reading fun table => Tree.Expr.analyzeAll table es)
      (Analysis.reading fun table => Tree.Expr.analyzeAll table (Tree.Expr.renameAll f es)) :=
  reading fun table => Tree.Expr.analyzeAll_renamed f table es

theorem checkConversion (e : Typed.Expr) (ty : Ty) :
    Renames f (checkConversion e ty) (checkConversion e ty) := .fixed _ fun _ => rfl

theorem condition (e : Tree.Expr) : Renames f (condition e) (condition (e.rename f)) :=
  (expr e).seq fun e => (checkConversion e .bool).last fun _ => e

end Analysis.Renames

/-! ## Statements in lockstep -/

namespace Tree.Stmt

open Analysis

variable (f : Renaming)

theorem analyzeQubits_renamed (size : Expr) (loc : Location) :
    Renames f (analyzeQubits size loc) (analyzeQubits (size.rename f) loc) := by
  refine (Renames.expr size).seq fun size => ?_
  refine (Renames.fixed (·.registerSize size) fun _ => rfl).seq fun n => ?_
  have hq := Renames.declareSymbol (f := f) ⟨"q", .qubitRegister, RegisterKind.qubit.ty n, loc⟩
  have hb := Renames.declareSymbol (f := f) ⟨"b", .bitRegister, RegisterKind.bit.ty n, loc⟩
  -- the names of the two registers are no operands of the statement, and are not renamed
  rw [Symbol.rename, f.qubits] at hq
  rw [Symbol.rename, f.bits] at hb
  exact hq.seq fun _ => hb.last _

theorem analyzeType_renamed (type : TypeSpec) :
    Renames f (analyzeType type) (analyzeType (type.rename f)) := by
  cases type with
  | scalar kind => exact .pure _
  | register kind size =>
    cases size with
    | none => exact .pure _
    | some size =>
      exact (Renames.expr size).seq fun size =>
        (Renames.fixed (·.registerSize size) fun _ => rfl).last _

theorem analyzeInit_renamed (ty : Ty) (init : Option Expr) :
    Renames f (analyzeInit ty init) (analyzeInit ty (init.map (Expr.rename f))) := by
  cases init with
  | none => exact .pure _
  | some e => exact (Renames.expr e).seq fun e => (Renames.checkConversion e ty).last _

theorem analyzeDeclare_renamed (name : Ident) (type : TypeSpec) (init : Option Expr) :
    Renames f (analyzeDeclare name type init)
      (analyzeDeclare (name.rename f) (type.rename f) (init.map (Expr.rename f))) := by
  refine (analyzeType_renamed f type).seq fun (size, ty, kind) => ?_
  exact (analyzeInit_renamed f ty init).seq fun _ => (Renames.declareSymbol _).last _

theorem analyzeMap_renamed (target : Expr) (name : Ident) :
    Renames f (analyzeMap target name) (analyzeMap (target.rename f) (name.rename f)) :=
  (Renames.expr target).seq fun _ => (Renames.declareSymbol _).last _

theorem analyzeCondition_renamed (cond : Option Expr) :
    Renames f (analyzeCondition cond) (analyzeCondition (cond.map (Expr.rename f))) := by
  cases cond with
  | none => exact .pure _
  | some e => exact (Renames.condition e).map _

theorem analyzeInstruction_renamed (i : Instruction) :
    Renames f (analyzeInstruction i) (analyzeInstruction (i.rename f)) := by
  refine (Renames.exprs i.operands).seq fun operands => ?_
  refine (analyzeCondition_renamed f i.condition).seq fun _ => ?_
  have hresolve := fun table : SymbolTable =>
    table.resolveInstruction_rename f i.name.name (operands.map (·.ty)) i.loc
  exact (Renames.fixed _ hresolve).last _

theorem analyzeInstructions_renamed (is : List Instruction) :
    Renames f (analyzeInstructions is) (analyzeInstructions (is.map (Instruction.rename f))) := by
  induction is with
  | nil => exact .pure _
  | cons i is ih => exact (analyzeInstruction_renamed f i).seq fun _ => ih.last _

theorem analyzeIterations_renamed (count : Option Expr) :
    Renames f (analyzeIterations count) (analyzeIterations (count.map (Expr.rename f))) := by
  cases count with
  | none => exact .pure _
  | some e => exact (Renames.expr e).seq fun e => .fixed (·.iterationCount e) fun _ => rfl

theorem checkAssign_renamed (lhs rhs : Typed.Expr) :
    Renames f (checkAssign lhs rhs) (checkAssign lhs rhs) := by
  cases lhs with
  | name note symbol =>
    cases symbol with
    | error error => exact .pure _
    | ok id =>
      intro env
      have hsymbols : (env.rename f).table.symbols[id]?
          = (env.table.symbols[id]?).map (Symbol.rename f) := List.getElem?_map
      simp only [checkAssign, hsymbols]
      cases env.table.symbols[id]? with
      | none => exact ⟨rfl, rfl⟩
      | some symbol =>
        obtain ⟨name, kind, ty, loc⟩ := symbol
        cases kind with
        | var => exact Renames.checkConversion rhs note.ty env
        | mapping | qubitRegister | bitRegister => exact ⟨rfl, rfl⟩
  | literal | index | call | axis => exact fun _ => ⟨rfl, rfl⟩

theorem analyzeAssign_renamed (lhs rhs : Expr) :
    Renames f (analyzeAssign lhs rhs) (analyzeAssign (lhs.rename f) (rhs.rename f)) :=
  (Renames.expr lhs).seq fun lhs => (Renames.expr rhs).seq fun rhs =>
    (checkAssign_renamed f lhs rhs).last _

theorem analyzeBound_renamed (e : Expr) :
    Renames f (analyzeBound e) (analyzeBound (e.rename f)) :=
  (Renames.expr e).seq fun e => (Renames.checkConversion e .int).last _

theorem checkLoopControl_renamed (control : LoopControl) (loc : Location) :
    Renames f (checkLoopControl control loc) (checkLoopControl control loc) := by
  intro env
  have hloop : (env.rename f).table.inLoop = env.table.inLoop := env.table.inLoop_rename f
  unfold checkLoopControl
  rw [hloop]
  cases env.table.inLoop with
  | true => exact ⟨rfl, rfl⟩
  | false => exact ⟨rfl, rfl⟩

mutual

/-- A statement with its operands renamed is analysed in lockstep with the statement. -/
theorem analyze_renamed : (s : Stmt) → Renames f s.analyze (s.rename f).analyze
  | .qubits size loc => by
    rw [rename, analyze, analyze]
    exact (analyzeQubits_renamed f size loc).marked loc
  | .declare name type init loc => by
    rw [rename, analyze, analyze]
    exact (analyzeDeclare_renamed f name type init).marked loc
  | .map target name loc => by
    rw [rename, analyze, analyze]
    exact (analyzeMap_renamed f target name).marked loc
  | .instruction i => by
    rw [rename, analyze, analyze]
    exact ((analyzeInstruction_renamed f i).last _).marked i.loc
  | .bundle is loc => by
    rw [rename, analyze, analyze]
    exact ((analyzeInstructions_renamed f is).last _).marked loc
  | .subcircuit name iterations body loc => by
    rw [rename, analyze, analyze]
    refine Renames.marked loc ((Renames.nameSubcircuit name).seq fun _ => ?_)
    exact (analyzeIterations_renamed f iterations).seq fun _ =>
      ((analyzeAll_renamed body).inBlock .subcircuit).last _
  | .assign lhs rhs loc => by
    rw [rename, analyze, analyze]
    exact (analyzeAssign_renamed f lhs rhs).marked loc
  | .ifElse branches otherwise loc => by
    rw [rename, analyze, analyze]
    refine Renames.marked loc ((analyzeBranches_renamed branches).seq fun _ => ?_)
    exact (analyzeOtherwise_renamed otherwise).last _
  | .whileLoop cond body loc => by
    rw [rename, analyze, analyze]
    refine Renames.marked loc ((Renames.condition cond).seq fun _ => ?_)
    exact ((analyzeAll_renamed body).inBlock .loop).last _
  | .repeatUntil body cond loc => by
    rw [rename, analyze, analyze]
    refine Renames.marked loc (((analyzeAll_renamed body).inBlock .loop).seq fun _ => ?_)
    exact (Renames.condition cond).last _
  | .foreach name first last body loc => by
    rw [rename, analyze, analyze]
    refine Renames.marked loc ((analyzeBound_renamed f first).seq fun _ => ?_)
    refine (analyzeBound_renamed f last).seq fun _ => (Renames.inBlock .loop ?_).last _
    exact (Renames.declareSymbol _).seq fun _ => (analyzeAll_renamed body).last _
  | .loopControl control loc => by
    rw [rename, analyze]
    exact ((checkLoopControl_renamed f control loc).last _).marked loc

theorem analyzeAll_renamed :
    (ss : List Stmt) → Renames f (analyzeAll ss) (analyzeAll (renameAll f ss))
  | [] => .pure _
  | s :: ss => by
    rw [renameAll, analyzeAll, analyzeAll]
    exact (analyze_renamed s).seq fun _ => (analyzeAll_renamed ss).last _

theorem analyzeBranches_renamed : (branches : List (Expr × List Stmt)) →
    Renames f (analyzeBranches branches) (analyzeBranches (renameBranches f branches))
  | [] => .pure _
  | (cond, body) :: branches => by
    rw [renameBranches, analyzeBranches, analyzeBranches]
    refine (Renames.condition cond).seq fun _ => ?_
    exact ((analyzeAll_renamed body).inBlock .branch).seq fun _ =>
      (analyzeBranches_renamed branches).last _

theorem analyzeOtherwise_renamed : (otherwise : Option (List Stmt)) →
    Renames f (analyzeOtherwise otherwise) (analyzeOtherwise (renameOtherwise f otherwise))
  | none => .pure _
  | some body => by
    rw [renameOtherwise, analyzeOtherwise, analyzeOtherwise]
    exact ((analyzeAll_renamed body).inBlock .branch).map _

end

end Tree.Stmt

/-! ## Programs -/

namespace Tree.Program

variable {program : Program} {dialect : Dialect}

/-- A program with its operands renamed becomes the same typed program. Its symbol table is the
renamed one, and its diagnostics have the same kinds, severities and locations in the same order:
only the operands that they quote may differ. -/
theorem analyze_rename (f : Renaming) (h : program.dialect? = some dialect) :
    (program.rename f).analyze.program = program.analyze.program
      ∧ (∃ table, program.analyze.table = some table
        ∧ (program.rename f).analyze.table = some (table.rename f))
      ∧ (program.rename f).analyze.diagnostics.map Diagnostic.anonymous
        = program.analyze.diagnostics.map Diagnostic.anonymous
      ∧ (program.rename f).analyze.diagnostics.map Diagnostic.severity
        = program.analyze.diagnostics.map Diagnostic.severity := by
  have h' : (program.rename f).dialect? = some dialect := h
  have hrun : (Stmt.analyzeAll program.stmts (Env.new dialect)).Mirrors f
      (Stmt.analyzeAll (program.rename f).stmts (Env.new dialect)) :=
    Stmt.analyzeAll_renamed f program.stmts (Env.new dialect)
  have hstmts : (Stmt.analyzeAll (program.rename f).stmts (Env.new dialect)).value.1
      = (Stmt.analyzeAll program.stmts (Env.new dialect)).value.1 := by rw [hrun.value]
  have htable : (program.rename f).finalTable dialect = (program.finalTable dialect).rename f := by
    rw [finalTable, hrun.value]
    rfl
  refine ⟨?_, ⟨program.finalTable dialect, table_analyze h, ?_⟩, ?_, ?_⟩
  · rw [analyze_eq h, analyze_eq h']
    exact congrArg (Typed.Program.mk program.versionItems (some dialect)) hstmts
  · rw [table_analyze h', htable]
  · rw [analyze_eq h, analyze_eq h']
    exact hrun.log
  · rw [analyze_eq h, analyze_eq h']
    exact Diagnostics.severities_of_anonymous hrun.log

/-- `x` and `y` trade their names. -/
def exchange : Renaming where
  toFun := Equiv.swap "x" "y"
  injective := (Equiv.swap "x" "y").injective
  qubits := Equiv.swap_apply_of_ne_of_ne (by decide) (by decide)
  bits := Equiv.swap_apply_of_ne_of_ne (by decide) (by decide)

/-- `version 3; qubit[2] q; map q[y], x; foreach (y = 0..2) { x = y; int y }; subcircuit x { H x }`,
with the registers `q` and `b` declared together. -/
def shadowed : Program :=
  let loc : Location := ⟨1, 1⟩
  let x : Ident := ⟨"x", loc⟩
  let y : Ident := ⟨"y", loc⟩
  { version := some ⟨[3], loc⟩
    stmts :=
      [.qubits (.int loc 2) loc, .map (.index ⟨"q", loc⟩ [.item (.name y)] loc) x loc,
        .foreach y (.int loc 0) (.int loc 2)
          [.assign (.name x) (.name y) loc, .declare y (.scalar .int) none loc] loc,
        .subcircuit x none [.instruction ⟨⟨"H", loc⟩, none, [.name x], loc⟩] loc] }

/-- The mapping is now called `y` and the loop runs over `x`. The undeclared index, the assignment to
the mapping and the second declaration of the loop variable are found as before, only that they
quote the new names. The subcircuit and the instruction keep their names. -/
theorem analyze_rename_shadowed :
    shadowed.dialect? = some .v3
      ∧ (shadowed.rename exchange).analyze.program = shadowed.analyze.program
      ∧ (∃ table, shadowed.analyze.table = some table
        ∧ (shadowed.rename exchange).analyze.table = some (table.rename exchange))
      ∧ (shadowed.rename exchange).analyze.table.map (·.symbols.map (·.name))
        = some ["q", "b", "y", "x"]
      ∧ shadowed.analyze.diagnostics.map (·.cause) = [.undeclaredIdentifier "y",
        .notAssignable "mapping `x`", .duplicateDeclaration "y"]
      ∧ (shadowed.rename exchange).analyze.diagnostics.map (·.cause) = [.undeclaredIdentifier "x",
        .notAssignable "mapping `y`", .duplicateDeclaration "x"]
      ∧ (shadowed.rename exchange).analyze.diagnostics.map Diagnostic.severity
        = shadowed.analyze.diagnostics.map Diagnostic.severity := by
  have hdialect : shadowed.dialect? = some .v3 := rfl
  obtain ⟨hprogram, htable, -, hseverity⟩ := analyze_rename exchange hdialect
  exact ⟨hdialect, hprogram, htable, by decide +kernel, by decide +kernel, by decide +kernel,
    hseverity⟩

end Tree.Program

end Cqasm
