import Cqasm.Proofs.Analysis.Selection
import Cqasm.Proofs.Dialect.Tables
import Cqasm.Proofs.Overload.Undefined

/-!
# The calls of a program

Instructions, functions and operators are called with arguments of certain types, and for each call an
overload is resolved. That a call is unknown, has no match or is ambiguous is recorded nowhere else,
so these diagnostics of a program are those of its calls (`perm_allCalls_analyze`). A call with an
argument that has no type is reported only if it is unknown or fits no overload whatever the type is
(`mismatches_analyze`); an ambiguity that the argument gives rise to is passed over.

* `Cause.isResolution` : is it a call whose overload could not be resolved?
* `Call` : what is called with arguments of which types;
* `Tree.Expr.calls`, `Site.allCalls`, `Tree.Program.allCalls` : the calls of an expression, of a
  statement itself and of a program.
-/

namespace Cqasm

open Diagnostics (select select_append select_of_causes)

/-- Is it a call whose overload could not be resolved? -/
def Cause.isResolution : Cause → Bool
  | unknownInstruction _ | unknownFunction _ | noMatchingOverload _ _ | ambiguousOverload _ _ => true
  | _ => false

/-- Checks, declarations and loop controls call nothing. -/
theorem Cause.resolving_isResolution : Resolving isResolution where
  incompatibleTypes _ _ := rfl
  expectedConstInteger := rfl
  invalidRegisterSize _ := rfl
  invalidIterationCount _ := rfl
  notAssignable _ := rfl
  duplicateDeclaration _ := rfl
  loopControlOutsideLoop _ := rfl

/-! ## Calls -/

/-- What can be called. Operators are functions. -/
inductive Callee where
  | function
  | instruction
deriving Repr, DecidableEq

/-- A call with arguments of the given types, and the symbol table that it is resolved with. -/
structure Call where
  callee : Callee
  name : String
  args : List Ty
  loc : Location
  table : SymbolTable

namespace Call

/-- The overloads of the name that is called. -/
def set (call : Call) : Option OverloadSet :=
  match call.callee with
  | .function => call.table.function? call.name
  | .instruction => call.table.instruction? call.name

/-- The cause that is recorded if there is no such name. -/
def unknown (call : Call) : Cause :=
  match call.callee with
  | .function => .unknownFunction call.name
  | .instruction => .unknownInstruction call.name

/-- What is recorded if the call cannot be resolved. -/
def log (call : Call) : Diagnostics :=
  (call.table.resolveCall call.unknown call.set call.name call.args call.loc).log

/-- The parameters of what is called have types. -/
theorem params_of_set {call : Call} {s : OverloadSet} (h : call.set = some s) :
    ∀ o ∈ s.overloads, ∀ t ∈ o.params, t ≠ .undefined := by
  unfold set at h
  split at h
  · exact Dialect.params_of_function? h
  · exact Dialect.params_of_instruction? h

end Call

namespace SymbolTable

variable {table : SymbolTable} {name : String} {args : List Ty} {loc : Location}

/-- The resolution of a call records nothing but that it failed. -/
theorem select_resolveCall {unknown : Cause} {set : Option OverloadSet}
    (hunknown : unknown.isResolution = true) :
    select Cause.isResolution (table.resolveCall unknown set name args loc).log
      = (table.resolveCall unknown set name args loc).log := by
  refine List.filter_eq_self.mpr ?_
  exact causes_resolveCall (p := fun cause => cause.isResolution = true) hunknown (fun _ _ => rfl)
    fun _ _ _ _ => rfl

theorem select_isResolution_resolveInstruction :
    select Cause.isResolution (table.resolveInstruction name args loc).log
      = (Call.mk .instruction name args loc table).log := by
  rw [select_log_resolveInstruction fun _ _ => rfl, select_resolveCall rfl]
  rfl

/-- If an argument has no type then a call is reported only if it is unknown or has no match. -/
theorem log_resolveCall_ne_nil_iff {unknown : Cause} {set : Option OverloadSet}
    (hargs : .undefined ∈ args) : (table.resolveCall unknown set name args loc).log ≠ [] ↔
      set = none ∨ ∃ s, set = some s
        ∧ ∀ o ∈ s.overloads, ¬ o.Applicable table.dialect.promotions args := by
  have hdefined : ¬ (args.all (·.isDefined) = true) :=
    fun h => Ty.isDefined_iff.mp (List.all_eq_true.mp h .undefined hargs) rfl
  cases set with
  | none => simp [resolveCall, resolve]
  | some s =>
    have hnone : (∀ o ∈ s.overloads, ¬ o.Applicable table.dialect.promotions args)
        ↔ resolve table.dialect.promotions (some s) name args = .error (.noMatch name args) := by
      simp only [resolve_eq_noMatch_iff, true_and]
    simp only [reduceCtorEq, Option.some.injEq, exists_eq_left', false_or, hnone]
    unfold resolveCall
    rcases resolve_cases table.dialect.promotions s name args with
      ⟨-, h⟩ | ⟨c, -, h⟩ | ⟨-, -, candidates, h⟩
    · simp [h]
    · simp [h]
    · rw [h]
      dsimp only
      rw [if_neg hdefined]
      simp

end SymbolTable

/-- If an argument has no type then a call is reported only if it is unknown or fits no overload, no
matter what the types are that are missing. -/
theorem Call.log_ne_nil_iff {call : Call} (hargs : .undefined ∈ call.args) :
    call.log ≠ [] ↔ call.set = none ∨ ∃ s, call.set = some s
      ∧ ∀ args', Completes call.args args' →
        ∀ o ∈ s.overloads, ¬ o.Applicable call.table.dialect.promotions args' := by
  rw [log, SymbolTable.log_resolveCall_ne_nil_iff hargs]
  refine or_congr_right (exists_congr fun s => and_congr_right fun hset => ?_)
  exact OverloadSet.forall_not_applicable_iff_completes (params_of_set hset)

/-! ## The calls in an expression -/

namespace Tree

/-- The call of the function or operator `name`. -/
def functionCall (table : SymbolTable) (name : String) (args : List Typed.Expr) (loc : Location) :
    Call := ⟨.function, name, args.map (·.ty), loc, table⟩

theorem select_typedCall (table : SymbolTable) (name : String) (args : List Typed.Expr)
    (loc : Location) : select Cause.isResolution (typedCall table name args loc).log
      = (functionCall table name args loc).log := by
  rw [(typedCall_eq table name args loc).2]
  exact SymbolTable.select_resolveCall rfl

namespace Expr

mutual

/-- The calls in an expression, in the order in which they are resolved. -/
def calls (table : SymbolTable) : Expr → List Call
  | literal _ _ => []
  | name _ => []
  | index _ entries _ => callsEntries table entries
  | unary op operand loc =>
    calls table operand ++ [functionCall table op.functionName [(operand.analyze table).value] loc]
  | binary op lhs rhs loc =>
    calls table lhs ++ calls table rhs
      ++ [functionCall table op.functionName
        [(lhs.analyze table).value, (rhs.analyze table).value] loc]
  | call function args loc =>
    callsAll table args ++ [functionCall table function.name (analyzeAll table args).value loc]
  | array elements _ => callsAll table elements

/-- The calls in several expressions. -/
def callsAll (table : SymbolTable) : List Expr → List Call
  | [] => []
  | e :: es => calls table e ++ callsAll table es

/-- The calls in an entry of an index. -/
def callsEntry (table : SymbolTable) : IndexEntry Expr → List Call
  | .item e => calls table e
  | .range first last => calls table first ++ calls table last

/-- The calls in the entries of an index. -/
def callsEntries (table : SymbolTable) : List (IndexEntry Expr) → List Call
  | [] => []
  | entry :: entries => callsEntry table entry ++ callsEntries table entries

end

variable (table : SymbolTable)

mutual

theorem table_calls : (e : Expr) → ∀ call ∈ e.calls table, call.table = table
  | .literal _ _ => List.forall_mem_nil _
  | .name _ => List.forall_mem_nil _
  | .index _ entries _ => table_callsEntries entries
  | .unary _ operand _ => by
    rw [calls, List.forall_mem_append]
    exact ⟨table_calls operand, List.forall_mem_singleton.mpr rfl⟩
  | .binary _ lhs rhs _ => by
    rw [calls, List.forall_mem_append, List.forall_mem_append]
    exact ⟨⟨table_calls lhs, table_calls rhs⟩, List.forall_mem_singleton.mpr rfl⟩
  | .call _ args _ => by
    rw [calls, List.forall_mem_append]
    exact ⟨table_callsAll args, List.forall_mem_singleton.mpr rfl⟩
  | .array elements _ => table_callsAll elements

theorem table_callsAll : (es : List Expr) → ∀ call ∈ callsAll table es, call.table = table
  | [] => List.forall_mem_nil _
  | e :: es => by
    rw [callsAll, List.forall_mem_append]
    exact ⟨table_calls e, table_callsAll es⟩

theorem table_callsEntry : (entry : IndexEntry Expr) →
    ∀ call ∈ callsEntry table entry, call.table = table
  | .item e => table_calls e
  | .range first last => by
    rw [callsEntry, List.forall_mem_append]
    exact ⟨table_calls first, table_calls last⟩

theorem table_callsEntries : (entries : List (IndexEntry Expr)) →
    ∀ call ∈ callsEntries table entries, call.table = table
  | [] => List.forall_mem_nil _
  | entry :: entries => by
    rw [callsEntries, List.forall_mem_append]
    exact ⟨table_callsEntry entry, table_callsEntries entries⟩

end

open Cause (resolving_isResolution)

theorem select_constInteger (e : Typed.Expr) :
    select Cause.isResolution (table.constInteger e).log = [] :=
  SymbolTable.select_constInteger resolving_isResolution.toUnchecked table e

mutual

theorem select_calls : (e : Expr) →
    select Cause.isResolution (e.analyze table).log = (e.calls table).flatMap Call.log
  | .literal value loc => by
    rw [analyze, calls]
    rfl
  | .name ident => by
    rw [(analyze_name table ident).2, calls]
    exact select_of_causes (SymbolTable.causes_resolveName rfl)
  | .index target entries loc => by
    have hname : select Cause.isResolution (table.resolveName target.name target.loc).log = [] :=
      select_of_causes (SymbolTable.causes_resolveName rfl)
    rw [(analyze_index table target entries loc).2, select_append, select_append, hname,
      select_of_causes (SymbolTable.causes_indexType rfl fun _ _ => rfl), List.nil_append,
      List.append_nil, calls, select_callsEntries entries]
  | .unary op operand loc => by
    rw [(analyze_unary table op operand loc).2, select_append, select_typedCall,
      select_calls operand, calls, List.flatMap_append, List.flatMap_singleton]
  | .binary op lhs rhs loc => by
    rw [(analyze_binary table op lhs rhs loc).2, select_append, select_append, select_typedCall,
      select_calls lhs, select_calls rhs, calls, List.flatMap_append, List.flatMap_append,
      List.flatMap_singleton]
  | .call function args loc => by
    rw [(analyze_call table function args loc).2, select_append, select_typedCall,
      select_callsAll args, calls, List.flatMap_append, List.flatMap_singleton]
  | .array elements loc => by
    rw [(analyze_array table elements loc).2, select_append,
      select_of_causes (causes_typedAxis (fun _ => rfl) fun _ _ => rfl), List.append_nil, calls,
      select_callsAll elements]

theorem select_callsAll : (es : List Expr) →
    select Cause.isResolution (analyzeAll table es).log = (callsAll table es).flatMap Call.log
  | [] => by
    rw [analyzeAll, callsAll]
    rfl
  | e :: es => by
    rw [(analyzeAll_cons table e es).2, select_append, select_calls e, select_callsAll es, callsAll,
      List.flatMap_append]

theorem select_callsEntry : (entry : IndexEntry Expr) →
    select Cause.isResolution (analyzeEntry table entry).log
      = (callsEntry table entry).flatMap Call.log
  | .item e => by
    rw [(analyzeEntry_item table e).2, select_append, select_constInteger, List.append_nil,
      select_calls e, callsEntry]
  | .range first last => by
    rw [(analyzeEntry_range table first last).2, select_append, select_append, select_append,
      select_constInteger, select_constInteger, List.append_nil, List.append_nil, select_calls first,
      select_calls last, callsEntry, List.flatMap_append]

theorem select_callsEntries : (entries : List (IndexEntry Expr)) →
    select Cause.isResolution (analyzeEntries table entries).log
      = (callsEntries table entries).flatMap Call.log
  | [] => by
    rw [analyzeEntries, callsEntries]
    rfl
  | entry :: entries => by
    rw [(analyzeEntries_cons table entry entries).2, select_append, select_callsEntry entry,
      select_callsEntries entries, callsEntries, List.flatMap_append]

end

end Expr

end Tree

/-! ## The calls of a statement -/

namespace Query

/-- The calls in the expression. -/
def calls (query : Query) : List Call := query.expr.calls query.table

theorem select_isResolution (query : Query) :
    query.select Cause.isResolution = query.calls.flatMap Call.log :=
  query.expr.select_calls query.table

end Query

/-- The call of the instruction itself, without those in its operands and in its condition. -/
def Tree.Instruction.call (table : SymbolTable) (i : Tree.Instruction) : Call :=
  ⟨.instruction, i.name.name, (Tree.Expr.analyzeAll table i.operands).value.map (·.ty), i.loc, table⟩

namespace Site

open Tree.Stmt

/-- The calls of the statement itself, in its expressions, by its instructions and in the count of a
subcircuit. -/
def allCalls (site : Site) : List Call :=
  site.queries.flatMap Query.calls ++ site.stmt.ownInstructions.map (·.call site.env.table)
    ++ site.counts.flatMap Query.calls

theorem flatMap_select_isResolution (queries : List Query) :
    queries.flatMap (Query.select Cause.isResolution)
      = (queries.flatMap Query.calls).flatMap Call.log := by
  rw [List.flatMap_assoc]
  exact List.flatMap_congr fun query _ => query.select_isResolution

theorem dialect_conditions (env : Env) (branches : List (Tree.Expr × List Tree.Stmt)) :
    ∀ query ∈ conditions env branches, query.table.dialect = env.table.dialect := by
  induction branches generalizing env with
  | nil => exact List.forall_mem_nil _
  | cons branch branches ih =>
    obtain ⟨cond, body⟩ := branch
    have hbody := (stable_grows.inBlock .branch (stable_grows.analyzeAll body) env).dialect
    exact List.forall_mem_cons.mpr ⟨rfl, fun query hquery => (ih _ query hquery).trans hbody⟩

theorem dialect_queries (site : Site) :
    ∀ query ∈ site.queries, query.table.dialect = site.env.table.dialect := by
  obtain ⟨s, env, inLoop⟩ := site
  cases s with
  | ifElse branches otherwise loc => exact dialect_conditions env branches
  | repeatUntil body cond loc =>
    have hbody := (stable_grows.inBlock .loop (stable_grows.analyzeAll body) env).dialect
    exact List.forall_mem_singleton.mpr hbody
  | _ => exact List.forall_mem_map.mpr fun _ _ => rfl

theorem dialect_counts (site : Site) :
    ∀ query ∈ site.counts, query.table.dialect = site.env.table.dialect := by
  obtain ⟨s, env, inLoop⟩ := site
  cases s with
  | subcircuit name iterations body loc => exact List.forall_mem_map.mpr fun _ _ => rfl
  | _ => exact List.forall_mem_nil _

/-- All calls of a statement are resolved in the dialect of the program. -/
theorem dialect_allCalls (site : Site) :
    ∀ call ∈ site.allCalls, call.table.dialect = site.env.table.dialect := by
  have hquery {query : Query} (h : query.table.dialect = site.env.table.dialect) :
      ∀ call ∈ query.calls, call.table.dialect = site.env.table.dialect := by
    intro call hcall
    rw [query.expr.table_calls query.table call hcall, h]
  rw [allCalls, List.forall_mem_append, List.forall_mem_append]
  refine ⟨⟨List.forall_mem_flatMap.mpr fun query h => hquery (site.dialect_queries query h), ?_⟩,
    List.forall_mem_flatMap.mpr fun query h => hquery (site.dialect_counts query h)⟩
  exact List.forall_mem_map.mpr fun _ _ => rfl

theorem perm_allCalls (site : Site) :
    (select Cause.isResolution site.ownLog).Perm (site.allCalls.flatMap Call.log) := by
  refine (site.perm_select Cause.resolving_isResolution).trans (.of_eq ?_)
  rw [allCalls, List.flatMap_append, List.flatMap_append, flatMap_select_isResolution,
    flatMap_select_isResolution, List.flatMap_map]
  congr 2
  exact List.flatMap_congr fun i _ => SymbolTable.select_isResolution_resolveInstruction

end Site

/-! ## The calls of a program -/

namespace Tree.Program

variable {program : Program} {dialect : Dialect}

/-- The calls of a program of the given dialect. -/
def allCalls (dialect : Dialect) (program : Program) : List Call :=
  (program.sites dialect).flatMap Site.allCalls

/-- What is recorded about overloads in a program is what its calls record. -/
theorem perm_allCalls_analyze (h : program.dialect? = some dialect) :
    (program.analyze.diagnostics.select Cause.isResolution).Perm
      ((program.allCalls dialect).flatMap Call.log) := by
  refine (perm_select_analyze h _).trans ?_
  rw [allCalls, List.flatMap_assoc]
  exact List.Perm.flatMap_left _ fun site _ => site.perm_allCalls

theorem dialect_of_mem_allCalls {call : Call} (h : call ∈ program.allCalls dialect) :
    call.table.dialect = dialect := by
  obtain ⟨site, hsite, hcall⟩ := List.mem_flatMap.mp h
  rw [site.dialect_allCalls call hcall, dialect_of_mem_sites hsite]

/-- **An argument without a type is no reason for a mismatch.** If the parameters of the overloads
have types then there is no match if and only if there is none for any choice of types for such
arguments. So a program has the diagnostics about overloads of its calls, and a call with such an
argument has one only if its name is unknown or no choice of types makes an overload applicable. -/
theorem mismatches_analyze :
    (∀ (rules : Promotions) (set : OverloadSet) (name : String) (args : List Ty),
      (∀ o ∈ set.overloads, ∀ t ∈ o.params, t ≠ .undefined) →
        (resolve rules (some set) name args = .error (.noMatch name args)
          ↔ ∀ args', Completes args args' →
            resolve rules (some set) name args' = .error (.noMatch name args')))
    ∧ ∀ (program : Program) (dialect : Dialect), program.dialect? = some dialect →
      (program.analyze.diagnostics.select Cause.isResolution).Perm
          ((program.allCalls dialect).flatMap Call.log)
        ∧ ∀ call ∈ program.allCalls dialect, call.table.dialect = dialect
          ∧ (.undefined ∈ call.args →
            (call.log ≠ [] ↔ call.set = none ∨ ∃ s, call.set = some s
              ∧ ∀ args', Completes call.args args' →
                ∀ o ∈ s.overloads, ¬ o.Applicable dialect.promotions args')) := by
  refine ⟨fun _ _ _ _ hset => resolve_eq_noMatch_iff_completes hset, fun program dialect h => ?_⟩
  refine ⟨perm_allCalls_analyze h, fun call hcall => ?_⟩
  have hdialect := dialect_of_mem_allCalls hcall
  exact ⟨hdialect, fun hargs => hdialect ▸ Call.log_ne_nil_iff hargs⟩

/-- `version 3.0; CR y, y, y + y; CNOT y; Rx y, foo(y)`, where `y` is not declared. -/
def undeclaredOperands : Program :=
  let loc : Location := ⟨1, 1⟩
  let y : Expr := .name ⟨"y", loc⟩
  let on (name : String) (operands : List Expr) : Stmt :=
    .instruction ⟨⟨name, loc⟩, none, operands, loc⟩
  { version := some ⟨[3, 0], loc⟩
    stmts :=
      [on "CR" [y, y, .binary .add y y loc], on "CNOT" [y], on "Rx" [y, .call ⟨"foo", loc⟩ [y] loc]] }

/-- There is no `CNOT` of one operand, whatever the type of `y` is, and no `foo`. The sum may be one of
integers or of reals, but this is not reported. -/
theorem mismatches_analyze_undeclaredOperands :
    undeclaredOperands.dialect? = some .v3
      ∧ (undeclaredOperands.allCalls .v3).map (fun call =>
          (call.name, call.args, call.log.map (·.cause)))
        = [("operator+", [.undefined, .undefined], []),
          ("CR", [.undefined, .undefined, .undefined], []),
          ("CNOT", [.undefined], [.noMatchingOverload "CNOT" [.undefined]]),
          ("foo", [.undefined], [.unknownFunction "foo"]),
          ("Rx", [.undefined, .undefined], [])]
      ∧ (undeclaredOperands.analyze.diagnostics.select Cause.isResolution).Perm
        [⟨.noMatchingOverload "CNOT" [.undefined], ⟨1, 1⟩, some .v3⟩,
          ⟨.unknownFunction "foo", ⟨1, 1⟩, some .v3⟩]
      ∧ (∀ call ∈ undeclaredOperands.allCalls .v3, .undefined ∈ call.args)
      ∧ (∀ call ∈ undeclaredOperands.allCalls .v3, call.log ≠ [] ↔ call.set = none
        ∨ ∃ s, call.set = some s ∧ ∀ args', Completes call.args args' →
          ∀ o ∈ s.overloads, ¬ o.Applicable Dialect.v3.promotions args')
      ∧ ∃ set : OverloadSet, Dialect.v3.instructions.get? "CNOT" = some set
        ∧ (∀ o ∈ set.overloads, ∀ t ∈ o.params, t ≠ .undefined)
        ∧ ∀ args', Completes [.undefined] args' →
          resolve Dialect.v3.promotions (some set) "CNOT" args' = .error (.noMatch "CNOT" args') := by
  have hdialect : undeclaredOperands.dialect? = some .v3 := rfl
  obtain ⟨hlaw, hprograms⟩ := mismatches_analyze
  obtain ⟨hperm, hcalls⟩ := hprograms undeclaredOperands .v3 hdialect
  have hargs : ∀ call ∈ undeclaredOperands.allCalls .v3, .undefined ∈ call.args := by decide +kernel
  refine ⟨hdialect, by decide +kernel, hperm.trans (.of_eq (by decide +kernel)), hargs, ?_, ?_⟩
  · exact fun call hcall => (hcalls call hcall).2 (hargs call hcall)
  · let f : Overload := Builtin.instruction "CNOT" [.qubit 1, .qubit 1]
    have hset : Dialect.v3.instructions.get? "CNOT" = some ⟨"CNOT", [f]⟩ := by decide +kernel
    have hparams : ∀ o ∈ [f], ∀ t ∈ o.params, t ≠ .undefined := by decide
    exact ⟨_, hset, hparams,
      (hlaw Dialect.v3.promotions ⟨"CNOT", [f]⟩ "CNOT" [.undefined] hparams).mp (by decide +kernel)⟩

end Tree.Program

end Cqasm
