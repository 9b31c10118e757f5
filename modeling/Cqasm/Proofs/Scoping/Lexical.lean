import Cqasm.Proofs.Analysis.Expr
import Cqasm.Proofs.Analysis.Site
import Cqasm.Proofs.Scoping.Represents

/-!
# The analysis scopes names lexically

On every program the analysis and the resolver find the same (`names_analyze`). The proof follows the
statements: each keeps the relation `Represents` between the symbol table and the frames, and gives
the outcomes that the resolver finds.
-/

namespace Cqasm

namespace Scoping

open Diagnostics (undeclared undeclared_append undeclared_of_causes)

variable {table : SymbolTable} {env : Env} {outer : List Frame} {bindings : Bindings}

/-! ## Expressions -/

section Expressions

open Cqasm.Tree Cqasm.Tree.Expr

theorem undeclared_constInteger (table : SymbolTable) (e : Typed.Expr) :
    undeclared (table.constInteger e).log = [] :=
  undeclared_of_causes (SymbolTable.causes_constInteger (by simp))

theorem names_typedCall (table : SymbolTable) (name : String) (args : List Typed.Expr)
    (loc : Location) :
    (typedCall table name args loc).value.names = .node [] (Typed.Expr.namesAll args)
      ∧ undeclared (typedCall table name args loc).log = [] :=
  ⟨rfl, undeclared_of_causes (causes_typedCall (by simp) (by simp) (by simp))⟩

theorem names_typedAxis (table : SymbolTable) (elements : List Typed.Expr) (loc : Location) :
    (typedAxis table elements loc).value.names = .node [] (Typed.Expr.namesAll elements)
      ∧ undeclared (typedAxis table elements loc).log = [] :=
  ⟨rfl, undeclared_of_causes (causes_typedAxis (by simp) (by simp))⟩

mutual

/-- The names in an expression are resolved as lexical scoping has it. -/
theorem resolves_expr (h : Represents table outer bindings) : (e : Expr) →
    (e.analyze table).value.names = resolveExpr (bindings.frame :: outer) e
      ∧ undeclared (e.analyze table).log = unbound (bindings.frame :: outer) (references e)
  | .literal value loc => ⟨rfl, rfl⟩
  | .name ident => by
    obtain ⟨hvalue, hlog⟩ := resolveName_eq h ident.name ident.loc
    rw [(analyze_name table ident).1, (analyze_name table ident).2, Typed.Expr.names, hvalue, hlog]
    exact ⟨rfl, rfl⟩
  | .index target entries loc => by
    obtain ⟨hvalue, hlog⟩ := resolveName_eq h target.name target.loc
    have hentries := reports_entries h entries
    have htype : ∀ ty spans, undeclared (table.indexType target.name target.loc ty spans).log = [] :=
      fun ty spans => undeclared_of_causes (SymbolTable.causes_indexType (by simp) (by simp))
    rw [(analyze_index table target entries loc).1, (analyze_index table target entries loc).2,
      Typed.Expr.names, hvalue, undeclared_append, undeclared_append, hlog,
      hentries, htype, List.append_nil, ← unbound_append]
    exact ⟨rfl, rfl⟩
  | .unary op operand loc => by
    obtain ⟨hvalue, hlog⟩ := resolves_expr h operand
    obtain ⟨hcall, hcalllog⟩ :=
      names_typedCall table op.functionName [(operand.analyze table).value] loc
    rw [(analyze_unary table op operand loc).1, (analyze_unary table op operand loc).2, hcall,
      undeclared_append, hcalllog, List.append_nil, hlog, Typed.Expr.namesAll, hvalue]
    exact ⟨rfl, rfl⟩
  | .binary op lhs rhs loc => by
    obtain ⟨hlhs, hlogl⟩ := resolves_expr h lhs
    obtain ⟨hrhs, hlogr⟩ := resolves_expr h rhs
    obtain ⟨hcall, hcalllog⟩ := names_typedCall table op.functionName
      [(lhs.analyze table).value, (rhs.analyze table).value] loc
    rw [(analyze_binary table op lhs rhs loc).1, (analyze_binary table op lhs rhs loc).2, hcall,
      undeclared_append, undeclared_append, hcalllog, List.append_nil, hlogl,
      hlogr, ← unbound_append, Typed.Expr.namesAll, Typed.Expr.namesAll, hlhs, hrhs]
    exact ⟨rfl, rfl⟩
  | .call function args loc => by
    obtain ⟨hvalues, hlogs⟩ := resolves_exprs h args
    obtain ⟨hcall, hcalllog⟩ :=
      names_typedCall table function.name (analyzeAll table args).value loc
    rw [(analyze_call table function args loc).1, (analyze_call table function args loc).2, hcall,
      undeclared_append, hcalllog, List.append_nil, hlogs, hvalues]
    exact ⟨rfl, rfl⟩
  | .array elements loc => by
    obtain ⟨hvalues, hlogs⟩ := resolves_exprs h elements
    obtain ⟨haxis, haxislog⟩ := names_typedAxis table (analyzeAll table elements).value loc
    rw [(analyze_array table elements loc).1, (analyze_array table elements loc).2, haxis,
      undeclared_append, haxislog, List.append_nil, hlogs, hvalues]
    exact ⟨rfl, rfl⟩

theorem resolves_exprs (h : Represents table outer bindings) : (es : List Expr) →
    Typed.Expr.namesAll (analyzeAll table es).value = resolveExprs (bindings.frame :: outer) es
      ∧ undeclared (analyzeAll table es).log = unbound (bindings.frame :: outer) (referencesAll es)
  | [] => ⟨rfl, rfl⟩
  | e :: es => by
    obtain ⟨hvalue, hlog⟩ := resolves_expr h e
    obtain ⟨hvalues, hlogs⟩ := resolves_exprs h es
    rw [(analyzeAll_cons table e es).1, (analyzeAll_cons table e es).2, Typed.Expr.namesAll, hvalue,
      hvalues, undeclared_append, hlog, hlogs, ← unbound_append]
    exact ⟨rfl, rfl⟩

theorem reports_entry (h : Represents table outer bindings) : (entry : IndexEntry Expr) →
    undeclared (analyzeEntry table entry).log
      = unbound (bindings.frame :: outer) (referencesEntry entry)
  | .item e => by
    rw [(analyzeEntry_item table e).2, undeclared_append, undeclared_constInteger,
      List.append_nil, (resolves_expr h e).2, referencesEntry]
  | .range first last => by
    rw [(analyzeEntry_range table first last).2, undeclared_append,
      undeclared_append, undeclared_append, undeclared_constInteger,
      undeclared_constInteger, List.append_nil, List.append_nil, (resolves_expr h first).2,
      (resolves_expr h last).2, referencesEntry, unbound_append]

theorem reports_entries (h : Represents table outer bindings) :
    (entries : List (IndexEntry Expr)) → undeclared (analyzeEntries table entries).log
      = unbound (bindings.frame :: outer) (referencesEntries entries)
  | [] => rfl
  | entry :: entries => by
    rw [(analyzeEntries_cons table entry entries).2, undeclared_append,
      reports_entry h entry, reports_entries h entries, referencesEntries, unbound_append]

end

end Expressions

/-! ## Parts of statements -/

section Parts

open Analysis Cqasm.Tree Cqasm.Tree.Stmt

theorem undeclared_checkConversion (table : SymbolTable) (e : Typed.Expr) (ty : Ty) :
    undeclared (table.checkConversion e ty).log = [] :=
  undeclared_of_causes (SymbolTable.causes_checkConversion (by simp))

theorem undeclared_registerSize (table : SymbolTable) (e : Typed.Expr) :
    undeclared (table.registerSize e).log = [] :=
  undeclared_of_causes (SymbolTable.causes_natural (by simp) (by simp))

theorem referencesAll_singleton (e : Expr) : referencesAll [e] = references e := List.append_nil _

theorem reports_condition (h : Represents env.table outer bindings) (e : Expr) :
    undeclared (condition e env).log = unbound (bindings.frame :: outer) (references e) := by
  rw [log_condition, undeclared_append, undeclared_checkConversion, List.append_nil,
    (resolves_expr h e).2]

theorem reports_bound (h : Represents env.table outer bindings) (e : Expr) :
    undeclared (analyzeBound e env).log = unbound (bindings.frame :: outer) (references e) := by
  rw [log_analyzeBound, undeclared_append, undeclared_checkConversion, List.append_nil,
    (resolves_expr h e).2]

theorem reports_iterations (h : Represents env.table outer bindings) (count : Option Expr) :
    undeclared (analyzeIterations count env).log
      = unbound (bindings.frame :: outer) (referencesAll count.toList) := by
  cases count with
  | none => rfl
  | some e =>
    have hcount : undeclared (env.table.iterationCount (e.analyze env.table).value).log = [] :=
      undeclared_of_causes (SymbolTable.causes_natural (by simp) (by simp))
    rw [(analyzeIterations_some env e).2, undeclared_append, hcount, List.append_nil,
      (resolves_expr h e).2, Option.toList_some, referencesAll_singleton]

theorem resolves_type (h : Represents env.table outer bindings) (type : TypeSpec) :
    Typed.Expr.namesOption (analyzeType type env).value.1.1
        = resolveOption (bindings.frame :: outer) (sizeOf type)
      ∧ undeclared (analyzeType type env).log
        = unbound (bindings.frame :: outer) (referencesAll (sizeOf type).toList) := by
  cases type with
  | scalar kind => exact ⟨rfl, rfl⟩
  | register kind size =>
    cases size with
    | none => exact ⟨rfl, rfl⟩
    | some size =>
      obtain ⟨hvalue, hlog⟩ := resolves_expr h size
      obtain ⟨htype, htypelog⟩ := analyzeType_some env kind size
      refine ⟨?_, ?_⟩
      · rw [htype, Typed.Expr.namesOption, Option.map_some, hvalue]
        rfl
      · rw [htypelog, undeclared_append, undeclared_registerSize, List.append_nil, hlog,
          sizeOf, Option.toList_some, referencesAll_singleton]

theorem resolves_init (h : Represents env.table outer bindings) (ty : Ty) (init : Option Expr) :
    Typed.Expr.namesOption (analyzeInit ty init env).value.1
        = resolveOption (bindings.frame :: outer) init
      ∧ undeclared (analyzeInit ty init env).log
        = unbound (bindings.frame :: outer) (referencesAll init.toList) := by
  cases init with
  | none => exact ⟨rfl, rfl⟩
  | some e =>
    obtain ⟨hvalue, hlog⟩ := resolves_expr h e
    obtain ⟨hinit, hinitlog⟩ := analyzeInit_some env ty e
    refine ⟨?_, ?_⟩
    · rw [hinit, Typed.Expr.namesOption, Option.map_some, hvalue]
      rfl
    · rw [hinitlog, undeclared_append, undeclared_checkConversion, List.append_nil, hlog,
        Option.toList_some, referencesAll_singleton]

theorem resolves_gateCondition (h : Represents env.table outer bindings) (cond : Option Expr) :
    Typed.Expr.namesOption (analyzeCondition cond env).value.1
        = resolveOption (bindings.frame :: outer) cond
      ∧ undeclared (analyzeCondition cond env).log
        = unbound (bindings.frame :: outer) (referencesAll cond.toList) := by
  cases cond with
  | none => exact ⟨rfl, rfl⟩
  | some e =>
    obtain ⟨hcond, hcondlog⟩ := analyzeCondition_some env e
    refine ⟨?_, ?_⟩
    · rw [hcond, Typed.Expr.namesOption, Option.map_some, (resolves_expr h e).1]
      rfl
    · rw [hcondlog, reports_condition h, Option.toList_some, referencesAll_singleton]

theorem resolves_instruction (h : Represents env.table outer bindings) (i : Instruction) :
    (analyzeInstruction i env).value.1.names = resolveInstruction (bindings.frame :: outer) i
      ∧ undeclared (analyzeInstruction i env).log
        = unbound (bindings.frame :: outer) (referencesInstruction i) := by
  obtain ⟨hoperands, hlog⟩ := resolves_exprs h i.operands
  obtain ⟨hcond, hcondlog⟩ := resolves_gateCondition h i.condition
  have hcall : ∀ types, undeclared (env.table.resolveInstruction i.name.name types i.loc).log = [] :=
    fun types => undeclared_of_causes
      (SymbolTable.causes_resolveInstruction (by simp) (by simp) (by simp) (by simp))
  obtain ⟨hinstruction, hinstructionlog⟩ := analyzeInstruction_eq env i
  refine ⟨?_, ?_⟩
  · rw [hinstruction, Typed.GateCall.names, hoperands, hcond, resolveInstruction]
  · rw [hinstructionlog, undeclared_append, undeclared_append, hcall,
      List.append_nil, hlog, hcondlog, referencesInstruction, unbound_append]

theorem resolves_instructions (h : Represents env.table outer bindings) (is : List Instruction) :
    (analyzeInstructions is env).value.1.map Typed.GateCall.names
        = is.map (resolveInstruction (bindings.frame :: outer))
      ∧ undeclared (analyzeInstructions is env).log
        = unbound (bindings.frame :: outer) (is.flatMap referencesInstruction) := by
  induction is with
  | nil => exact ⟨rfl, rfl⟩
  | cons i is ih =>
    obtain ⟨hvalue, hlog⟩ := resolves_instruction h i
    obtain ⟨hcons, hconslog⟩ := analyzeInstructions_cons env i is
    refine ⟨?_, ?_⟩
    · rw [hcons, List.map_cons, List.map_cons, hvalue, ih.1]
    · rw [hconslog, undeclared_append, hlog, ih.2, List.flatMap_cons, unbound_append]

end Parts

/-! ## Statements -/

section Statements

open Analysis Cqasm.Tree Cqasm.Tree.Stmt

theorem agrees_qubits (h : Represents env.table outer bindings) (size : Expr) (loc : Location) :
    Agrees outer Typed.Stmt.names ((qubits size loc).analyze env)
      (resolveStmt outer bindings (qubits size loc)) := by
  obtain ⟨hvalue, hlog⟩ := resolves_expr h size
  have hq := agrees_declareSymbol h ⟨"q", .qubitRegister, RegisterKind.qubit.ty
    (env.table.registerSize (size.analyze env.table).value).value, loc⟩
  have hb := agrees_declareSymbol hq.represents ⟨"b", .bitRegister, RegisterKind.bit.ty
    (env.table.registerSize (size.analyze env.table).value).value, loc⟩
  obtain ⟨hstmt, hstmtlog⟩ := analyze_qubits env size loc
  refine ⟨?_, ?_, ?_⟩
  · rw [hstmt, Typed.Stmt.names, resolveStmt, hvalue]
    exact congrArg₂ (fun q b => Names.node [q, b] _) hq.names hb.names
  · rw [hstmtlog, undeclared_append, undeclared_append,
      undeclared_append, hlog, undeclared_registerSize, hq.undeclared, hb.undeclared,
      List.append_nil, List.append_nil, List.append_nil, resolveStmt]
  · rw [hstmt]
    exact hb.represents

theorem agrees_declare (h : Represents env.table outer bindings) (name : Ident) (type : TypeSpec)
    (init : Option Expr) (loc : Location) :
    Agrees outer Typed.Stmt.names ((declare name type init loc).analyze env)
      (resolveStmt outer bindings (declare name type init loc)) := by
  obtain ⟨htype, htypelog⟩ := resolves_type h type
  obtain ⟨hinit, hinitlog⟩ := resolves_init h (analyzeType type env).value.1.2.1 init
  have hsymbol := agrees_declareSymbol h ⟨name.name, (analyzeType type env).value.1.2.2,
    (analyzeType type env).value.1.2.1, name.loc⟩
  obtain ⟨hstmt, hstmtlog⟩ := analyze_declare env name type init loc
  refine ⟨?_, ?_, ?_⟩
  · rw [hstmt, Typed.Stmt.names, resolveStmt, htype, hinit]
    exact congrArg (fun symbol => Names.node [symbol] _) hsymbol.names
  · rw [hstmtlog, undeclared_append, undeclared_append, htypelog, hinitlog,
      hsymbol.undeclared, List.append_nil, ← unbound_append, resolveStmt]
  · rw [hstmt]
    exact hsymbol.represents

theorem agrees_map (h : Represents env.table outer bindings) (target : Expr) (name : Ident)
    (loc : Location) :
    Agrees outer Typed.Stmt.names ((map target name loc).analyze env)
      (resolveStmt outer bindings (map target name loc)) := by
  obtain ⟨hvalue, hlog⟩ := resolves_expr h target
  have hsymbol := agrees_declareSymbol h
    ⟨name.name, .mapping, (target.analyze env.table).value.ty, name.loc⟩
  obtain ⟨hstmt, hstmtlog⟩ := analyze_map env target name loc
  refine ⟨?_, ?_, ?_⟩
  · rw [hstmt, Typed.Stmt.names, resolveStmt, hvalue]
    exact congrArg (fun symbol => Names.node [symbol] _) hsymbol.names
  · rw [hstmtlog, undeclared_append, hlog, hsymbol.undeclared, List.append_nil,
      resolveStmt]
  · rw [hstmt]
    exact hsymbol.represents

theorem agrees_instruction (h : Represents env.table outer bindings) (i : Instruction) :
    Agrees outer Typed.Stmt.names ((instruction i).analyze env)
      (resolveStmt outer bindings (instruction i)) := by
  obtain ⟨hvalue, hlog⟩ := resolves_instruction h i
  obtain ⟨hstmt, hstmtlog⟩ := analyze_instruction env i
  refine ⟨?_, ?_, ?_⟩
  · rw [hstmt, Typed.Stmt.names, resolveStmt, hvalue]
  · rw [hstmtlog, hlog, resolveStmt]
  · rw [hstmt]
    exact h

theorem agrees_bundle (h : Represents env.table outer bindings) (is : List Instruction)
    (loc : Location) :
    Agrees outer Typed.Stmt.names ((bundle is loc).analyze env)
      (resolveStmt outer bindings (bundle is loc)) := by
  obtain ⟨hvalue, hlog⟩ := resolves_instructions h is
  obtain ⟨hstmt, hstmtlog⟩ := analyze_bundle env is loc
  refine ⟨?_, ?_, ?_⟩
  · rw [hstmt, Typed.Stmt.names, resolveStmt, hvalue]
  · rw [hstmtlog, hlog, resolveStmt]
  · rw [hstmt]
    exact h

theorem agrees_assign (h : Represents env.table outer bindings) (lhs rhs : Expr) (loc : Location) :
    Agrees outer Typed.Stmt.names ((assign lhs rhs loc).analyze env)
      (resolveStmt outer bindings (assign lhs rhs loc)) := by
  obtain ⟨hlhs, hlogl⟩ := resolves_expr h lhs
  obtain ⟨hrhs, hlogr⟩ := resolves_expr h rhs
  have hcheck : undeclared (checkAssign (lhs.analyze env.table).value (rhs.analyze env.table).value
      env).log = [] := undeclared_of_causes (causes_checkAssign (by simp) (by simp))
  obtain ⟨hstmt, hstmtlog⟩ := analyze_assign env lhs rhs loc
  refine ⟨?_, ?_, ?_⟩
  · rw [hstmt, Typed.Stmt.names, resolveStmt, hlhs, hrhs]
  · rw [hstmtlog, undeclared_append, undeclared_append, hlogl, hlogr, hcheck,
      List.append_nil, ← unbound_append, resolveStmt]
  · rw [hstmt]
    exact h

theorem agrees_loopControl (h : Represents env.table outer bindings) (control : LoopControl)
    (loc : Location) :
    Agrees outer Typed.Stmt.names ((loopControl control loc).analyze env)
      (resolveStmt outer bindings (loopControl control loc)) := by
  obtain ⟨hstmt, hstmtlog⟩ := analyze_loopControl env control loc
  refine ⟨?_, ?_, ?_⟩
  · rw [hstmt, Typed.Stmt.names, resolveStmt]
  · rw [hstmtlog, undeclared_of_causes (causes_checkLoopControl (by simp)), resolveStmt]
  · rw [hstmt]
    exact h

mutual

/-- The analysis of a statement and its resolution agree. -/
theorem agrees_stmt {env : Env} {outer : List Frame} {bindings : Bindings}
    (h : Represents env.table outer bindings) : (s : Stmt) →
    Agrees outer Typed.Stmt.names (s.analyze env) (resolveStmt outer bindings s)
  | .qubits size loc => agrees_qubits h size loc
  | .declare name type init loc => agrees_declare h name type init loc
  | .map target name loc => agrees_map h target name loc
  | .instruction i => agrees_instruction h i
  | .bundle is loc => agrees_bundle h is loc
  | .assign lhs rhs loc => agrees_assign h lhs rhs loc
  | .loopControl control loc => agrees_loopControl h control loc
  | .subcircuit name iterations body loc => by
    have hnamed : Represents (nameSubcircuit name env).value.2.table outer bindings := by
      rw [table_nameSubcircuit]
      exact h
    have hbody := agrees_stmts (hnamed.enter .subcircuit) body
    obtain ⟨hstmt, hstmtlog⟩ := analyze_subcircuit env name iterations body loc
    refine ⟨?_, ?_, ?_⟩
    · rw [hstmt, Typed.Stmt.names, resolveStmt, hbody.names]
    · rw [hstmtlog, undeclared_append, undeclared_append,
        undeclared_of_causes (causes_nameSubcircuit (by simp)), reports_iterations hnamed,
        hbody.undeclared, List.nil_append, resolveStmt]
    · rw [hstmt]
      exact hnamed.leave hbody.represents
  | .ifElse branches otherwise loc => by
    have hbranches := agrees_branches h branches
    have hotherwise := agrees_otherwise hbranches.represents otherwise
    obtain ⟨hstmt, hstmtlog⟩ := analyze_ifElse env branches otherwise loc
    refine ⟨?_, ?_, ?_⟩
    · rw [hstmt, Typed.Stmt.names, resolveStmt, hbranches.names, hotherwise.names]
    · rw [hstmtlog, undeclared_append, hbranches.undeclared, hotherwise.undeclared,
        resolveStmt]
    · rw [hstmt]
      exact hotherwise.represents
  | .whileLoop cond body loc => by
    have hbody := agrees_stmts (h.enter .loop) body
    obtain ⟨hstmt, hstmtlog⟩ := analyze_whileLoop env cond body loc
    refine ⟨?_, ?_, ?_⟩
    · rw [hstmt, Typed.Stmt.names, resolveStmt, (resolves_expr h cond).1, hbody.names]
    · rw [hstmtlog, undeclared_append, reports_condition h, hbody.undeclared, resolveStmt]
    · rw [hstmt]
      exact h.leave hbody.represents
  | .repeatUntil body cond loc => by
    have hbody := agrees_stmts (h.enter .loop) body
    -- The condition is resolved behind the block, where the frame is the one in front of it.
    have hbehind := h.leave hbody.represents
    obtain ⟨hstmt, hstmtlog⟩ := analyze_repeatUntil env body cond loc
    refine ⟨?_, ?_, ?_⟩
    · rw [hstmt, Typed.Stmt.names, resolveStmt, ← hbody.names]
      exact congrArg (fun names => Names.node [] (names :: _)) (resolves_expr hbehind cond).1
    · rw [hstmtlog, undeclared_append, hbody.undeclared, resolveStmt]
      exact congrArg _ (reports_condition hbehind cond)
    · rw [hstmt]
      exact hbehind
  | .foreach name first last body loc => by
    have hname := agrees_declareSymbol (h.enter .loop)
      ⟨name.name, .var, .int, name.loc⟩
    have hbody := agrees_stmts hname.represents body
    obtain ⟨hstmt, hstmtlog⟩ := analyze_foreach env name first last body loc
    refine ⟨?_, ?_, ?_⟩
    · rw [hstmt, Typed.Stmt.names, resolveStmt, (resolves_expr h first).1, (resolves_expr h last).1,
        hbody.names]
      exact congrArg (fun symbol => Names.node [symbol] _) hname.names
    · rw [hstmtlog, undeclared_append, undeclared_append,
        undeclared_append, reports_bound h, reports_bound h, hname.undeclared,
        hbody.undeclared, List.append_nil, ← unbound_append, resolveStmt]
    · rw [hstmt]
      exact h.leave hbody.represents

theorem agrees_stmts {env : Env} {outer : List Frame} {bindings : Bindings}
    (h : Represents env.table outer bindings) : (ss : List Stmt) →
    Agrees outer Typed.Stmt.namesAll (analyzeAll ss env) (resolveStmts outer bindings ss)
  | [] => ⟨rfl, rfl, h⟩
  | s :: ss => by
    have hs := agrees_stmt h s
    have hss := agrees_stmts hs.represents ss
    obtain ⟨hvalue, hlog⟩ := analyzeAll_cons env s ss
    refine ⟨?_, ?_, ?_⟩
    · rw [hvalue, Typed.Stmt.namesAll, hs.names, hss.names, resolveStmts]
    · rw [hlog, undeclared_append, hs.undeclared, hss.undeclared, resolveStmts]
    · rw [hvalue]
      exact hss.represents

theorem agrees_branches {env : Env} {outer : List Frame} {bindings : Bindings}
    (h : Represents env.table outer bindings) : (branches : List (Expr × List Stmt)) →
    Agrees outer Typed.Stmt.namesBranches (analyzeBranches branches env)
      (resolveBranches outer bindings branches)
  | [] => ⟨rfl, rfl, h⟩
  | (cond, body) :: branches => by
    have hbody := agrees_stmts (h.enter .branch) body
    have hrest := agrees_branches (h.leave hbody.represents) branches
    obtain ⟨hvalue, hlog⟩ := analyzeBranches_cons env cond body branches
    refine ⟨?_, ?_, ?_⟩
    · rw [hvalue, Typed.Stmt.namesBranches, (resolves_expr h cond).1, hbody.names, resolveBranches]
      exact congrArg _ hrest.names
    · rw [hlog, undeclared_append, undeclared_append, reports_condition h,
        hbody.undeclared, resolveBranches]
      exact congrArg _ hrest.undeclared
    · rw [hvalue]
      exact hrest.represents

theorem agrees_otherwise {env : Env} {outer : List Frame} {bindings : Bindings}
    (h : Represents env.table outer bindings) : (otherwise : Option (List Stmt)) →
    Agrees outer Typed.Stmt.namesOtherwise (analyzeOtherwise otherwise env)
      (resolveOtherwise outer bindings otherwise)
  | none => ⟨rfl, rfl, h⟩
  | some body => by
    have hbody := agrees_stmts (h.enter .branch) body
    obtain ⟨hvalue, hlog⟩ := analyzeOtherwise_some env body
    refine ⟨?_, ?_, ?_⟩
    · rw [hvalue, Typed.Stmt.namesOtherwise, hbody.names, resolveOtherwise]
    · rw [hlog, hbody.undeclared, resolveOtherwise]
    · rw [hvalue]
      exact h.leave hbody.represents

end

end Statements

/-! ## Programs -/

/-- Whatever errors a program contains, the analysis resolves its names as lexical scoping has it:
every declaration and every reference gets the same symbol or the same error, and the names without a
binding are reported, also where the typed program does not keep the reference. -/
theorem names_analyze {program : Tree.Program} {dialect : Dialect}
    (h : program.dialect? = some dialect) :
    program.analyze.program.names = (resolveProgram program).names
      ∧ undeclared program.analyze.diagnostics = (resolveProgram program).undeclared := by
  rw [Tree.Program.analyze_eq h]
  have hnew : Represents (Env.new dialect).table [] ⟨∅, 0⟩ := represents_new dialect
  have hagrees := agrees_stmts hnew program.stmts
  exact ⟨hagrees.names, hagrees.undeclared⟩

/-- A program that declares `x` again in a block, and twice in the same one. -/
def shadowing : Tree.Program :=
  let loc : Location := ⟨1, 1⟩
  let x : Tree.Ident := ⟨"x", loc⟩
  { version := some ⟨[3], loc⟩
    stmts :=
      [.declare x (.scalar .int) none loc,
        .repeatUntil [.declare x (.scalar .bool) (some (.name x)) loc,
          .declare x (.scalar .bool) none loc, .assign (.name x) (.name ⟨"y", loc⟩) loc]
          (.name x) loc] }

/-- The initial value and the condition stand for the outer `x`, the assignment for the inner one. -/
theorem names_analyze_shadowing :
    shadowing.dialect? = some .v3 ∧ shadowing.analyze.program.names
      = [.node [.ok 0] [.optional none, .optional none],
        .node [] [.node [.ok 0] [], .node [.ok 1] [.optional none, .optional (some (.node [.ok 0] []))],
          .node [.error .alreadyBound] [.optional none, .optional none],
          .node [] [.node [.ok 1] [], .node [.error .missingBinding] []]]] :=
  have hdialect : shadowing.dialect? = some .v3 := rfl
  ⟨hdialect, (names_analyze hdialect).1.trans rfl⟩

end Scoping

end Cqasm
