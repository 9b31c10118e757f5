import Cqasm.Proofs.Analysis.Failures
import Cqasm.Proofs.Typed.Resolved
import Cqasm.Proofs.Typed.Walk

/-!
# What the outcomes of a program do not show

The outcomes that are listed of a program show every name and call that could not be resolved, also
in an index, of which only bounds are left: bounds are constant, so nothing in them fails. One place
is the exception. Nothing but a number is left of the count of a subcircuit, and that number is no
outcome: a program in which everything is resolved may have a failure there, and only there
(`failures_of_isFullyResolved`).

* `Tree.Expr.failures_of_isConst`, `Tree.Expr.failures_of_resolved` : nothing in a constant or resolved
  expression fails;
* `Typed.Stmt.LacksIterations` : the number of iterations of a subcircuit is missing.
-/

namespace Cqasm

open Diagnostics (failures failures_append failures_of_causes)

open Typed (Resolved resolved_cons resolved_append)

/-! ## Calls and indices -/

namespace SymbolTable

variable (table : SymbolTable)

/-- A call that has an overload is no failure. -/
theorem failures_resolveCall {unknown : Cause} {set : Option OverloadSet} {name : String}
    {args : List Ty} {loc : Location}
    (h : (table.resolveCall unknown set name args loc).value.isSome = true) :
    failures (table.resolveCall unknown set name args loc).log = [] := by
  revert h
  unfold resolveCall
  split
  · exact fun _ => rfl
  · exact fun h => absurd h Bool.false_ne_true
  · exact fun h => absurd h Bool.false_ne_true
  · split
    · exact fun h => absurd h Bool.false_ne_true
    · exact fun _ => rfl

theorem failures_resolveInstruction {name : String} {args : List Ty} {loc : Location}
    (h : (table.resolveInstruction name args loc).value.isSome = true) :
    failures (table.resolveInstruction name args loc).log = [] := by
  rw [value_resolveInstruction, ← table.value_resolveCall (.unknownInstruction name) _ _ _ loc] at h
  exact (select_log_resolveInstruction fun _ _ => rfl).trans (table.failures_resolveCall h)

theorem failures_indexType (name : String) (loc : Location) (ty : Ty)
    (entries : List (Option IndexSpan)) :
    failures (table.indexType name loc ty entries).log = [] :=
  failures_of_causes (causes_indexType rfl fun _ _ => rfl)

end SymbolTable

/-- The entries of an index that has a type are constant. -/
theorem all_isSome_of_indexedTy {ty : Ty} {entries : List (Option IndexSpan)}
    (h : indexedTy ty entries ≠ .undefined) : entries.all (·.isSome) = true := by
  by_contra hconst
  exact h (if_neg hconst)

namespace Tree

variable {table : SymbolTable}

theorem failures_typedCall {name : String} {args : List Typed.Expr} {loc : Location}
    (h : (table.resolveFunction name (args.map (·.ty)) loc).value.isSome = true) :
    failures (typedCall table name args loc).log = [] := by
  rw [(typedCall_eq table name args loc).2]
  exact table.failures_resolveCall h

theorem failures_typedAxis (elements : List Typed.Expr) (loc : Location) :
    failures (typedAxis table elements loc).log = [] :=
  failures_of_causes (causes_typedAxis (fun _ => rfl) fun _ _ => rfl)

/-! ## Constant expressions -/

/-- A constant call has an overload. -/
theorem isSome_of_typedCall {name : String} {args : List Typed.Expr} {loc : Location}
    (h : (typedCall table name args loc).value.isConst = true) :
    (table.resolveFunction name (args.map (·.ty)) loc).value.isSome = true := by
  rw [(typedCall_eq table name args loc).1] at h
  exact (Bool.and_eq_true_iff.mp h).1

namespace Expr

mutual

/-- Nothing in a constant expression fails. -/
theorem failures_of_isConst : (e : Expr) → (e.analyze table).value.isConst = true →
    failures (e.analyze table).log = []
  | .literal value loc => fun _ => rfl
  | .name ident => fun hconst => by
    rw [(analyze_name table ident).1] at hconst
    exact absurd hconst Bool.false_ne_true
  | .index target entries loc => fun hconst => by
    rw [(analyze_index table target entries loc).1] at hconst
    exact absurd hconst Bool.false_ne_true
  | .unary op operand loc => fun hconst => by
    rw [(analyze_unary table op operand loc).1] at hconst
    have hargs := all_isConst_of_typedCall hconst
    rw [List.all_cons, List.all_nil, Bool.and_true] at hargs
    rw [(analyze_unary table op operand loc).2, failures_append, failures_of_isConst operand hargs,
      failures_typedCall (isSome_of_typedCall hconst), List.append_nil]
  | .binary op lhs rhs loc => fun hconst => by
    rw [(analyze_binary table op lhs rhs loc).1] at hconst
    have hargs := all_isConst_of_typedCall hconst
    rw [List.all_cons, List.all_cons, List.all_nil, Bool.and_true, Bool.and_eq_true] at hargs
    rw [(analyze_binary table op lhs rhs loc).2, failures_append, failures_append,
      failures_of_isConst lhs hargs.1, failures_of_isConst rhs hargs.2,
      failures_typedCall (isSome_of_typedCall hconst), List.append_nil, List.append_nil]
  | .call function args loc => fun hconst => by
    rw [(analyze_call table function args loc).1] at hconst
    rw [(analyze_call table function args loc).2, failures_append,
      failuresAll_of_isConst args (all_isConst_of_typedCall hconst),
      failures_typedCall (isSome_of_typedCall hconst), List.append_nil]
  | .array elements loc => fun hconst => by
    rw [(analyze_array table elements loc).1] at hconst
    rw [(analyze_array table elements loc).2, failures_append,
      failuresAll_of_isConst elements (all_isConst_of_typedAxis hconst), failures_typedAxis,
      List.append_nil]

theorem failuresAll_of_isConst : (es : List Expr) →
    (analyzeAll table es).value.all (·.isConst) = true → failures (analyzeAll table es).log = []
  | [] => fun _ => rfl
  | e :: es => fun hconst => by
    rw [(analyzeAll_cons table e es).1, List.all_cons, Bool.and_eq_true] at hconst
    rw [(analyzeAll_cons table e es).2, failures_append, failures_of_isConst e hconst.1,
      failuresAll_of_isConst es hconst.2, List.append_nil]

end

theorem failures_of_constInt? {e : Expr} (h : (e.analyze table).value.constInt?.isSome = true) :
    failures (e.analyze table).log = [] := by
  obtain ⟨n, hn⟩ := Option.isSome_iff_exists.mp h
  exact failures_of_isConst e (SymbolTable.ty_of_constInt? hn).2

theorem failures_analyzeEntry (entry : IndexEntry Expr)
    (h : (analyzeEntry table entry).value.isSome = true) :
    failures (analyzeEntry table entry).log = [] := by
  rw [value_analyzeEntry, isSome_span?] at h
  cases entry with
  | item e =>
    have he := List.forall_mem_singleton.mp h
    rw [(analyzeEntry_item table e).2, failures_append, failures_of_constInt? he,
      SymbolTable.failures_constInteger, List.append_nil]
  | range first last =>
    rw [IndexEntry.exprs, List.forall_mem_cons, List.forall_mem_singleton] at h
    rw [(analyzeEntry_range table first last).2, failures_append, failures_append, failures_append,
      failures_of_constInt? h.1, failures_of_constInt? h.2,
      SymbolTable.failures_constInteger, SymbolTable.failures_constInteger, List.append_nil,
      List.append_nil, List.append_nil]

theorem failures_analyzeEntries (entries : List (IndexEntry Expr))
    (h : (analyzeEntries table entries).value.all (·.isSome) = true) :
    failures (analyzeEntries table entries).log = [] := by
  induction entries with
  | nil => rfl
  | cons entry entries ih =>
    rw [(analyzeEntries_cons table entry entries).1, List.all_cons, Bool.and_eq_true] at h
    rw [(analyzeEntries_cons table entry entries).2, failures_append, failures_analyzeEntry entry h.1,
      ih h.2, List.append_nil]

/-! ## Resolved expressions -/

/-- A name that stands for something is no failure. -/
theorem failures_resolveName {name : String} {loc : Location}
    (h : ∃ id, (table.resolveName name loc).value.1 = .ok id) :
    failures (table.resolveName name loc).log = [] := by
  obtain ⟨id, hid⟩ := h
  rcases table.value_resolveName name loc with ⟨record, -, -, hlog⟩ | ⟨error, -, hvalue, -⟩
  · rw [hlog]
    rfl
  · rw [hvalue] at hid
    cases hid

theorem resolved_args_of_typedCall {name : String} {args : List Typed.Expr} {loc : Location}
    (h : Resolved (typedCall table name args loc).value.resolutions) :
    Resolved (Typed.Expr.resolutionsAll args)
      ∧ (table.resolveFunction name (args.map (·.ty)) loc).value.isSome = true := by
  rw [(typedCall_eq table name args loc).1, Typed.Expr.resolutions, resolved_cons, resolved_cons] at h
  exact ⟨h.2.2, h.2.1⟩

mutual

/-- Nothing in a resolved expression fails. -/
theorem failures_of_resolved : (e : Expr) → Resolved (e.analyze table).value.resolutions →
    failures (e.analyze table).log = []
  | .literal value loc => fun _ => rfl
  | .name ident => fun h => by
    rw [(analyze_name table ident).1, Typed.Expr.resolutions, resolved_cons, resolved_cons] at h
    rw [(analyze_name table ident).2, failures_resolveName h.2.1]
  | .index target entries loc => fun h => by
    rw [(analyze_index table target entries loc).1, Typed.Expr.resolutions, resolved_cons,
      resolved_cons, SymbolTable.value_indexType] at h
    rw [(analyze_index table target entries loc).2, failures_append, failures_append,
      failures_resolveName h.2.1, SymbolTable.failures_indexType,
      failures_analyzeEntries entries (all_isSome_of_indexedTy h.1), List.append_nil, List.append_nil]
  | .unary op operand loc => fun h => by
    rw [(analyze_unary table op operand loc).1] at h
    obtain ⟨hargs, hoverload⟩ := resolved_args_of_typedCall h
    rw [Typed.Expr.resolutionsAll, resolved_append] at hargs
    rw [(analyze_unary table op operand loc).2, failures_append,
      failures_of_resolved operand hargs.1, failures_typedCall hoverload, List.append_nil]
  | .binary op lhs rhs loc => fun h => by
    rw [(analyze_binary table op lhs rhs loc).1] at h
    obtain ⟨hargs, hoverload⟩ := resolved_args_of_typedCall h
    rw [Typed.Expr.resolutionsAll, Typed.Expr.resolutionsAll, resolved_append, resolved_append]
      at hargs
    rw [(analyze_binary table op lhs rhs loc).2, failures_append, failures_append,
      failures_of_resolved lhs hargs.1, failures_of_resolved rhs hargs.2.1,
      failures_typedCall hoverload, List.append_nil, List.append_nil]
  | .call function args loc => fun h => by
    rw [(analyze_call table function args loc).1] at h
    obtain ⟨hargs, hoverload⟩ := resolved_args_of_typedCall h
    rw [(analyze_call table function args loc).2, failures_append,
      failuresAll_of_resolved args hargs, failures_typedCall hoverload, List.append_nil]
  | .array elements loc => fun h => by
    rw [(analyze_array table elements loc).1, (typedAxis_eq table _ loc).1, Typed.Expr.resolutions,
      resolved_cons] at h
    rw [(analyze_array table elements loc).2, failures_append,
      failuresAll_of_resolved elements h.2, failures_typedAxis, List.append_nil]

theorem failuresAll_of_resolved : (es : List Expr) →
    Resolved (Typed.Expr.resolutionsAll (analyzeAll table es).value) →
    failures (analyzeAll table es).log = []
  | [] => fun _ => rfl
  | e :: es => fun h => by
    rw [(analyzeAll_cons table e es).1, Typed.Expr.resolutionsAll, resolved_append] at h
    rw [(analyzeAll_cons table e es).2, failures_append, failures_of_resolved e h.1,
      failuresAll_of_resolved es h.2, List.append_nil]

end

end Expr

end Tree

/-! ## Statements -/

/-- It is a subcircuit whose number of iterations is missing. -/
def Typed.Stmt.LacksIterations : Typed.Stmt → Prop
  | .subcircuit _ _ none _ => True
  | _ => False

namespace Site

open Tree.Stmt Analysis

variable {site : Site}

theorem failures_of_mem_queries (h : Resolved site.node.ownResolutions) {query : Query}
    (hquery : query ∈ site.queries) : query.failures = [] := by
  refine Tree.Expr.failures_of_resolved query.expr fun r hr => h r ?_
  have hown : query.typed ∈ site.node.ownExprs := by
    rw [ownExprs_node]
    exact List.mem_map_of_mem hquery
  exact List.mem_append_right _ (List.mem_flatMap.mpr ⟨query.typed, hown, hr⟩)

theorem failures_of_mem_ownInstructions (h : Resolved site.node.ownResolutions)
    {i : Tree.Instruction} (hi : i ∈ site.stmt.ownInstructions) :
    failures (choice site.env i).log = [] := by
  have hown : (analyzeInstruction i site.env).value.1 ∈ site.node.ownCalls := by
    rw [ownCalls_node]
    exact List.mem_map_of_mem hi
  have hmem := List.mem_map_of_mem (f := Typed.GateCall.outcome) hown
  have hsome := h _ (List.mem_append_left _ (List.mem_append_right _ hmem))
  rw [(analyzeInstruction_eq site.env i).1] at hsome
  exact SymbolTable.failures_resolveInstruction _ hsome

theorem stmt_of_mem_counts {query : Query} (h : query ∈ site.counts) :
    ∃ name body loc, site.stmt = .subcircuit name (some query.expr) body loc
      ∧ query.table = site.env.table := by
  obtain ⟨s, env, inLoop⟩ := site
  cases s with
  | subcircuit name iterations body loc =>
    obtain ⟨e, he, rfl⟩ := List.mem_map.mp h
    obtain rfl : iterations = some e := Option.mem_toList.mp he
    exact ⟨name, body, loc, rfl, rfl⟩
  | _ => exact absurd h List.not_mem_nil

/-- If the count of a subcircuit fails, its number of iterations is missing. -/
theorem lacksIterations_of_failures {query : Query} (hquery : query ∈ site.counts)
    (h : query.failures ≠ []) : site.node.LacksIterations := by
  obtain ⟨name, body, loc, hstmt, htable⟩ := stmt_of_mem_counts hquery
  have hnone : (query.expr.analyze site.env.table).value.constInt? = none := by
    rw [← htable]
    by_contra hsome
    exact h (Tree.Expr.failures_of_constInt? (Option.isSome_iff_ne_none.mpr hsome))
  have hvalue : (analyzeIterations (some query.expr)
      (nameSubcircuit name site.env).value.2).value.1 = none := by
    rw [(analyzeIterations_some _ query.expr).1, table_nameSubcircuit,
      SymbolTable.value_iterationCount, hnone]
    rfl
  rw [node, hstmt, (analyze_subcircuit site.env name (some query.expr) body loc).1, hvalue]
  trivial

end Site

/-! ## Programs -/

namespace Tree.Program

variable {program : Program} {dialect : Dialect}

theorem resolved_ownResolutions (h : program.dialect? = some dialect)
    (hresolved : program.analyze.program.isFullyResolved = true) {site : Site}
    (hsite : site ∈ program.sites dialect) : Resolved site.node.ownResolutions := by
  intro r hr
  have hnode : site.node ∈ program.analyze.program.nodes := by
    rw [nodes_eq h]
    exact List.mem_map_of_mem hsite
  refine (Typed.Program.isFullyResolved_iff _).mp hresolved r ?_
  rw [program.analyze.program.perm_resolutions.mem_iff]
  exact List.mem_flatMap.mpr ⟨site.node, hnode, hr⟩

theorem mem_failures_of_isFullyResolved (h : program.dialect? = some dialect)
    (hresolved : program.analyze.program.isFullyResolved = true) {d : Diagnostic} :
    d ∈ program.analyze.diagnostics.failures
      ↔ ∃ site ∈ program.sites dialect, ∃ query ∈ site.counts, d ∈ query.failures := by
  rw [mem_failures_analyze h]
  refine exists_congr fun site => and_congr_right fun hsite => ?_
  have hown := resolved_ownResolutions h hresolved hsite
  constructor
  · rintro (⟨query, hquery, hd⟩ | ⟨i, hi, hd⟩ | hcount)
    · rw [Site.failures_of_mem_queries hown hquery] at hd
      exact absurd hd List.not_mem_nil
    · rw [Site.failures_of_mem_ownInstructions hown hi] at hd
      exact absurd hd List.not_mem_nil
    · exact hcount
  · exact fun hcount => Or.inr (Or.inr hcount)

/-- If no outcome of a program is in error, then what is reported as failed are the failures in counts
of subcircuits whose number of iterations is missing; without such a subcircuit nothing is. -/
theorem failures_of_isFullyResolved (h : program.dialect? = some dialect)
    (hresolved : program.analyze.program.isFullyResolved = true) :
    (∀ d, d ∈ program.analyze.diagnostics.failures ↔ ∃ site ∈ program.sites dialect,
        ∃ name count body loc, site.stmt = .subcircuit name (some count) body loc
          ∧ site.node.LacksIterations ∧ d ∈ failures (count.analyze site.env.table).log)
      ∧ ((∀ node ∈ program.analyze.program.nodes, ¬ node.LacksIterations) →
        program.analyze.diagnostics.failures = []) := by
  have hcounts : ∀ d, d ∈ program.analyze.diagnostics.failures ↔ ∃ site ∈ program.sites dialect,
      ∃ name count body loc, site.stmt = .subcircuit name (some count) body loc
        ∧ site.node.LacksIterations ∧ d ∈ failures (count.analyze site.env.table).log := by
    intro d
    rw [mem_failures_of_isFullyResolved h hresolved]
    refine exists_congr fun site => and_congr_right fun _ => ?_
    constructor
    · rintro ⟨query, hquery, hd⟩
      have hlacks := Site.lacksIterations_of_failures hquery (List.ne_nil_of_mem hd)
      obtain ⟨name, body, loc, hstmt, htable⟩ := Site.stmt_of_mem_counts hquery
      refine ⟨name, query.expr, body, loc, hstmt, hlacks, ?_⟩
      rw [← htable]
      exact hd
    · rintro ⟨name, count, body, loc, hstmt, -, hd⟩
      refine ⟨⟨count, site.env.table⟩, ?_, hd⟩
      unfold Site.counts
      rw [hstmt]
      exact List.mem_singleton_self _
  refine ⟨hcounts, fun hnone => List.eq_nil_iff_forall_not_mem.mpr fun d hd => ?_⟩
  obtain ⟨site, hsite, -, -, -, -, -, hlacks, -⟩ := (hcounts d).mp hd
  refine hnone site.node ?_ hlacks
  rw [nodes_eq h]
  exact List.mem_map_of_mem hsite

/-- `version 3; .s(y)`, where `y` is not declared and the subcircuit has no statements. -/
def uncounted : Program :=
  let loc : Location := ⟨1, 1⟩
  { version := some ⟨[3], loc⟩
    stmts := [.subcircuit ⟨"s", loc⟩ (some (.name ⟨"y", loc⟩)) [] loc] }

theorem failures_of_isFullyResolved_uncounted :
    uncounted.dialect? = some .v3 ∧ uncounted.analyze.program.isFullyResolved = true
      ∧ ∃ site ∈ uncounted.sites .v3, ∃ name count body loc,
        site.stmt = .subcircuit name (some count) body loc ∧ site.node.LacksIterations
          ∧ ⟨.undeclaredIdentifier "y", ⟨1, 1⟩, some .v3⟩
            ∈ failures (count.analyze site.env.table).log := by
  have hdialect : uncounted.dialect? = some .v3 := rfl
  have hresolved : uncounted.analyze.program.isFullyResolved = true := by decide +kernel
  have hfailure : ⟨.undeclaredIdentifier "y", ⟨1, 1⟩, some .v3⟩
      ∈ uncounted.analyze.diagnostics.failures := by decide +kernel
  exact ⟨hdialect, hresolved, ((failures_of_isFullyResolved hdialect hresolved).1 _).mp hfailure⟩

/-- No outcome of the program is in error, and yet a name in it is not declared. -/
theorem exists_failure_of_isFullyResolved :
    uncounted.dialect? = some .v3 ∧ uncounted.analyze.program.isFullyResolved = true
      ∧ uncounted.analyze.diagnostics.map (·.cause) = [.undeclaredIdentifier "y"] :=
  ⟨rfl, by decide +kernel, by decide +kernel⟩

end Tree.Program

end Cqasm
