import Cqasm.Proofs.Analysis.Check
import Cqasm.Proofs.Analysis.Index
import Cqasm.Proofs.Analysis.Site

/-!
# Typed programs are consistent

What a typed program says about a name, a call or an axis can be checked at the node itself, against
the symbol table at the end of the analysis and the built-in overloads of the dialect
(`consistent_analyze`). An expression is typed while the table grows, so consistency is proved with
the table of its own statement (`consistent_expr`) and carried on to every later one
(`Expr.Consistent.mono`).

* `Chosen` : an overload is what resolution gives for a call;
* `Expr.Consistent`, `GateCall.Consistent` : the notes of a node are right.
-/

namespace Cqasm

namespace Typed

/-- The overload is the one that resolution chooses for the call, none if it fails. -/
structure Chosen (rules : Promotions) (set : Option OverloadSet) (name : String) (args : List Ty)
    (overload : Option Overload) : Prop where
  eq : overload = (resolve rules set name args).toOption
  /-- Every argument may be passed for its parameter. -/
  accepts : ∀ o, overload = some o → List.Forall₂ rules.Accepts args o.params

theorem chosen_resolve (rules : Promotions) (set : Option OverloadSet) (name : String)
    (args : List Ty) : Chosen rules set name args (resolve rules set name args).toOption where
  eq := rfl
  accepts _ h := (accepts_of_resolve (resolve_of_toOption h)).2

/-- The reference is to a symbol of type `ty`, or in error if that is undefined. -/
def RefersTo (table : SymbolTable) (symbol : SymbolRef) (ty : Ty) : Prop :=
  match symbol with
  | .ok id => ∃ s, table.symbols[id]? = some s ∧ ty = s.ty
  | .error _ => ty = .undefined

theorem RefersTo.mono {table table' : SymbolTable} {symbol : SymbolRef} {ty : Ty}
    (h : RefersTo table symbol ty) (hgrows : table.Grows table') : RefersTo table' symbol ty := by
  cases symbol with
  | error error => exact h
  | ok id =>
    obtain ⟨s, hget, hty⟩ := h
    exact ⟨s, hgrows.getElem? hget, hty⟩

/-- What the node says about itself agrees with the symbol table and the overloads of the dialect.
An index has the type of as many elements of its target as its ranges select, unless it is in error;
an axis is made of three numbers. -/
def Expr.Consistent (table : SymbolTable) : Expr → Prop
  | literal note value => note.ty = value.ty
  | name note symbol => RefersTo table symbol note.ty
  | index note target ranges =>
    ∃ ty, RefersTo table target ty ∧ (note.ty = .undefined
      ∨ IndexRange.total ranges ≤ IndexRange.maxSize
        ∧ ty.resize? (IndexRange.total ranges) = some note.ty)
  | call note function overload args =>
    Chosen table.dialect.promotions (table.function? function) function (args.map (·.ty)) overload
      ∧ note.ty = (overload.map (·.result)).getD .undefined
  | axis note elements =>
    (note.ty = .axis ↔ elements.length = 3
        ∧ ∀ e ∈ elements, table.dialect.promotions.Accepts e.ty .float)
      ∧ (note.ty ≠ .axis → note.ty = .undefined)

/-- The overload of the instruction is the one that the types of its operands choose. -/
def GateCall.Consistent (table : SymbolTable) (call : GateCall) : Prop :=
  Chosen table.dialect.promotions (table.instruction? call.name) call.name
    (call.operands.map (·.ty)) call.overload

theorem Expr.Consistent.mono {table table' : SymbolTable} {e : Expr} (h : e.Consistent table)
    (hgrows : table.Grows table') : e.Consistent table' := by
  cases e with
  | literal note value => exact h
  | name note symbol => exact RefersTo.mono h hgrows
  | index note target ranges =>
    obtain ⟨ty, htarget, hty⟩ := h
    exact ⟨ty, htarget.mono hgrows, hty⟩
  | call note function overload args =>
    unfold Consistent SymbolTable.function? at h ⊢
    rw [hgrows.dialect]
    exact h
  | axis note elements =>
    unfold Consistent at h ⊢
    rw [hgrows.dialect]
    exact h

theorem GateCall.Consistent.mono {table table' : SymbolTable} {call : GateCall}
    (h : call.Consistent table) (hgrows : table.Grows table') : call.Consistent table' := by
  unfold Consistent SymbolTable.instruction? at h ⊢
  rw [hgrows.dialect]
  exact h

end Typed

open Typed (RefersTo chosen_resolve)

/-! ## Expressions -/

namespace SymbolTable

variable (table : SymbolTable)

theorem refersTo_resolveName (name : String) (loc : Location) :
    RefersTo table (table.resolveName name loc).value.1 (table.resolveName name loc).value.2 := by
  rcases table.value_resolveName name loc with ⟨record, hlookup, hvalue, -⟩ | ⟨error, -, hvalue, -⟩
  · rw [hvalue]
    exact ⟨record.symbol, getElem?_of_lookup table hlookup, rfl⟩
  · rw [hvalue]
    exact rfl

end SymbolTable

namespace Tree

theorem consistent_typedCall (table : SymbolTable) (name : String) (args : List Typed.Expr)
    (loc : Location) : (typedCall table name args loc).value.Consistent table := by
  rw [(typedCall_eq table name args loc).1, table.value_resolveFunction]
  exact ⟨chosen_resolve .., rfl⟩

theorem consistent_typedAxis (table : SymbolTable) (elements : List Typed.Expr) (loc : Location) :
    (typedAxis table elements loc).value.Consistent table := by
  have hvalue : (table.checkConversions .float elements).value = true
      ↔ ∀ e ∈ elements, table.dialect.promotions.Accepts e.ty .float := by
    simp [table.value_checkConversions]
  rw [(typedAxis_eq table elements loc).1]
  by_cases h : elements.length = 3 ∧ (table.checkConversions .float elements).value = true
  · refine ⟨?_, fun hne => absurd (if_pos h) hne⟩
    rw [if_pos h, ← hvalue]
    exact iff_of_true rfl h
  · refine ⟨?_, fun _ => if_neg h⟩
    rw [if_neg h, ← hvalue]
    exact iff_of_false (by simp) h

namespace Expr

variable (table : SymbolTable)

mutual

/-- An expression is consistent with the table it is analysed with, and so are those inside of it. -/
theorem consistent_expr : (e : Expr) →
    ∀ e' ∈ (e.analyze table).value.subexprs, e'.Consistent table
  | .literal value loc => List.forall_mem_singleton.mpr rfl
  | .name ident => by
    rw [(analyze_name table ident).1]
    exact List.forall_mem_singleton.mpr (table.refersTo_resolveName ident.name ident.loc)
  | .index target entries loc => by
    rw [(analyze_index table target entries loc).1, SymbolTable.value_indexType]
    exact List.forall_mem_singleton.mpr ⟨_, table.refersTo_resolveName target.name target.loc,
      indexedTy_cases _ _⟩
  | .unary op operand loc => by
    rw [(analyze_unary table op operand loc).1]
    refine List.forall_mem_cons.mpr ⟨consistent_typedCall table _ _ loc, fun e' hmem => ?_⟩
    rw [Typed.Expr.subexprsAll, Typed.Expr.subexprsAll, List.append_nil] at hmem
    exact consistent_expr operand e' hmem
  | .binary op lhs rhs loc => by
    rw [(analyze_binary table op lhs rhs loc).1]
    refine List.forall_mem_cons.mpr ⟨consistent_typedCall table _ _ loc, fun e' hmem => ?_⟩
    rw [Typed.Expr.subexprsAll, Typed.Expr.subexprsAll, Typed.Expr.subexprsAll, List.append_nil]
      at hmem
    rcases List.mem_append.mp hmem with hmem | hmem
    · exact consistent_expr lhs e' hmem
    · exact consistent_expr rhs e' hmem
  | .call function args loc => by
    rw [(analyze_call table function args loc).1]
    exact List.forall_mem_cons.mpr ⟨consistent_typedCall table _ _ loc, consistent_exprs args⟩
  | .array elements loc => by
    rw [(analyze_array table elements loc).1]
    exact List.forall_mem_cons.mpr ⟨consistent_typedAxis table _ loc, consistent_exprs elements⟩

theorem consistent_exprs : (es : List Expr) →
    ∀ e' ∈ Typed.Expr.subexprsAll (analyzeAll table es).value, e'.Consistent table
  | [] => fun _ hmem => absurd hmem List.not_mem_nil
  | e :: es => by
    rw [(analyzeAll_cons table e es).1, Typed.Expr.subexprsAll]
    intro e' hmem
    rcases List.mem_append.mp hmem with hmem | hmem
    · exact consistent_expr e e' hmem
    · exact consistent_exprs es e' hmem

end

end Expr

/-! ## Statements -/

namespace Stmt

open Analysis

variable {env : Env}

theorem chosen_analyzeInstruction (i : Instruction) :
    (analyzeInstruction i env).value.1.Consistent env.table := by
  rw [(analyzeInstruction_eq env i).1, SymbolTable.value_resolveInstruction]
  exact chosen_resolve ..

theorem mem_analyzeInstructions {is : List Instruction} {call : Typed.GateCall}
    (h : call ∈ (analyzeInstructions is env).value.1) :
    ∃ i ∈ is, call = (analyzeInstruction i env).value.1 := by
  induction is with
  | nil => exact absurd h List.not_mem_nil
  | cons i is ih =>
    rw [(analyzeInstructions_cons env i is).1] at h
    rcases List.mem_cons.mp h with rfl | h
    · exact ⟨i, List.mem_cons_self, rfl⟩
    · obtain ⟨j, hj, hcall⟩ := ih h
      exact ⟨j, List.mem_cons_of_mem i hj, hcall⟩

/-- Instructions change no environment, so those of a statement are analysed in the one in front. -/
theorem mem_ownCalls {s : Stmt} {call : Typed.GateCall}
    (h : call ∈ (s.analyze env).value.1.ownCalls) :
    ∃ i, call = (analyzeInstruction i env).value.1 := by
  cases s with
  | instruction i =>
    rw [(analyze_instruction env i).1] at h
    exact ⟨i, List.mem_singleton.mp h⟩
  | bundle is loc =>
    rw [(analyze_bundle env is loc).1] at h
    obtain ⟨i, -, hcall⟩ := mem_analyzeInstructions h
    exact ⟨i, hcall⟩
  | _ =>
    rw [analyze] at h
    exact absurd h List.not_mem_nil

/-- The expression was analysed with the table or with an earlier one. -/
def TypedIn (table : SymbolTable) (e' : Typed.Expr) : Prop :=
  ∃ (e : Expr) (earlier : SymbolTable), earlier.Grows table ∧ e' = (e.analyze earlier).value

theorem TypedIn.consistent {table : SymbolTable} {own e : Typed.Expr} (h : TypedIn table own)
    (hmem : e ∈ own.subexprs) : e.Consistent table := by
  obtain ⟨written, earlier, hgrows, rfl⟩ := h
  exact (Expr.consistent_expr earlier written e hmem).mono hgrows

theorem TypedIn.mono {table table' : SymbolTable} {e' : Typed.Expr} (h : TypedIn table e')
    (hgrows : table.Grows table') : TypedIn table' e' := by
  obtain ⟨written, earlier, hearlier, heq⟩ := h
  exact ⟨written, earlier, hearlier.trans hgrows, heq⟩

theorem typedIn_analyzeAll {table earlier : SymbolTable} (hgrows : earlier.Grows table)
    {es : List Expr} {e' : Typed.Expr} (h : e' ∈ (Expr.analyzeAll earlier es).value) :
    TypedIn table e' := by
  rw [Expr.analyzeAll_eq_map] at h
  obtain ⟨e, -, rfl⟩ := List.mem_map.mp h
  exact ⟨e, earlier, hgrows, rfl⟩

theorem typedIn_analyzeType {table : SymbolTable} (hgrows : env.table.Grows table)
    {type : TypeSpec} {e' : Typed.Expr} (h : e' ∈ (analyzeType type env).value.1.1.toList) :
    TypedIn table e' := by
  cases type with
  | scalar kind => exact absurd h List.not_mem_nil
  | register kind size =>
    cases size with
    | none => exact absurd h List.not_mem_nil
    | some size => exact ⟨size, env.table, hgrows, List.mem_singleton.mp h⟩

theorem typedIn_analyzeInit {table : SymbolTable} (hgrows : env.table.Grows table) {ty : Ty}
    {init : Option Expr} {e' : Typed.Expr} (h : e' ∈ (analyzeInit ty init env).value.1.toList) :
    TypedIn table e' := by
  cases init with
  | none => exact absurd h List.not_mem_nil
  | some e => exact ⟨e, env.table, hgrows, List.mem_singleton.mp h⟩

theorem typedIn_analyzeInstruction {table : SymbolTable} (hgrows : env.table.Grows table)
    {i : Instruction} {e' : Typed.Expr}
    (h : e' ∈ (analyzeInstruction i env).value.1.operands
      ++ (analyzeInstruction i env).value.1.condition.toList) : TypedIn table e' := by
  rw [(analyzeInstruction_eq env i).1] at h
  rcases List.mem_append.mp h with h | h
  · exact typedIn_analyzeAll hgrows h
  · cases hcond : i.condition with
    | none =>
      rw [hcond] at h
      exact absurd h List.not_mem_nil
    | some e =>
      rw [hcond] at h
      exact ⟨e, env.table, hgrows, List.mem_singleton.mp h⟩

theorem typedIn_analyzeBranches {branches : List (Expr × List Stmt)} {e' : Typed.Expr}
    (h : e' ∈ (analyzeBranches branches env).value.1.map (·.1)) :
    TypedIn (analyzeBranches branches env).value.2.table e' := by
  induction branches generalizing env with
  | nil => exact absurd h List.not_mem_nil
  | cons branch branches ih =>
    obtain ⟨cond, body⟩ := branch
    have hgrows := stable_grows.analyzeBranches ((cond, body) :: branches) env
    rw [(analyzeBranches_cons env cond body branches).1] at h hgrows ⊢
    rcases List.mem_cons.mp h with rfl | h
    · exact ⟨cond, env.table, hgrows, rfl⟩
    · exact ih h

/-- All expressions of the statement itself stand in front of its blocks, if it has any. -/
def OpensWithExprs : Stmt → Prop
  | ifElse _ _ _ | repeatUntil _ _ _ => False
  | _ => True

theorem typedIn_front {s : Stmt} (hs : s.OpensWithExprs) (env : Env) :
    ∀ e' ∈ (s.analyze env).value.1.ownExprs, TypedIn env.table e' := by
  intro e' h
  cases s with
  | qubits size loc =>
    rw [(analyze_qubits env size loc).1] at h
    exact ⟨size, env.table, .refl _, List.mem_singleton.mp h⟩
  | declare name type init loc =>
    rw [(analyze_declare env name type init loc).1] at h
    rcases List.mem_append.mp h with h | h
    · exact typedIn_analyzeType (.refl _) h
    · exact typedIn_analyzeInit (.refl _) h
  | map target name loc =>
    rw [(analyze_map env target name loc).1] at h
    exact ⟨target, env.table, .refl _, List.mem_singleton.mp h⟩
  | instruction i =>
    rw [(analyze_instruction env i).1] at h
    exact typedIn_analyzeInstruction (.refl _) h
  | bundle is loc =>
    rw [(analyze_bundle env is loc).1] at h
    obtain ⟨call, hcall, h⟩ := List.mem_flatMap.mp h
    obtain ⟨i, -, rfl⟩ := mem_analyzeInstructions hcall
    exact typedIn_analyzeInstruction (.refl _) h
  | subcircuit name iterations body loc =>
    rw [(analyze_subcircuit env name iterations body loc).1] at h
    exact absurd h List.not_mem_nil
  | assign lhs rhs loc =>
    rw [(analyze_assign env lhs rhs loc).1] at h
    rcases List.mem_cons.mp h with h | h
    · exact ⟨lhs, env.table, .refl _, h⟩
    · exact ⟨rhs, env.table, .refl _, List.mem_singleton.mp h⟩
  | ifElse branches otherwise loc => exact hs.elim
  | whileLoop cond body loc =>
    rw [(analyze_whileLoop env cond body loc).1] at h
    exact ⟨cond, env.table, .refl _, List.mem_singleton.mp h⟩
  | repeatUntil body cond loc => exact hs.elim
  | foreach name first last body loc =>
    rw [(analyze_foreach env name first last body loc).1] at h
    rcases List.mem_cons.mp h with h | h
    · exact ⟨first, env.table, .refl _, h⟩
    · exact ⟨last, env.table, .refl _, List.mem_singleton.mp h⟩
  | loopControl control loc =>
    rw [(analyze_loopControl env control loc).1] at h
    exact absurd h List.not_mem_nil

/-- The expressions of a statement are analysed in front of it, or else between its blocks. -/
theorem typedIn_ownExprs (s : Stmt) (env : Env) :
    ∀ e' ∈ (s.analyze env).value.1.ownExprs, TypedIn (s.analyze env).value.2.table e' := by
  have hgrows := stable_grows.analyze s env
  intro e' h
  cases s with
  | ifElse branches otherwise loc =>
    rw [(analyze_ifElse env branches otherwise loc).1] at h ⊢
    exact (typedIn_analyzeBranches h).mono (stable_grows.analyzeOtherwise otherwise _)
  | repeatUntil body cond loc =>
    rw [(analyze_repeatUntil env body cond loc).1] at h ⊢
    exact ⟨cond, _, .refl _, List.mem_singleton.mp h⟩
  | _ => exact (typedIn_front (by exact trivial) env e' h).mono hgrows

end Stmt

namespace Program

variable {program : Program} {dialect : Dialect}

/-- Every expression and every instruction of the typed program, at any depth and whatever errors the
program contains, is consistent with the symbol table at the end and the overloads of the dialect. -/
theorem consistent_analyze (h : program.dialect? = some dialect) :
    ∃ table, program.analyze.table = some table ∧ table.dialect = dialect
      ∧ (∀ e ∈ program.analyze.program.exprs, e.Consistent table)
      ∧ ∀ call ∈ program.analyze.program.gateCalls, call.Consistent table := by
  refine ⟨program.finalTable dialect, table_analyze h, dialect_finalTable dialect program, ?_, ?_⟩
  · intro e he
    rw [Typed.Program.exprs, nodes_eq h, List.mem_flatMap] at he
    obtain ⟨node, hnode, he⟩ := he
    obtain ⟨site, hsite, rfl⟩ := List.mem_map.mp hnode
    obtain ⟨own, hown, he⟩ := List.mem_flatMap.mp he
    have htyped := Stmt.typedIn_ownExprs site.stmt site.env own hown
    exact (htyped.consistent he).mono (placed_of_mem_sites hsite).grows
  · intro call hcall
    rw [Typed.Program.gateCalls, nodes_eq h, List.mem_flatMap] at hcall
    obtain ⟨node, hnode, hcall⟩ := hcall
    obtain ⟨site, hsite, rfl⟩ := List.mem_map.mp hnode
    obtain ⟨i, rfl⟩ := Stmt.mem_ownCalls hcall
    have hgrows := stable_grows.analyze site.stmt site.env
    exact (Stmt.chosen_analyzeInstruction i).mono
      (hgrows.trans (placed_of_mem_sites hsite).grows)

/-- `qubits 2; Rx q[0], 1 + x`, where `x` is not declared. -/
def rotation : Program :=
  let loc : Location := ⟨1, 1⟩
  { version := some ⟨[3], loc⟩
    stmts :=
      [.qubits (.int loc 2) loc,
        .instruction ⟨⟨"Rx", loc⟩, none,
          [.items loc "q" [0], .binary .add (.int loc 1) (.name ⟨"x", loc⟩) loc], loc⟩] }

/-- The sum takes the overload for two integers, although its second argument has no type, and the
integer that it gives is promoted where the rotation takes an angle. -/
theorem consistent_analyze_rotation :
    let loc : Location := ⟨1, 1⟩
    let sum : Typed.Expr := .call ⟨.int, false, loc⟩ "operator+"
      (some ⟨"operator+", [.int, .int], .int, "op_add_ii", none⟩)
      [.literal ⟨.int, true, loc⟩ (.int 1), .name ⟨.undefined, false, loc⟩ (.error .missingBinding)]
    let call : Typed.GateCall :=
      { name := "Rx"
        overload := some ⟨"Rx", [.qubit 1, .float], .void, "Rx_Qf", none⟩
        condition := none
        operands := [.index ⟨.qubit 1, false, loc⟩ (.ok 0) [⟨0, 0⟩], sum] }
    rotation.dialect? = some .v3 ∧ sum ∈ rotation.analyze.program.exprs
      ∧ call ∈ rotation.analyze.program.gateCalls
      ∧ ∃ table, rotation.analyze.table = some table ∧ sum.Consistent table
        ∧ call.Consistent table := by
  intro loc sum call
  have hdialect : rotation.dialect? = some .v3 := rfl
  have hsum : sum ∈ rotation.analyze.program.exprs := List.mem_of_getElem? (i := 2) rfl
  have hcall : call ∈ rotation.analyze.program.gateCalls := List.mem_of_getElem? (i := 0) rfl
  obtain ⟨table, htable, -, hexprs, hcalls⟩ := consistent_analyze hdialect
  exact ⟨hdialect, hsum, hcall, table, htable, hexprs sum hsum, hcalls call hcall⟩

end Program

end Tree

end Cqasm
