import Cqasm.Analysis.Expr

/-!
# The analysis of each kind of expression

For each kind of expression, what its analysis gives: the typed expression and the diagnostics, in
terms of the analysis of its parts. Later proofs rewrite with these and do not open the analysis
itself.
-/

namespace Cqasm

namespace Logged

variable {α β : Type}

@[simp] theorem value_map (f : α → β) (x : Logged α) : (f <$> x).value = f x.value := rfl

@[simp] theorem log_map (f : α → β) (x : Logged α) : (f <$> x).log = x.log := by
  show x.log ++ [] = x.log
  rw [List.append_nil]

end Logged

namespace Tree

variable (table : SymbolTable)

theorem typedCall_eq (name : String) (args : List Typed.Expr) (loc : Location) :
    let overload := table.resolveFunction name (args.map (·.ty)) loc
    (typedCall table name args loc).value
        = .call ⟨(overload.value.map (·.result)).getD .undefined,
          overload.value.isSome && args.all (·.isConst), loc⟩ name overload.value args
      ∧ (typedCall table name args loc).log = overload.log := by
  simp [typedCall]

theorem typedAxis_eq (elements : List Typed.Expr) (loc : Location) :
    let convertible := table.checkConversions .float elements
    (typedAxis table elements loc).value
        = .axis ⟨if elements.length = 3 ∧ convertible.value then .axis else .undefined,
          elements.all (·.isConst), loc⟩ elements
      ∧ (typedAxis table elements loc).log
        = (checkAxisSize table elements.length loc).log ++ convertible.log := by
  simp [typedAxis]

namespace Expr

theorem analyze_name (ident : Ident) :
    let symbol := table.resolveName ident.name ident.loc
    ((name ident).analyze table).value
        = .name ⟨symbol.value.2, false, ident.loc⟩ symbol.value.1
      ∧ ((name ident).analyze table).log = symbol.log := by
  rw [analyze]
  simp

theorem analyze_index (target : Ident) (entries : List (IndexEntry Expr)) (loc : Location) :
    let symbol := table.resolveName target.name target.loc
    let spans := analyzeEntries table entries
    let ty := table.indexType target.name target.loc symbol.value.2 spans.value
    ((index target entries loc).analyze table).value
        = .index ⟨ty.value, false, loc⟩ symbol.value.1 ((spans.value.filterMap id).map (·.range))
      ∧ ((index target entries loc).analyze table).log = symbol.log ++ spans.log ++ ty.log := by
  intro symbol spans ty
  rw [analyze]
  simp [symbol, spans, ty, List.append_assoc]

theorem analyze_unary (op : UnaryOp) (operand : Expr) (loc : Location) :
    let call := typedCall table op.functionName [(operand.analyze table).value] loc
    ((unary op operand loc).analyze table).value = call.value
      ∧ ((unary op operand loc).analyze table).log = (operand.analyze table).log ++ call.log := by
  rw [analyze]
  simp

theorem analyze_binary (op : BinaryOp) (lhs rhs : Expr) (loc : Location) :
    let call :=
      typedCall table op.functionName [(lhs.analyze table).value, (rhs.analyze table).value] loc
    ((binary op lhs rhs loc).analyze table).value = call.value
      ∧ ((binary op lhs rhs loc).analyze table).log
        = (lhs.analyze table).log ++ (rhs.analyze table).log ++ call.log := by
  intro call
  rw [analyze]
  simp [call, List.append_assoc]

theorem analyze_call (function : Ident) (args : List Expr) (loc : Location) :
    let typed := typedCall table function.name (analyzeAll table args).value loc
    ((call function args loc).analyze table).value = typed.value
      ∧ ((call function args loc).analyze table).log
        = (analyzeAll table args).log ++ typed.log := by
  rw [analyze]
  simp

theorem analyze_array (elements : List Expr) (loc : Location) :
    let axis := typedAxis table (analyzeAll table elements).value loc
    ((array elements loc).analyze table).value = axis.value
      ∧ ((array elements loc).analyze table).log = (analyzeAll table elements).log ++ axis.log := by
  rw [analyze]
  simp

theorem analyzeAll_cons (e : Expr) (es : List Expr) :
    (analyzeAll table (e :: es)).value = (e.analyze table).value :: (analyzeAll table es).value
      ∧ (analyzeAll table (e :: es)).log
        = (e.analyze table).log ++ (analyzeAll table es).log := by
  rw [analyzeAll]
  simp

theorem analyzeAll_eq_map (es : List Expr) :
    (analyzeAll table es).value = es.map fun e => (e.analyze table).value := by
  induction es with
  | nil => rfl
  | cons e es ih => rw [(analyzeAll_cons table e es).1, ih, List.map_cons]

theorem analyzeEntry_item (e : Expr) :
    let n := table.constInteger (e.analyze table).value
    let loc := (e.analyze table).value.loc
    (analyzeEntry table (.item e)).value = n.value.map (fun n => ⟨⟨n, loc⟩, ⟨n, loc⟩⟩)
      ∧ (analyzeEntry table (.item e)).log = (e.analyze table).log ++ n.log := by
  rw [analyzeEntry]
  simp

theorem analyzeEntry_range (first last : Expr) :
    let lower := table.constInteger (first.analyze table).value
    let upper := table.constInteger (last.analyze table).value
    (analyzeEntry table (.range first last)).value = lower.value.bind (fun m =>
        upper.value.map fun n =>
          ⟨⟨m, (first.analyze table).value.loc⟩, ⟨n, (last.analyze table).value.loc⟩⟩)
      ∧ (analyzeEntry table (.range first last)).log
        = (first.analyze table).log ++ (last.analyze table).log ++ lower.log ++ upper.log := by
  intro lower upper
  rw [analyzeEntry]
  simp [lower, upper, List.append_assoc]

theorem analyzeEntries_cons (entry : IndexEntry Expr) (entries : List (IndexEntry Expr)) :
    (analyzeEntries table (entry :: entries)).value
        = (analyzeEntry table entry).value :: (analyzeEntries table entries).value
      ∧ (analyzeEntries table (entry :: entries)).log
        = (analyzeEntry table entry).log ++ (analyzeEntries table entries).log := by
  rw [analyzeEntries]
  simp

theorem analyzeEntries_eq_map (entries : List (IndexEntry Expr)) :
    (analyzeEntries table entries).value
      = entries.map fun entry => (analyzeEntry table entry).value := by
  induction entries with
  | nil => rfl
  | cons entry entries ih => rw [(analyzeEntries_cons table entry entries).1, ih, List.map_cons]

/-- A typed expression stands where the expression does. -/
theorem loc_analyze (e : Expr) : (e.analyze table).value.loc = e.loc := by
  cases e with
  | literal value loc =>
    rw [analyze]
    rfl
  | name ident =>
    rw [(analyze_name table ident).1]
    rfl
  | index target entries loc =>
    rw [(analyze_index table target entries loc).1]
    rfl
  | unary op operand loc =>
    rw [(analyze_unary table op operand loc).1, (typedCall_eq table _ _ loc).1]
    rfl
  | binary op lhs rhs loc =>
    rw [(analyze_binary table op lhs rhs loc).1, (typedCall_eq table _ _ loc).1]
    rfl
  | call function args loc =>
    rw [(analyze_call table function args loc).1, (typedCall_eq table _ _ loc).1]
    rfl
  | array elements loc =>
    rw [(analyze_array table elements loc).1, (typedAxis_eq table _ loc).1]
    rfl

end Expr

end Tree

end Cqasm
