import Cqasm.Proofs.Analysis.Check

/-!
# Constant expressions

An expression that is found to be constant refers to no names and selects no elements of a register,
so it is the same in every symbol table of the dialect (`analyze_eq_of_isConst`). Its value therefore
belongs to the written expression alone (`Tree.Expr.constant?`).
-/

namespace Cqasm.Tree

variable {table table' : SymbolTable}

theorem typedCall_congr (h : table'.dialect = table.dialect) (name : String)
    (args : List Typed.Expr) (loc : Location) :
    (typedCall table' name args loc).value = (typedCall table name args loc).value := by
  rw [(typedCall_eq table' name args loc).1, (typedCall_eq table name args loc).1,
    SymbolTable.value_resolveFunction, SymbolTable.value_resolveFunction, SymbolTable.function?,
    SymbolTable.function?, h]

theorem typedAxis_congr (h : table'.dialect = table.dialect) (elements : List Typed.Expr)
    (loc : Location) :
    (typedAxis table' elements loc).value = (typedAxis table elements loc).value := by
  have hvalue : (table'.checkConversions .float elements).value
      = (table.checkConversions .float elements).value := by
    rw [Bool.eq_iff_iff, SymbolTable.value_checkConversions, SymbolTable.value_checkConversions, h]
  rw [(typedAxis_eq table' elements loc).1, (typedAxis_eq table elements loc).1, hvalue]

/-- The arguments of a constant call are constant. -/
theorem all_isConst_of_typedCall {name : String} {args : List Typed.Expr} {loc : Location}
    (h : (typedCall table name args loc).value.isConst = true) :
    args.all (·.isConst) = true := by
  rw [(typedCall_eq table name args loc).1] at h
  exact (Bool.and_eq_true_iff.mp h).2

theorem all_isConst_of_typedAxis {elements : List Typed.Expr} {loc : Location}
    (h : (typedAxis table elements loc).value.isConst = true) :
    elements.all (·.isConst) = true := by
  rw [(typedAxis_eq table elements loc).1] at h
  exact h

namespace Expr

mutual

/-- A constant expression is the same in every symbol table of the dialect. -/
theorem analyze_eq_of_isConst (h : table'.dialect = table.dialect) : (e : Expr) →
    (e.analyze table).value.isConst = true → (e.analyze table').value = (e.analyze table).value
  | .literal value loc => fun _ => rfl
  | .name ident => fun hconst => by
    rw [(analyze_name table ident).1] at hconst
    exact absurd hconst Bool.false_ne_true
  | .index target entries loc => fun hconst => by
    rw [(analyze_index table target entries loc).1] at hconst
    exact absurd hconst Bool.false_ne_true
  | .unary op operand loc => fun hconst => by
    rw [(analyze_unary table op operand loc).1] at hconst ⊢
    have hargs := all_isConst_of_typedCall hconst
    rw [List.all_cons, List.all_nil, Bool.and_true] at hargs
    rw [(analyze_unary table' op operand loc).1, analyze_eq_of_isConst h operand hargs,
      typedCall_congr h]
  | .binary op lhs rhs loc => fun hconst => by
    rw [(analyze_binary table op lhs rhs loc).1] at hconst ⊢
    have hargs := all_isConst_of_typedCall hconst
    rw [List.all_cons, List.all_cons, List.all_nil, Bool.and_true, Bool.and_eq_true] at hargs
    rw [(analyze_binary table' op lhs rhs loc).1, analyze_eq_of_isConst h lhs hargs.1,
      analyze_eq_of_isConst h rhs hargs.2, typedCall_congr h]
  | .call function args loc => fun hconst => by
    rw [(analyze_call table function args loc).1] at hconst ⊢
    have hargs := all_isConst_of_typedCall hconst
    rw [(analyze_call table' function args loc).1, analyzeAll_eq_of_isConst h args hargs,
      typedCall_congr h]
  | .array elements loc => fun hconst => by
    rw [(analyze_array table elements loc).1] at hconst ⊢
    have helements := all_isConst_of_typedAxis hconst
    rw [(analyze_array table' elements loc).1, analyzeAll_eq_of_isConst h elements helements,
      typedAxis_congr h]

theorem analyzeAll_eq_of_isConst (h : table'.dialect = table.dialect) : (es : List Expr) →
    (analyzeAll table es).value.all (·.isConst) = true →
    (analyzeAll table' es).value = (analyzeAll table es).value
  | [] => fun _ => rfl
  | e :: es => fun hconst => by
    rw [(analyzeAll_cons table e es).1] at hconst ⊢
    rw [List.all_cons, Bool.and_eq_true] at hconst
    rw [(analyzeAll_cons table' e es).1, analyze_eq_of_isConst h e hconst.1,
      analyzeAll_eq_of_isConst h es hconst.2]

end

/-- The value of a constant integer expression. -/
def constant? (dialect : Dialect) (e : Expr) : Option Int64 :=
  (e.analyze (.new dialect)).value.constInt?

/-- The value of a constant expression does not depend on the names in scope. -/
theorem constInt?_analyze (table : SymbolTable) (e : Expr) :
    (e.analyze table).value.constInt? = e.constant? table.dialect := by
  have hdialect : (SymbolTable.new table.dialect).dialect = table.dialect := rfl
  unfold constant?
  cases hvalue : (e.analyze table).value.constInt? with
  | some n =>
    rw [analyze_eq_of_isConst hdialect e (SymbolTable.ty_of_constInt? hvalue).2, hvalue]
  | none =>
    cases hvalue' : (e.analyze (.new table.dialect)).value.constInt? with
    | none => rfl
    | some n =>
      rw [analyze_eq_of_isConst hdialect.symm e (SymbolTable.ty_of_constInt? hvalue').2,
        hvalue'] at hvalue
      cases hvalue

end Expr

end Cqasm.Tree
