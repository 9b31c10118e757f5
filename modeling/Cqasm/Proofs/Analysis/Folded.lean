import Cqasm.Proofs.Analysis.Check
import Cqasm.Proofs.Dialect.Tables
import Cqasm.Proofs.Scoping.Resolver

/-!
# Folding is exact

The value of a constant integer is that of the expression in the integers, computed operator by
operator from the literals, as long as every result on the way is in the range of 64 bits
(`constInt?_analyze_exact`). Whether an operator is folded is told by the overload it resolves to.
An operator of which an operand has no value has none, and if all of them have values they are of type
`int`, so the overload is the same in every context (`folding?_unary`, `folding?_binary`).

* `Tree.Expr.integer?` : the value in the integers;
* `Tree.Expr.CallFree` : no function is called in the expression.
-/

namespace Cqasm

open Typed (Folding word?)

/-! ## The range of 64 bits -/

/-- The integer, if it is in the range of 64 bits. -/
def inRange? (n : Int) : Option Int := if -2 ^ 63 ≤ n ∧ n ≤ 2 ^ 63 - 1 then some n else none

theorem toInt_word? (n : Int) : (word? n).map Int64.toInt = inRange? n := by
  unfold word? inRange?
  rw [Int64.toInt_minValue, Int64.toInt_maxValue]
  by_cases h : -2 ^ 63 ≤ n ∧ n ≤ 2 ^ 63 - 1
  · rw [if_pos h, if_pos h, Option.map_some, Int64.toInt_ofInt_of_le h.1 (by omega)]
  · rw [if_neg h, if_neg h]
    rfl

/-! ## Expressions in the integers -/

namespace Tree

namespace UnaryOp

/-- All operators with one operand. -/
def all : List UnaryOp := [neg, not, bitNot]

theorem mem_all (op : UnaryOp) : op ∈ all := by cases op <;> decide

/-- The operation of the operator, if it is folded. -/
def folding? : UnaryOp → Option Folding
  | neg => some .neg
  | _ => none

end UnaryOp

namespace BinaryOp

/-- All operators with two operands. -/
def all : List BinaryOp :=
  [add, sub, mul, div, mod, pow, eq, ne, lt, le, gt, ge, logicalAnd, logicalOr, logicalXor, bitAnd,
    bitOr, bitXor, shl, shr]

theorem mem_all (op : BinaryOp) : op ∈ all := by cases op <;> decide

/-- The operation of the operator, if it is folded. -/
def folding? : BinaryOp → Option Folding
  | add => some .add
  | sub => some .sub
  | mul => some .mul
  | _ => none

end BinaryOp

namespace Expr

/-- The value of an expression in the integers: that of a literal, of a negation, of a sum, of a
difference or of a product, if the operands have values and the result is in range. Nothing else has
a value. -/
@[simp] def integer? : Expr → Option Int
  | literal (.int n) _ => some n.toInt
  | unary .neg x _ => do inRange? (-(← integer? x))
  | binary .add x y _ => do inRange? ((← integer? x) + (← integer? y))
  | binary .sub x y _ => do inRange? ((← integer? x) - (← integer? y))
  | binary .mul x y _ => do inRange? ((← integer? x) * (← integer? y))
  | _ => none

/-- No function is called in the expression, unless it is within an index or an array. -/
def CallFree : Expr → Prop
  | unary _ x _ => x.CallFree
  | binary _ x y _ => x.CallFree ∧ y.CallFree
  | call _ _ _ => False
  | _ => True

end Expr

end Tree

/-! ## Overloads that are folded -/

/-- The operation on integers that an overload performs, if it is folded. -/
def Overload.folding? (o : Overload) : Option Folding :=
  if o.result = .int then Folding.ofTag? o.tag else none

namespace Dialect

/-- The operation that a call with arguments of the given types performs, if it is folded. -/
def folding? (dialect : Dialect) (name : String) (args : List Ty) : Option Folding :=
  (resolve dialect.promotions (dialect.functions.get? name) name args).toOption.bind
    Overload.folding?

theorem folding?_unary (dialect : Dialect) (op : Tree.UnaryOp) :
    dialect.folding? op.functionName [.int] = op.folding? := by
  have hall : ∀ op ∈ Tree.UnaryOp.all,
      dialect.folding? op.functionName [.int] = op.folding? := by
    cases dialect with
    | v1 =>
      simp only [folding?, functions_v1]
      decide +kernel
    | v3 => decide +kernel
  exact hall op op.mem_all

theorem folding?_binary (dialect : Dialect) (op : Tree.BinaryOp) :
    dialect.folding? op.functionName [.int, .int] = op.folding? := by
  have hall : ∀ op ∈ Tree.BinaryOp.all,
      dialect.folding? op.functionName [.int, .int] = op.folding? := by
    cases dialect with
    | v1 =>
      simp only [folding?, functions_v1]
      decide +kernel
    | v3 => decide +kernel
  exact hall op op.mem_all

end Dialect

/-! ## Calls -/

namespace Tree

variable (table : SymbolTable) (name : String) (loc : Location) {x y : Typed.Expr} {m n : Int64}

theorem constInt?_typedCall_one (hx : x.constInt? = some m) :
    (typedCall table name [x] loc).value.constInt?
      = (table.dialect.folding? name [.int]).bind (·.apply₁? m) := by
  obtain ⟨hty, hconst⟩ := SymbolTable.ty_of_constInt? hx
  rw [(typedCall_eq table name [x] loc).1, SymbolTable.value_resolveFunction, List.map_singleton,
    hty, SymbolTable.function?, Dialect.folding?]
  cases (resolve table.dialect.promotions (table.dialect.functions.get? name) name
    [.int]).toOption with
  | none => simp [Typed.Expr.constInt?]
  | some o =>
    by_cases hint : o.result = .int
    · simp [Typed.Expr.constInt?, Overload.folding?, hconst, hx, hint]
    · simp [Typed.Expr.constInt?, Overload.folding?, hint]

theorem constInt?_typedCall_two (hx : x.constInt? = some m) (hy : y.constInt? = some n) :
    (typedCall table name [x, y] loc).value.constInt?
      = (table.dialect.folding? name [.int, .int]).bind (·.apply₂? m n) := by
  obtain ⟨hxty, hxconst⟩ := SymbolTable.ty_of_constInt? hx
  obtain ⟨hyty, hyconst⟩ := SymbolTable.ty_of_constInt? hy
  rw [(typedCall_eq table name [x, y] loc).1, SymbolTable.value_resolveFunction, List.map_cons,
    List.map_singleton, hxty, hyty, SymbolTable.function?, Dialect.folding?]
  cases (resolve table.dialect.promotions (table.dialect.functions.get? name) name
    [.int, .int]).toOption with
  | none => simp [Typed.Expr.constInt?]
  | some o =>
    by_cases hint : o.result = .int
    · simp [Typed.Expr.constInt?, Overload.folding?, hxconst, hyconst, hx, hy, hint]
    · simp [Typed.Expr.constInt?, Overload.folding?, hint]

/-- A call has no value if one of its arguments has none, whatever overload it resolves to. -/
theorem constInt?_typedCall_of_one (hx : x.constInt? = none) :
    (typedCall table name [x] loc).value.constInt? = none := by
  rw [(typedCall_eq table name [x] loc).1]
  simp [Typed.Expr.constInt?, hx]

theorem constInt?_typedCall_of_two (h : x.constInt? = none ∨ y.constInt? = none) :
    (typedCall table name [x, y] loc).value.constInt? = none := by
  rw [(typedCall_eq table name [x, y] loc).1]
  rcases h with hx | hy
  · simp [Typed.Expr.constInt?, hx]
  · simp [Typed.Expr.constInt?, hy]

namespace Expr

variable {table loc} {a b : Expr}

/-! ## Operators in the integers -/

theorem integer?_unary_of_some (op : UnaryOp) (ha : a.integer? = some m.toInt) :
    (unary op a loc).integer? = (op.folding?.bind (·.apply₁? m)).map Int64.toInt := by
  cases op with
  | neg => simp [ha, UnaryOp.folding?, Folding.apply₁?, toInt_word?]
  | _ => rfl

theorem integer?_unary_of_none (op : UnaryOp) (ha : a.integer? = none) :
    (unary op a loc).integer? = none := by
  cases op with
  | neg => simp [ha]
  | _ => rfl

theorem integer?_binary_of_some (op : BinaryOp) (ha : a.integer? = some m.toInt)
    (hb : b.integer? = some n.toInt) :
    (binary op a b loc).integer? = (op.folding?.bind (·.apply₂? m n)).map Int64.toInt := by
  cases op with
  | add | sub | mul => simp [ha, hb, BinaryOp.folding?, Folding.apply₂?, toInt_word?]
  | _ => rfl

theorem integer?_binary_of_none (op : BinaryOp) (h : a.integer? = none ∨ b.integer? = none) :
    (binary op a b loc).integer? = none := by
  cases op with
  | add | sub | mul => rcases h with ha | hb <;> simp [*]
  | _ => rfl

/-- An expression with a value in the integers has no names in it. -/
theorem references_of_integer? {e : Expr} {k : Int} (h : e.integer? = some k) :
    Scoping.references e = [] := by
  fun_induction integer? e generalizing k with
  | case1 => rfl
  | case2 x _ ih =>
    obtain ⟨m, hx, -⟩ := Option.bind_eq_some_iff.mp h
    exact ih hx
  | case3 x y _ ihx ihy | case4 x y _ ihx ihy | case5 x y _ ihx ihy =>
    obtain ⟨m, hx, h⟩ := Option.bind_eq_some_iff.mp h
    obtain ⟨n, hy, -⟩ := Option.bind_eq_some_iff.mp h
    rw [Scoping.references, ihx hx, ihy hy]
    rfl
  | case6 => cases h

/-! ## Folding -/

/-- By induction on the expression. If the operands of an operator have values then these fix the
overload and so what is folded; if one of them has none, the overload does not matter. -/
theorem toInt_constInt?_analyze (table : SymbolTable) : (e : Expr) → e.CallFree →
    (e.analyze table).value.constInt?.map Int64.toInt = e.integer?
  | literal value _, _ => by
    cases value <;> rfl
  | name ident, _ => by
    rw [(analyze_name table ident).1]
    rfl
  | index target entries loc, _ => by
    rw [(analyze_index table target entries loc).1]
    rfl
  | array elements loc, _ => by
    rw [(analyze_array table elements loc).1, (typedAxis_eq table _ loc).1]
    rfl
  | unary op a loc, h => by
    have ha := toInt_constInt?_analyze table a h
    rw [(analyze_unary table op a loc).1]
    cases hm : (a.analyze table).value.constInt? with
    | none =>
      rw [hm] at ha
      rw [constInt?_typedCall_of_one table _ loc hm, integer?_unary_of_none op ha.symm]
      rfl
    | some m =>
      rw [hm] at ha
      rw [constInt?_typedCall_one table _ loc hm, Dialect.folding?_unary,
        integer?_unary_of_some op ha.symm]
  | binary op a b loc, h => by
    have ha := toInt_constInt?_analyze table a h.1
    have hb := toInt_constInt?_analyze table b h.2
    rw [(analyze_binary table op a b loc).1]
    cases hm : (a.analyze table).value.constInt? with
    | none =>
      rw [hm] at ha
      rw [constInt?_typedCall_of_two table _ loc (Or.inl hm),
        integer?_binary_of_none op (Or.inl ha.symm)]
      rfl
    | some m =>
      cases hn : (b.analyze table).value.constInt? with
      | none =>
        rw [hn] at hb
        rw [constInt?_typedCall_of_two table _ loc (Or.inr hn),
          integer?_binary_of_none op (Or.inr hb.symm)]
        rfl
      | some n =>
        rw [hm] at ha
        rw [hn] at hb
        rw [constInt?_typedCall_two table _ loc hm hn, Dialect.folding?_binary,
          integer?_binary_of_some op ha.symm hb.symm]

/-- **Folding is exact.** In every context the value of an expression in which no function is called
is its value in the integers, and an expression with a name in it has none. -/
theorem constInt?_analyze_exact (table : SymbolTable) (e : Expr) (h : e.CallFree) :
    (e.analyze table).value.constInt?.map Int64.toInt = e.integer?
      ∧ (Scoping.references e ≠ [] → (e.analyze table).value.constInt? = none) := by
  have hexact := toInt_constInt?_analyze table e h
  refine ⟨hexact, fun hnames => ?_⟩
  cases hvalue : (e.analyze table).value.constInt? with
  | none => rfl
  | some n =>
    rw [hvalue] at hexact
    exact absurd (references_of_integer? hexact.symm) hnames

/-- The smallest integer is no literal with a sign, but a difference has it as its value; and it has
no negative, also where a product could bring it back into range. -/
theorem constInt?_analyze_exact_smallest :
    let loc : Location := ⟨1, 1⟩
    let smallest := binary .sub (unary .neg (int loc Int64.maxValue) loc) (int loc 1) loc
    let back := binary .mul (unary .neg smallest loc) (int loc 0) loc
    smallest.CallFree ∧ back.CallFree
      ∧ (smallest.analyze (.new .v1)).value.constInt?.map Int64.toInt = some (-2 ^ 63)
      ∧ (back.analyze (.new .v3)).value.constInt?.map Int64.toInt = none := by
  intro loc smallest back
  have hsmallest : smallest.CallFree := ⟨trivial, trivial⟩
  have hback : back.CallFree := ⟨hsmallest, trivial⟩
  refine ⟨hsmallest, hback, ?_, ?_⟩
  · exact (constInt?_analyze_exact (.new .v1) smallest hsmallest).1.trans (by decide)
  · exact (constInt?_analyze_exact (.new .v3) back hback).1.trans (by decide)

end Expr

end Tree

end Cqasm
