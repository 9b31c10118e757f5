import Cqasm.Proofs.Checked.Basic

/-!
# Constants of 64 bits

The value of a constant integer, folded by operations on 64-bit numbers. These keep the last 64 bits
of a result and flag one that does not have them only; a flagged result is no value. This is the
folding in exact arithmetic, of which the results that are 64-bit numbers are kept.

* `Checked.apply₁?`, `Checked.apply₂?` : the operations;
* `Checked.constInt?`, `Checked.constInteger` : the value of a constant.
-/

namespace Cqasm.Checked

open Typed (Folding word?)

/-- The 64-bit result of an operation, unless it is flagged. -/
def unflagged? (overflow : Bool) (result : Int64) : Option Int64 :=
  if overflow then none else some result

/-- The result of the operation with one operand. -/
def apply₁? (x : Int64) : Folding → Option Int64
  | .neg => unflagged? x.toBitVec.negOverflow (-x)
  | _ => none

/-- The result of the operation with two operands. -/
def apply₂? (x y : Int64) : Folding → Option Int64
  | .neg => none
  | .add => unflagged? (x.toBitVec.saddOverflow y.toBitVec) (x + y)
  | .sub => unflagged? (x.toBitVec.ssubOverflow y.toBitVec) (x - y)
  | .mul => unflagged? (x.toBitVec.smulOverflow y.toBitVec) (x * y)

/-- The value of a constant expression of integer type, as far as it can be folded. -/
def constInt? : Typed.Expr → Option Int64
  | .literal note value =>
    if note.isConst ∧ note.ty = .int then
      match value with
      | .int value => some value
      | _ => none
    else
      none
  | .call note _ overload [x] =>
    if note.isConst ∧ note.ty = .int then do
      let folding ← Folding.ofTag? (← overload).tag
      apply₁? (← constInt? x) folding
    else
      none
  | .call note _ overload [x, y] =>
    if note.isConst ∧ note.ty = .int then do
      let folding ← Folding.ofTag? (← overload).tag
      apply₂? (← constInt? x) (← constInt? y) folding
    else
      none
  | _ => none

/-- The value of the constant integer `e`. -/
def constInteger (table : SymbolTable) (e : Typed.Expr) : Logged (Option Int64) := do
  if e.ty.isDefined then
    match constInt? e with
    | some n => pure (some n)
    | none =>
      table.report .expectedConstInteger e.loc
      pure none
  else
    pure none

/-- An operation that is flagged if its exact result `n` is no 64-bit number. -/
theorem unflagged?_eq {overflow : Bool} {result : Int64} {n : Int}
    (hresult : Int64.ofInt n = result)
    (hflag : overflow = false ↔ Int64.minValue.toInt ≤ n ∧ n ≤ Int64.maxValue.toInt) :
    unflagged? overflow result = word? n := by
  subst hresult
  unfold unflagged? word?
  cases overflow with
  | true => rw [if_pos rfl, if_neg fun h => Bool.noConfusion (hflag.mpr h)]
  | false => rw [if_neg Bool.false_ne_true, if_pos (hflag.mp rfl)]

/-- A result is flagged if it lies outside the 64-bit numbers. -/
theorem flag_eq_false_iff {n lower upper : Int} (hlower : lower = Int64.minValue.toInt)
    (hupper : upper = Int64.maxValue.toInt + 1) :
    (decide (n ≥ upper) || decide (n < lower)) = false
      ↔ Int64.minValue.toInt ≤ n ∧ n ≤ Int64.maxValue.toInt := by
  rw [Bool.or_eq_false_iff, decide_eq_false_iff_not, decide_eq_false_iff_not]
  omega

theorem apply₁?_eq (x : Int64) (folding : Folding) : apply₁? x folding = folding.apply₁? x := by
  cases folding with
  | neg =>
    refine unflagged?_eq (by rw [Int64.ofInt_neg, Int64.ofInt_toInt]) ?_
    -- the smallest number is the only one without a negative
    have hmin := x.le_toInt
    have hmax := x.toInt_lt
    rw [BitVec.negOverflow, beq_eq_false_iff_ne, Int64.toInt_toBitVec, Int64.toInt_minValue,
      Int64.toInt_maxValue]
    omega
  | add | sub | mul => rfl

theorem apply₂?_eq (x y : Int64) (folding : Folding) :
    apply₂? x y folding = folding.apply₂? x y := by
  cases folding with
  | neg => rfl
  | add =>
    refine unflagged?_eq (by rw [Int64.ofInt_add, Int64.ofInt_toInt, Int64.ofInt_toInt]) ?_
    exact flag_eq_false_iff rfl rfl
  | sub =>
    refine unflagged?_eq (by rw [Int64.ofInt_sub, Int64.ofInt_toInt, Int64.ofInt_toInt]) ?_
    exact flag_eq_false_iff rfl rfl
  | mul =>
    refine unflagged?_eq (by rw [Int64.ofInt_mul, Int64.ofInt_toInt, Int64.ofInt_toInt]) ?_
    exact flag_eq_false_iff rfl rfl

theorem constInt?_eq (e : Typed.Expr) : constInt? e = e.constInt? := by
  fun_induction constInt? e with
  | case8 e hliteral hone htwo =>
    -- neither a literal nor a call with one or two arguments: nothing is folded
    rw [Typed.Expr.constInt?]
    · exact hliteral
    · exact hone
    · exact htwo
  | _ => simp_all [Typed.Expr.constInt?, apply₁?_eq, apply₂?_eq]

theorem constInteger_eq (table : SymbolTable) (e : Typed.Expr) :
    constInteger table e = table.constInteger e := by
  rw [constInteger, constInt?_eq]
  rfl

end Cqasm.Checked
