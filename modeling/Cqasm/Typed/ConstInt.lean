import Cqasm.Typed.Expr

/-!
# Constant integers

The value of a constant expression of integer type. Integers are folded through negation, addition,
subtraction and multiplication in exact arithmetic; a result that is no 64-bit integer is no value.
-/

namespace Cqasm.Typed

/-- The 64-bit integer of the given value, if there is one. -/
def word? (n : Int) : Option Int64 :=
  if Int64.minValue.toInt ≤ n ∧ n ≤ Int64.maxValue.toInt then some (Int64.ofInt n) else none

/-- The operations that are folded. -/
inductive Folding where
  | neg
  | add
  | sub
  | mul
deriving Repr, DecidableEq

namespace Folding

/-- The operation that the overload with the given tag performs. -/
def ofTag? (tag : String) : Option Folding :=
  if tag = "op_neg_i" then some neg
  else if tag = "op_add_ii" then some add
  else if tag = "op_sub_ii" then some sub
  else if tag = "op_mul_ii" then some mul
  else none

/-- The result of the operation with one operand. -/
def apply₁? (x : Int64) : Folding → Option Int64
  | neg => word? (-x.toInt)
  | _ => none

/-- The result of the operation with two operands. -/
def apply₂? (x y : Int64) : Folding → Option Int64
  | neg => none
  | add => word? (x.toInt + y.toInt)
  | sub => word? (x.toInt - y.toInt)
  | mul => word? (x.toInt * y.toInt)

end Folding

namespace Expr

/-- The value of a constant expression of integer type, as far as it can be folded. -/
def constInt? : Expr → Option Int64
  | literal note value =>
    if note.isConst ∧ note.ty = .int then
      match value with
      | .int value => some value
      | _ => none
    else
      none
  | call note _ overload [x] =>
    if note.isConst ∧ note.ty = .int then do
      let folding ← Folding.ofTag? (← overload).tag
      folding.apply₁? (← x.constInt?)
    else
      none
  | call note _ overload [x, y] =>
    if note.isConst ∧ note.ty = .int then do
      let folding ← Folding.ofTag? (← overload).tag
      folding.apply₂? (← x.constInt?) (← y.constInt?)
    else
      none
  | _ => none

end Expr

end Cqasm.Typed
