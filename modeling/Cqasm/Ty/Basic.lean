/-!
# Types

The types of the values and operands of a program. A reference to elements of a quantum or of a bit
register carries the number of elements, so `q[0]` and `q[1:2]` have different types. The
undefined type stands for the type of something that an error has already been reported about.

## Main definitions

* `Ty` : the types, with `DecidableEq`;
* `Ty.display`, `Ty.displayList` : types as they are written in messages;
* `Ty.registerSize?`, `Ty.resize?` : the number of elements of a reference, and the reference of the
  same kind to another number of elements.
-/

namespace Cqasm

/-- The types of expressions, operands and signatures. -/
inductive Ty where
  | bool
  | int
  | float
  | complex
  /-- A reference to `size` elements of a qubit register. -/
  | qubit (size : Nat)
  /-- A reference to `size` elements of a bit register. -/
  | bit (size : Nat)
  /-- A rotation axis, three numbers. -/
  | axis
  /-- A signature. -/
  | function (params : List Ty) (result : Ty)
  /-- The result of an instruction. -/
  | void
  /-- The type of something that is in error. -/
  | undefined
deriving Repr, Inhabited

namespace Ty

/-! ## Equality -/

mutual

/-- Are two types the same? -/
def same : Ty → Ty → Bool
  | bool, bool => true
  | int, int => true
  | float, float => true
  | complex, complex => true
  | qubit m, qubit n => m == n
  | bit m, bit n => m == n
  | axis, axis => true
  | function params result, function params' result' =>
    sameList params params' && same result result'
  | void, void => true
  | undefined, undefined => true
  | _, _ => false

/-- Are two lists of types the same? -/
def sameList : List Ty → List Ty → Bool
  | [], [] => true
  | t :: ts, u :: us => same t u && sameList ts us
  | _, _ => false

end

theorem same_iff (t u : Ty) : same t u = true ↔ t = u := by
  induction t using Ty.rec
    (motive_2 := fun ts => ∀ us, sameList ts us = true ↔ ts = us) generalizing u with
  | nil => rename_i us; cases us <;> simp [sameList]
  | cons t ts iht ihts => rename_i us; cases us <;> simp [sameList, iht, ihts]
  | function params result ihp ihr => cases u <;> simp [same, ihp, ihr]
  | _ => cases u <;> simp [same]

instance : DecidableEq Ty := fun t u => decidable_of_iff _ (same_iff t u)

/-! ## Text -/

mutual

/-- A type as it is written in messages. A reference to one element omits the number. -/
def display : Ty → String
  | bool => "bool"
  | int => "int"
  | float => "float"
  | complex => "complex"
  | qubit size => if size = 1 then "qubit" else "qubit[" ++ toString size ++ "]"
  | bit size => if size = 1 then "bit" else "bit[" ++ toString size ++ "]"
  | axis => "axis"
  | function params result => "(" ++ displayList params ++ ") -> " ++ display result
  | void => "void"
  | undefined => "undefined"

/-- Types separated by commas. -/
def displayList : List Ty → String
  | [] => ""
  | t :: ts => display t ++ displayRest ts

/-- Types each of which follows another one. -/
def displayRest : List Ty → String
  | [] => ""
  | t :: ts => ", " ++ display t ++ displayRest ts

end

instance : ToString Ty := ⟨display⟩

/-! ## Classes of types -/

/-- Is it the type of a classical value? -/
def isScalar : Ty → Bool
  | bool | int | float | complex | axis => true
  | _ => false

/-- Is it a reference to qubits? -/
def isQuantum : Ty → Bool
  | qubit _ => true
  | _ => false

/-- Is it a reference to elements of a register? -/
def isReference : Ty → Bool
  | qubit _ | bit _ => true
  | _ => false

/-- Is it any type but the undefined one? -/
def isDefined : Ty → Bool
  | undefined => false
  | _ => true

@[simp] theorem isDefined_eq_false_iff {t : Ty} : t.isDefined = false ↔ t = undefined := by
  cases t <;> simp [isDefined]

@[simp] theorem isDefined_iff {t : Ty} : t.isDefined = true ↔ t ≠ undefined := by
  cases t <;> simp [isDefined]

/-- The number of elements of a reference. -/
def registerSize? : Ty → Option Nat
  | qubit size | bit size => some size
  | _ => none

/-- The reference of the same kind to `size` elements. -/
def resize? (size : Nat) : Ty → Option Ty
  | qubit _ => some (qubit size)
  | bit _ => some (bit size)
  | _ => none

/-- The result of a signature. -/
def result? : Ty → Option Ty
  | function _ result => some result
  | _ => none

end Ty

end Cqasm
