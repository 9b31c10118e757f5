import Cqasm.Dialect.Builtin
import Cqasm.Overload.Table
import Cqasm.Ty.Promotion

/-!
# Dialects

The versions of cQASM fall into two dialects. A dialect fixes the promotions, the built-in
instructions and the built-in functions. In cQASM 1.x the case of instruction and function names
does not matter.

## Main definitions

* `Dialect` : cQASM 1.x and cQASM 3.0;
* `Dialect.promotions`, `Dialect.instructions`, `Dialect.functions` : what a dialect fixes;
* `Dialect.ofVersion?` : the dialect of a version directive.
-/

namespace Cqasm

/-- A family of language versions. -/
inductive Dialect where
  /-- The versions 1.0, 1.1 and 1.2. -/
  | v1
  /-- Version 3.0. -/
  | v3
deriving Repr, DecidableEq, Inhabited

namespace Dialect

/-- The name of the dialect. -/
def display : Dialect → String
  | v1 => "cQASM 1.x"
  | v3 => "cQASM 3.0"

instance : ToString Dialect := ⟨display⟩

/-- The promotions of a dialect: integers to floating-point numbers and, in cQASM 1.x, these to
complex numbers and single bits to Booleans. -/
def promotions : Dialect → Promotions
  | v1 => ⟨[(.int, .float), (.float, .complex), (.bit 1, .bool)]⟩
  | v3 => ⟨[(.int, .float)]⟩

/-- The instructions of cQASM 1.x by name. -/
def instructionTable1 : OverloadTable := .ofList .insensitive Builtin.instructions1

/-- The instructions of cQASM 3.0 by name. -/
def instructionTable3 : OverloadTable := .ofList .sensitive Builtin.instructions3

/-- The functions and operators of cQASM 1.x by name. -/
def functionTable1 : OverloadTable :=
  .ofList .insensitive (Builtin.functions ++ Builtin.complexFunctions)

/-- The functions and operators of cQASM 3.0 by name. -/
def functionTable3 : OverloadTable := .ofList .sensitive Builtin.functions

/-- The built-in instructions. -/
def instructions : Dialect → OverloadTable
  | v1 => instructionTable1
  | v3 => instructionTable3

/-- The built-in functions and operators. -/
def functions : Dialect → OverloadTable
  | v1 => functionTable1
  | v3 => functionTable3

/-- The components of a version without the zeros at its end. -/
def significant (version : List Int) : List Int :=
  (version.reverse.dropWhile (· = 0)).reverse

/-- The dialect of a version directive, `[1, 2]` for version 1.2. Zeros at the end do not matter. -/
def ofVersion? (version : List Int) : Option Dialect :=
  match significant version with
  | [1] | [1, 1] | [1, 2] => some v1
  | [3] => some v3
  | _ => none

theorem significant_append_zero (version : List Int) :
    significant (version ++ [0]) = significant version := by
  simp [significant]

end Dialect

end Cqasm
