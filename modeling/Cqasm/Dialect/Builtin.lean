import Cqasm.Overload.Basic

/-!
# The built-in instructions and functions

The overloads that each dialect starts from, in registration order. The tag of an overload joins the
stem of its name and one letter per parameter: `Q` for a qubit, `B` for a bit, `b` for a Boolean,
`i`, `f` and `c` for the numbers and `a` for an axis.

## Main definitions

* `Builtin.instructions1`, `Builtin.instructions3` : the instructions of the two dialects;
* `Builtin.functions` : the functions and operators that all dialects have;
* `Builtin.complexFunctions` : those that cQASM 1.x has besides.
-/

namespace Cqasm

namespace Builtin

/-- The letter of a parameter in a tag. -/
def letter : Ty → String
  | .qubit _ => "Q"
  | .bit _ => "B"
  | .bool => "b"
  | .int => "i"
  | .float => "f"
  | .complex => "c"
  | .axis => "a"
  | _ => ""

/-- The tag of an overload with the given stem and parameters. -/
def tag (stem : String) (params : List Ty) : String :=
  if params.isEmpty then stem else stem ++ "_" ++ String.join (params.map letter)

/-- An instruction with the given parameters. -/
def instruction (name : String) (params : List Ty) : Overload :=
  { name, params, result := .void, tag := tag name params, replacement := none }

/-- An instruction that has been replaced by another one. -/
def deprecated (name : String) (params : List Ty) (replacement : String) : Overload :=
  { instruction name params with replacement := some replacement }

/-- Each of several instructions with each of several parameter lists. -/
def instructions (names : List String) (signatures : List (List Ty)) : List Overload :=
  names.flatMap fun name => signatures.map (instruction name)

/-- A function with the given parameters and result. -/
def function (name stem : String) (params : List Ty) (result : Ty) : Overload :=
  { name, params, result, tag := tag stem params, replacement := none }

/-- Each of several functions, given by their names and stems, with each of several signatures. -/
def functionsWith (names : List (String × String)) (signatures : List (List Ty × Ty)) :
    List Overload :=
  names.flatMap fun name => signatures.map fun sig => function name.1 name.2 sig.1 sig.2

/-- A parameter for one qubit. -/
abbrev Q : Ty := .qubit 1

/-- A parameter for one bit. -/
abbrev B : Ty := .bit 1

/-- The instructions of cQASM 1.x. -/
def instructions1 : List Overload :=
  instructions
    ["x", "y", "z", "i", "h", "s", "sdag", "t", "tdag", "x90", "y90", "mx90", "my90",
      "prep_x", "prep_y", "prep_z", "measure_x", "measure_y", "measure_z"] [[Q]]
  ++ instructions ["rx", "ry", "rz"] [[Q, .float]]
  ++ instructions ["cnot", "cz", "swap"] [[Q, Q]]
  ++ instructions ["cr"] [[Q, Q, .float]]
  ++ instructions ["crk"] [[Q, Q, .int]]
  ++ instructions ["toffoli"] [[Q, Q, Q]]
  ++ instructions ["measure_all"] [[]]
  ++ instructions ["measure_parity"] [[Q, .axis, Q, .axis]]
  ++ instructions ["display"] [[], [B]]
  ++ instructions ["not"] [[B]]
  ++ instructions ["skip", "wait"] [[.int]]
  ++ instructions ["reset-averaging"] [[], [Q]]
  ++ [deprecated "prep" [Q] "prep_z", deprecated "measure" [Q] "measure_z"]

/-- The instructions of cQASM 3.0. -/
def instructions3 : List Overload :=
  instructions
    ["H", "I", "X", "Y", "Z", "X90", "mX90", "Y90", "mY90", "S", "Sdag", "T", "Tdag"] [[Q]]
  ++ instructions ["Rx", "Ry", "Rz"] [[Q, .float]]
  ++ instructions ["CNOT", "CZ", "SWAP"] [[Q, Q]]
  ++ instructions ["CR"] [[Q, Q, .float]]
  ++ instructions ["CRk"] [[Q, Q, .int]]
  ++ instructions ["measure"] [[B, Q]]
  ++ instructions ["reset"] [[Q], []]
  ++ instructions ["barrier"] [[Q]]

/-- The functions from numbers to numbers. -/
def mathNames : List String :=
  ["sqrt", "exp", "log", "sin", "cos", "tan", "sinh", "cosh", "tanh", "asin", "acos", "atan",
    "asinh", "acosh", "atanh"]

/-- The functions and operators that all dialects have. -/
def functions : List Overload :=
  functionsWith
    [("operator+", "op_add"), ("operator-", "op_sub"), ("operator*", "op_mul"),
      ("operator/", "op_div")]
    [([.int, .int], .int), ([.float, .float], .float)]
  ++ functionsWith [("operator%", "op_mod")] [([.int, .int], .int)]
  ++ functionsWith [("operator**", "op_pow")] [([.float, .float], .float)]
  ++ functionsWith [("operator-", "op_neg")] [([.int], .int), ([.float], .float)]
  ++ functionsWith [("operator!", "op_lnot")] [([.bool], .bool)]
  ++ functionsWith [("operator~", "op_bnot")] [([.int], .int)]
  ++ functionsWith [("operator==", "op_eq"), ("operator!=", "op_ne")]
    [([.bool, .bool], .bool), ([.int, .int], .bool), ([.float, .float], .bool)]
  ++ functionsWith
    [("operator<", "op_lt"), ("operator<=", "op_le"), ("operator>", "op_gt"),
      ("operator>=", "op_ge")]
    [([.int, .int], .bool), ([.float, .float], .bool)]
  ++ functionsWith
    [("operator&&", "op_land"), ("operator||", "op_lor"), ("operator^^", "op_lxor")]
    [([.bool, .bool], .bool)]
  ++ functionsWith
    [("operator&", "op_band"), ("operator|", "op_bor"), ("operator^", "op_bxor"),
      ("operator<<", "op_shl"), ("operator>>", "op_shr")]
    [([.int, .int], .int)]
  ++ functionsWith (mathNames.map fun name => (name, "fn_" ++ name)) [([.float], .float)]
  ++ functionsWith [("abs", "fn_abs")] [([.int], .int), ([.float], .float)]

/-- The functions and operators on complex numbers, which cQASM 1.x has besides. -/
def complexFunctions : List Overload :=
  functionsWith
    [("operator+", "op_add"), ("operator-", "op_sub"), ("operator*", "op_mul"),
      ("operator/", "op_div"), ("operator**", "op_pow")]
    [([.complex, .complex], .complex)]
  ++ functionsWith [("operator-", "op_neg")] [([.complex], .complex)]
  ++ functionsWith [("operator==", "op_eq"), ("operator!=", "op_ne")]
    [([.complex, .complex], .bool)]
  ++ functionsWith [("complex", "fn_complex")] [([.float, .float], .complex)]
  ++ functionsWith [("real", "fn_real"), ("imag", "fn_imag")] [([.complex], .float)]

end Builtin

end Cqasm
