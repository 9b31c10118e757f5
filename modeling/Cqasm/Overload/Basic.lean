import Cqasm.Ty.Basic

/-!
# Overloads

An overload is one signature of an instruction, a function or an operator. An operator is a
function with a name such as `operator+`. The overloads that share a name form a set, in the order
in which they were registered.
-/

namespace Cqasm

/-- One signature of an instruction, function or operator. -/
structure Overload where
  name : String
  params : List Ty
  result : Ty
  /-- The name of the implementation. -/
  tag : String
  /-- For a deprecated overload, what to use instead. -/
  replacement : Option String
deriving Repr, DecidableEq, Inhabited

namespace Overload

/-- The number of parameters. -/
def arity (o : Overload) : Nat := o.params.length

/-- The signature as a type. -/
def signature (o : Overload) : Ty := .function o.params o.result

/-- The overload as it is quoted in messages, its name and the parameter types. -/
def display (o : Overload) : String := o.name ++ "(" ++ Ty.displayList o.params ++ ")"

end Overload

/-- The overloads of one name, in registration order. -/
structure OverloadSet where
  name : String
  overloads : List Overload
deriving Repr, DecidableEq, Inhabited

namespace OverloadSet

/-- The set with one more overload. -/
def add (set : OverloadSet) (o : Overload) : OverloadSet :=
  { set with overloads := set.overloads ++ [o] }

/-- The number of overloads. -/
def size (set : OverloadSet) : Nat := set.overloads.length

/-- Is there no overload? -/
def isEmpty (set : OverloadSet) : Bool := set.overloads.isEmpty

@[simp] theorem overloads_add (set : OverloadSet) (o : Overload) :
    (set.add o).overloads = set.overloads ++ [o] := rfl

end OverloadSet

end Cqasm
