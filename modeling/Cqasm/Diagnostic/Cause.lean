import Cqasm.Overload.Resolve

/-!
# The causes of diagnostics

Everything that can be wrong with a program, with the names, numbers and types that the message
quotes. All causes are errors but one: the use of a deprecated instruction is a warning.
-/

namespace Cqasm

/-- How serious a diagnostic is. -/
inductive Severity where
  | error
  | warning
deriving Repr, DecidableEq, Inhabited

/-- The severity as it is written in messages. -/
def Severity.display : Severity → String
  | error => "error"
  | warning => "warning"

/-- What is wrong with a program. -/
inductive Cause where
  /-- The version is not supported, or there is no version directive. -/
  | unsupportedVersion (version : Option (List Int))
  | duplicateDeclaration (name : String)
  | undeclaredIdentifier (name : String)
  | invalidRegisterSize (size : Int)
  | indexOutOfRange (name : String) (index : Int) (size : Nat)
  | unknownInstruction (name : String)
  | unknownFunction (name : String)
  | noMatchingOverload (name : String) (args : List Ty)
  | ambiguousOverload (name : String) (candidates : List Overload)
  | incompatibleTypes (expected found : Ty)
  | expectedConstInteger
  | invalidIterationCount (count : Int)
  /-- The left side of an assignment is no variable but what is described. -/
  | notAssignable (description : String)
  | notIndexable (name : String)
  | invalidAxis (size : Nat)
  | loopControlOutsideLoop (keyword : String)
  | deprecatedInstruction (name replacement : String)
deriving Repr, DecidableEq, Inhabited

namespace Cause

/-- How serious it is. -/
def severity : Cause → Severity
  | deprecatedInstruction .. => .warning
  | _ => .error

/-- A name between quotation marks. -/
def quote (name : String) : String := "`" ++ name ++ "`"

/-- A version as it is written, the components separated by dots. -/
def versionText (version : List Int) : String := ".".intercalate (version.map toString)

/-- The text of the message. -/
def message : Cause → String
  | unsupportedVersion none => "missing version directive"
  | unsupportedVersion (some version) =>
    "unsupported version " ++ versionText version ++ ", expected 1.0, 1.1, 1.2 or 3.0"
  | duplicateDeclaration name => quote name ++ " is already declared in this scope"
  | undeclaredIdentifier name => quote name ++ " is not declared"
  | invalidRegisterSize size => "register size must be positive, found " ++ toString size
  | indexOutOfRange name index size =>
    "index " ++ toString index ++ " is out of range for " ++ quote name ++ " of size "
      ++ toString size
  | unknownInstruction name => "unknown instruction " ++ quote name
  | unknownFunction name => "unknown function " ++ quote name
  | noMatchingOverload name args => ResolveError.noMatchText name args
  | ambiguousOverload name candidates => ResolveError.ambiguousText name candidates
  | incompatibleTypes expected found =>
    "expected a value of type " ++ expected.display ++ ", found " ++ found.display
  | expectedConstInteger => "expected a constant integer"
  | invalidIterationCount count => "iteration count must not be negative, found " ++ toString count
  | notAssignable description => "cannot assign to " ++ description
  | notIndexable name => quote name ++ " cannot be indexed"
  | invalidAxis size => "axis must have three elements, found " ++ toString size
  | loopControlOutsideLoop keyword => quote keyword ++ " outside of a loop"
  | deprecatedInstruction name replacement =>
    "instruction " ++ quote name ++ " is deprecated, use " ++ quote replacement

theorem severity_eq_warning_iff {cause : Cause} :
    cause.severity = .warning ↔ ∃ name replacement,
      cause = deprecatedInstruction name replacement := by
  cases cause <;> simp [severity]

end Cause

end Cqasm
