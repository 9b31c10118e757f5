import Cqasm.Diagnostic.Cause
import Cqasm.Dialect.Basic
import Cqasm.Location

/-!
# Diagnostics

A diagnostic is a cause at a location, found under the rules of a dialect. Diagnostics are listed in
the order in which they are found, warnings among the errors.
-/

namespace Cqasm

/-- Something that is wrong at a location. -/
structure Diagnostic where
  cause : Cause
  loc : Location
  /-- The dialect of the program, missing if the version is not supported. -/
  dialect : Option Dialect
deriving Repr, DecidableEq, Inhabited

namespace Diagnostic

/-- How serious it is. -/
def severity (d : Diagnostic) : Severity := d.cause.severity

/-- Is it an error rather than a warning? -/
def isError (d : Diagnostic) : Bool := d.severity = .error

/-- Is it a warning? -/
def isWarning (d : Diagnostic) : Bool := d.severity = .warning

/-- The text of the message. -/
def message (d : Diagnostic) : String := d.cause.message

/-- Severity, location and message on one line. -/
def display (d : Diagnostic) : String :=
  d.severity.display ++ " at " ++ d.loc.display ++ ": " ++ d.message

theorem isWarning_eq_not_isError (d : Diagnostic) : d.isWarning = !d.isError := by
  unfold isWarning isError
  cases d.severity <;> rfl

end Diagnostic

/-- Diagnostics in the order in which they are found. -/
abbrev Diagnostics := List Diagnostic

namespace Diagnostics

/-- The number of errors. -/
def errorCount (ds : Diagnostics) : Nat := ds.countP (·.isError)

/-- Is there an error? Warnings do not count. -/
def anyErrors (ds : Diagnostics) : Bool := ds.any (·.isError)

/-- The warnings in order. -/
def warnings (ds : Diagnostics) : List Diagnostic := ds.filter (·.isWarning)

/-- Every diagnostic on a line of its own. -/
def display (ds : Diagnostics) : String := String.join (ds.map fun d => d.display ++ "\n")

theorem anyErrors_iff {ds : Diagnostics} : ds.anyErrors = true ↔ 0 < ds.errorCount := by
  simp [anyErrors, errorCount, List.countP_pos_iff]

@[simp] theorem errorCount_append (ds es : Diagnostics) :
    errorCount (ds ++ es) = ds.errorCount + es.errorCount := List.countP_append ..

/-- Behind as many errors as in front, no error has been added. -/
theorem errorCount_append_eq_iff {ds es : Diagnostics} :
    errorCount (ds ++ es) = ds.errorCount ↔ es.anyErrors = false := by
  rw [errorCount_append, ← Bool.not_eq_true, anyErrors_iff]
  omega

@[simp] theorem anyErrors_append (ds es : Diagnostics) :
    anyErrors (ds ++ es) = (ds.anyErrors || es.anyErrors) := List.any_append ..

/-- What agrees but for something that is only quoted is equally serious. -/
theorem severities_of_map {ds es : Diagnostics} {f : Diagnostic → Diagnostic}
    (hf : ∀ d, (f d).severity = d.severity) (h : ds.map f = es.map f) :
    ds.map Diagnostic.severity = es.map Diagnostic.severity := by
  have hcomp : Diagnostic.severity ∘ f = Diagnostic.severity := funext hf
  have hseverity := congrArg (List.map Diagnostic.severity) h
  rwa [List.map_map, List.map_map, hcomp] at hseverity

theorem anyErrors_of_severities {ds es : Diagnostics}
    (h : ds.map Diagnostic.severity = es.map Diagnostic.severity) :
    ds.anyErrors = es.anyErrors := by
  have hany : ∀ ds : Diagnostics,
      ds.anyErrors = (ds.map Diagnostic.severity).any fun severity => severity = .error := by
    intro ds
    rw [List.any_map]
    rfl
  rw [hany ds, hany es, h]

end Diagnostics

end Cqasm
