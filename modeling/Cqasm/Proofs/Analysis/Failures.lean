import Cqasm.Proofs.Analysis.Selection

/-!
# Failed resolutions

Names and calls that cannot be resolved are reported where they are looked up, and nothing else is
reported in these words. So the failures among the diagnostics of a statement are those of its own
expressions and instructions, and of the count of a subcircuit (`Site.perm_failures`).

* `Cause.isFailure` : is it a name or a call that could not be resolved?
* `Diagnostics.failures` : what is reported about names and calls that could not be resolved.
-/

namespace Cqasm

/-- Is it a name or a call that could not be resolved? -/
def Cause.isFailure : Cause → Bool
  | undeclaredIdentifier _ | unknownInstruction _ | unknownFunction _ | noMatchingOverload _ _ => true
  | _ => false

/-- What is reported about names and calls that could not be resolved. -/
def Diagnostics.failures (log : Diagnostics) : Diagnostics := log.select Cause.isFailure

/-- What is reported in the expression about names and calls that could not be resolved. -/
def Query.failures (query : Query) : Diagnostics := query.log.failures

/-- Checks, declarations and loop controls resolve nothing. -/
theorem Cause.resolving_isFailure : Resolving isFailure where
  incompatibleTypes _ _ := rfl
  expectedConstInteger := rfl
  invalidRegisterSize _ := rfl
  invalidIterationCount _ := rfl
  notAssignable _ := rfl
  duplicateDeclaration _ := rfl
  loopControlOutsideLoop _ := rfl

namespace Diagnostics

@[simp] theorem failures_append (log log' : Diagnostics) :
    failures (log ++ log') = failures log ++ failures log' := select_append ..

theorem failures_subset_left (log log' : Diagnostics) : log.failures ⊆ failures (log ++ log') := by
  rw [failures_append]
  exact List.subset_append_left _ _

theorem failures_subset_right (log log' : Diagnostics) :
    log'.failures ⊆ failures (log ++ log') := by
  rw [failures_append]
  exact List.subset_append_right _ _

/-- Checks that resolve nothing report no failure. -/
theorem failures_of_causes {α : Type} {x : Logged α}
    (h : x.Causes fun cause => cause.isFailure = false) : failures x.log = [] := select_of_causes h

end Diagnostics

theorem SymbolTable.failures_constInteger (table : SymbolTable) (e : Typed.Expr) :
    (table.constInteger e).log.failures = [] :=
  select_constInteger Cause.resolving_isFailure.toUnchecked table e

open Diagnostics (failures)

/-- The failures that a statement reports itself are those of its expressions, of its instructions
and of the count of a subcircuit. -/
theorem Site.perm_failures (site : Site) :
    site.ownLog.failures.Perm
      (site.queries.flatMap Query.failures
        ++ site.stmt.ownInstructions.flatMap (fun i => failures (Tree.Stmt.choice site.env i).log)
        ++ site.counts.flatMap Query.failures) :=
  site.perm_select Cause.resolving_isFailure

/-! ## Programs -/

namespace Tree.Program

variable {program : Program} {dialect : Dialect}

/-- A failure that is reported in a program is one of an expression or an instruction of a statement,
or of the count of a subcircuit. -/
theorem mem_failures_analyze (h : program.dialect? = some dialect) {d : Diagnostic} :
    d ∈ program.analyze.diagnostics.failures ↔ ∃ site ∈ program.sites dialect,
      (∃ query ∈ site.queries, d ∈ query.failures)
        ∨ (∃ i ∈ site.stmt.ownInstructions, d ∈ failures (Stmt.choice site.env i).log)
        ∨ ∃ query ∈ site.counts, d ∈ query.failures := by
  rw [Diagnostics.failures, (perm_select_analyze h Cause.isFailure).mem_iff, List.mem_flatMap]
  refine exists_congr fun site => and_congr_right fun _ => ?_
  rw [← Diagnostics.failures, site.perm_failures.mem_iff, List.mem_append, List.mem_append,
    List.mem_flatMap, List.mem_flatMap, List.mem_flatMap, or_assoc]

end Tree.Program

end Cqasm
