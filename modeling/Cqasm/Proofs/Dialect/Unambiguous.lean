import Cqasm.Proofs.Analysis.Recorded
import Cqasm.Proofs.Dialect.Tables
import Cqasm.Proofs.Overload.Separation

/-!
# The built-in tables are not ambiguous

Any two overloads of a built-in function or instruction are separated by the promotions of the
dialect, so that a call whose arguments all have types is never ambiguous (`decided_function`,
`decided_instruction`). A call with an argument that is in error may be ambiguous, but this is not
reported (`unambiguous_resolveCall`). No program has an ambiguity among its diagnostics.

* `Dialect.Decided` : the overload of a call is found or there is none;
* `Diagnostics.Unambiguous` : no ambiguity is reported.
-/

namespace Cqasm

theorem OverloadTable.mem_toList_of_get? {table : OverloadTable} {name : String}
    {set : OverloadSet} (h : table.get? name = some set) : set ∈ table.toList := by
  obtain ⟨entry, hentry, rfl⟩ := Option.map_eq_some_iff.mp h
  exact List.mem_map.mpr ⟨entry, List.mem_of_find?_eq_some hentry, rfl⟩

namespace Dialect

variable {dialect : Dialect} {args : List Ty}

/-! ## The tables -/

theorem separates_functions (dialect : Dialect) : ∀ set ∈ dialect.functions.toList,
    set.overloads.Pairwise dialect.promotions.Separates := by
  cases dialect with
  | v1 =>
    rw [functions_v1]
    decide +kernel
  | v3 => decide +kernel

theorem separates_instructions (dialect : Dialect) : ∀ set ∈ dialect.instructions.toList,
    set.overloads.Pairwise dialect.promotions.Separates := by
  cases dialect with
  | v1 =>
    rw [instructions_v1]
    decide +kernel
  | v3 => decide +kernel

/-- The call of `name` has an overload, or no overload of that name fits, or there is none. -/
def Decided (dialect : Dialect) (set : Option OverloadSet) (name : String) (args : List Ty) : Prop :=
  (∃ o, resolve dialect.promotions set name args = .ok o)
    ∨ resolve dialect.promotions set name args = .error (.noMatch name args)
    ∨ resolve dialect.promotions set name args = .error (.unknown name)

theorem Decided.not_ambiguous {set : Option OverloadSet} {name name' : String}
    {candidates : List Overload} (h : dialect.Decided set name args) :
    resolve dialect.promotions set name args ≠ .error (.ambiguous name' candidates) := by
  intro hambiguous
  rcases h with ⟨o, h⟩ | h | h <;>
    · rw [hambiguous] at h
      cases h

/-- A call is decided in a table all sets of which are separated. -/
theorem decided_of_separates {table : OverloadTable}
    (h : ∀ set ∈ table.toList, set.overloads.Pairwise dialect.promotions.Separates)
    (hargs : ∀ t ∈ args, t ≠ .undefined) (name : String) :
    dialect.Decided (table.get? name) name args := by
  cases hset : table.get? name with
  | none => exact Or.inr (Or.inr rfl)
  | some set =>
    have hmem := OverloadTable.mem_toList_of_get? hset
    rcases resolve_of_separated (h set hmem) hargs name with hok | hnone
    · exact Or.inl hok
    · exact Or.inr (Or.inl hnone)

theorem decided_function (hargs : ∀ t ∈ args, t ≠ .undefined) (name : String) :
    dialect.Decided (dialect.functions.get? name) name args :=
  decided_of_separates dialect.separates_functions hargs name

theorem decided_instruction (hargs : ∀ t ∈ args, t ≠ .undefined) (name : String) :
    dialect.Decided (dialect.instructions.get? name) name args :=
  decided_of_separates dialect.separates_instructions hargs name

end Dialect

/-! ## Diagnostics -/

/-- The cause is not an ambiguity. -/
def Cause.Unambiguous (cause : Cause) : Prop :=
  ∀ name candidates, cause ≠ .ambiguousOverload name candidates

/-- No ambiguity is reported. -/
def Diagnostics.Unambiguous (ds : Diagnostics) : Prop := ∀ d ∈ ds, d.cause.Unambiguous

namespace SymbolTable

variable {table : SymbolTable} {args : List Ty}

/-- An ambiguity that arguments without a type give rise to is not reported. -/
theorem unambiguous_resolveFunction (h : .undefined ∈ args) (name : String) (loc : Location) :
    (table.resolveFunction name args loc).log.Unambiguous := by
  refine causes_resolveCall (fun _ _ => nofun) (fun _ _ _ _ => nofun) fun _ _ hargs _ => ?_
  exact absurd rfl (hargs .undefined h)

theorem unambiguous_resolveInstruction (h : .undefined ∈ args) (name : String) (loc : Location) :
    (table.resolveInstruction name args loc).log.Unambiguous := by
  refine causes_resolveInstruction (fun _ _ => nofun) (fun _ _ _ _ => nofun) (fun _ _ hargs _ => ?_)
    fun _ _ _ => nofun
  exact absurd rfl (hargs .undefined h)

end SymbolTable

/-- A call in a program that is reported as ambiguous would have to be so in a table. -/
theorem Cause.InProgram.unambiguous {dialect : Dialect} {cause : Cause}
    (h : cause.InProgram dialect) : cause.Unambiguous := by
  rintro name candidates rfl
  obtain ⟨called, args, hargs, hresolve | hresolve⟩ := h
  · exact (Dialect.decided_function hargs called).not_ambiguous hresolve
  · exact (Dialect.decided_instruction hargs called).not_ambiguous hresolve

namespace Tree.Program

theorem unambiguous_unsupported (program : Program) :
    program.unsupported.diagnostics.Unambiguous := by
  intro d hd name candidates
  rw [List.mem_singleton.mp hd]
  exact nofun

/-- No call is ambiguous if its arguments have types, whatever is called; if they have not, this is
not reported; and so no program has an ambiguity among its diagnostics. -/
theorem unambiguous_analyze :
    (∀ (dialect : Dialect) (name : String) (args : List Ty), (∀ t ∈ args, t ≠ .undefined) →
      dialect.Decided (dialect.functions.get? name) name args
        ∧ dialect.Decided (dialect.instructions.get? name) name args)
      ∧ (∀ (table : SymbolTable) (name : String) (args : List Ty) (loc : Location),
        .undefined ∈ args → (table.resolveFunction name args loc).log.Unambiguous
          ∧ (table.resolveInstruction name args loc).log.Unambiguous)
      ∧ ∀ program : Program, program.analyze.diagnostics.Unambiguous := by
  refine ⟨fun dialect name args hargs => ?_, fun table name args loc h => ?_, fun program => ?_⟩
  · exact ⟨Dialect.decided_function hargs name, Dialect.decided_instruction hargs name⟩
  · exact ⟨SymbolTable.unambiguous_resolveFunction h name loc,
      SymbolTable.unambiguous_resolveInstruction h name loc⟩
  · unfold analyze
    split
    · exact program.unambiguous_unsupported
    · exact fun d hd => (program.inProgram_analyzeAs _ d hd).unambiguous

/-- `version 3; int i = y + y`, where `y` is not declared. -/
def untypedSum : Program :=
  let loc : Location := ⟨1, 1⟩
  { version := some ⟨[3], loc⟩
    stmts := [.declare ⟨"i", loc⟩ (.scalar .int)
      (some (.binary .add (.name ⟨"y", loc⟩) (.name ⟨"y", loc⟩) loc)) loc] }

/-- Two overloads fit the sum equally well, but what is reported is that the summands are not
declared; a sum whose summands have types is decided. -/
theorem unambiguous_analyze_untypedSum :
    (Dialect.v3.functions.get? "operator+").map (fun set =>
        (undominated (applicable Dialect.v3.promotions set [.undefined, .undefined])).length)
      = some 2
      ∧ untypedSum.analyze.diagnostics.map (·.cause)
        = [.undeclaredIdentifier "y", .undeclaredIdentifier "y"]
      ∧ untypedSum.analyze.diagnostics.Unambiguous
      ∧ Dialect.v3.Decided (Dialect.v3.functions.get? "operator+") "operator+" [.int, .float] := by
  obtain ⟨hdecided, -, hprogram⟩ := unambiguous_analyze
  refine ⟨by decide +kernel, by decide +kernel, hprogram untypedSum, ?_⟩
  exact (hdecided .v3 "operator+" [.int, .float] (by decide)).1

end Tree.Program

end Cqasm
