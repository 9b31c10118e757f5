import Cqasm.Dialect.Basic

/-!
# What is in the tables of overloads

A table is built by adding overloads one after the other, so what holds of all of them holds of every
set of the table (`forall_get?_ofList`). Every function of a dialect gives a classical value
(`scalar_of_get?`), and the parameters of functions and instructions all have types. All names of
cQASM 1.x are registered in lower case, so its tables group them as they are written
(`functions_v1`, `instructions_v1`).
-/

namespace Cqasm

namespace OverloadTable

variable {p : Overload → Prop}

theorem forall_addAt {entries : List (String × OverloadSet)} {o : Overload}
    (h : ∀ entry ∈ entries, ∀ other ∈ entry.2.overloads, p other) (ho : p o) (key : String) :
    ∀ entry ∈ addAt key o entries, ∀ other ∈ entry.2.overloads, p other := by
  induction entries with
  | nil => simpa [addAt] using ho
  | cons entry rest ih =>
    obtain ⟨hentry, hrest⟩ := List.forall_mem_cons.mp h
    rw [addAt]
    split
    · refine List.forall_mem_cons.mpr ⟨?_, hrest⟩
      rw [OverloadSet.overloads_add]
      intro other hmem
      rcases List.mem_append.mp hmem with hmem | hmem
      · exact hentry other hmem
      · rw [List.mem_singleton.mp hmem]
        exact ho
    · exact List.forall_mem_cons.mpr ⟨hentry, ih hrest⟩

theorem forall_foldl_add {overloads : List Overload} (h : ∀ o ∈ overloads, p o)
    {table : OverloadTable} (htable : ∀ entry ∈ table.entries, ∀ o ∈ entry.2.overloads, p o) :
    ∀ entry ∈ (overloads.foldl add table).entries, ∀ o ∈ entry.2.overloads, p o := by
  induction overloads generalizing table with
  | nil => exact htable
  | cons o overloads ih =>
    obtain ⟨ho, hrest⟩ := List.forall_mem_cons.mp h
    exact ih hrest (forall_addAt htable ho _)

/-- What holds of all overloads that a table is made of holds of those in each of its sets. -/
theorem forall_get?_ofList {rule : CaseRule} {overloads : List Overload} (h : ∀ o ∈ overloads, p o)
    {name : String} {set : OverloadSet} (hset : (ofList rule overloads).get? name = some set) :
    ∀ o ∈ set.overloads, p o := by
  obtain ⟨entry, hentry, rfl⟩ := Option.map_eq_some_iff.mp hset
  have hnew : ∀ entry ∈ (empty rule).entries, ∀ o ∈ entry.2.overloads, p o :=
    fun _ hmem => absurd hmem List.not_mem_nil
  exact forall_foldl_add h hnew entry (List.mem_of_find?_eq_some hentry)

end OverloadTable

/-- The result has a type. -/
def Overload.Typed (o : Overload) : Prop := o.result ≠ .undefined

namespace Builtin

theorem scalar_functionsWith {names : List (String × String)} {signatures : List (List Ty × Ty)}
    (h : ∀ sig ∈ signatures, sig.2.isScalar = true) :
    ∀ o ∈ functionsWith names signatures, o.result.isScalar = true := by
  intro o hmem
  obtain ⟨name, -, hmem⟩ := List.mem_flatMap.mp hmem
  obtain ⟨sig, hsig, rfl⟩ := List.mem_map.mp hmem
  exact h sig hsig

theorem scalar_functions : ∀ o ∈ functions, o.result.isScalar = true := by
  unfold functions
  simp only [List.forall_mem_append]
  and_intros
  all_goals
    apply scalar_functionsWith
    decide

theorem scalar_complexFunctions : ∀ o ∈ complexFunctions, o.result.isScalar = true := by
  unfold complexFunctions
  simp only [List.forall_mem_append]
  and_intros
  all_goals
    apply scalar_functionsWith
    decide

end Builtin

/-- The result of a function or operator is a classical value. -/
theorem Dialect.scalar_of_get? {dialect : Dialect} {name : String} {set : OverloadSet}
    (hset : dialect.functions.get? name = some set) :
    ∀ o ∈ set.overloads, o.result.isScalar = true := by
  cases dialect with
  | v1 =>
    rw [functions, functionTable1] at hset
    exact OverloadTable.forall_get?_ofList
      (List.forall_mem_append.mpr ⟨Builtin.scalar_functions, Builtin.scalar_complexFunctions⟩) hset
  | v3 =>
    rw [functions, functionTable3] at hset
    exact OverloadTable.forall_get?_ofList Builtin.scalar_functions hset

/-- The result of a function or operator has a type. -/
theorem Dialect.typed_of_get? {dialect : Dialect} {name : String} {set : OverloadSet}
    (hset : dialect.functions.get? name = some set) : ∀ o ∈ set.overloads, o.Typed := by
  intro o hmem hundefined
  have hscalar := scalar_of_get? hset o hmem
  rw [hundefined] at hscalar
  cases hscalar

/-! ## Parameters -/

namespace Builtin

theorem params_functions :
    ∀ o ∈ functions ++ complexFunctions, ∀ t ∈ o.params, t ≠ .undefined := by
  decide +kernel

theorem params_instructions :
    ∀ o ∈ instructions1 ++ instructions3, ∀ t ∈ o.params, t ≠ .undefined := by
  decide +kernel

end Builtin

namespace Dialect

variable {dialect : Dialect} {name : String} {set : OverloadSet}

/-- The parameters of a function or operator have types. -/
theorem params_of_function? (hset : dialect.functions.get? name = some set) :
    ∀ o ∈ set.overloads, ∀ t ∈ o.params, t ≠ .undefined := by
  cases dialect with
  | v1 =>
    rw [functions, functionTable1] at hset
    exact OverloadTable.forall_get?_ofList Builtin.params_functions hset
  | v3 =>
    rw [functions, functionTable3] at hset
    exact OverloadTable.forall_get?_ofList
      (List.forall_mem_append.mp Builtin.params_functions).1 hset

/-- The parameters of an instruction have types. -/
theorem params_of_instruction? (hset : dialect.instructions.get? name = some set) :
    ∀ o ∈ set.overloads, ∀ t ∈ o.params, t ≠ .undefined := by
  obtain ⟨h1, h3⟩ := List.forall_mem_append.mp Builtin.params_instructions
  cases dialect with
  | v1 =>
    rw [instructions, instructionTable1] at hset
    exact OverloadTable.forall_get?_ofList h1 hset
  | v3 =>
    rw [instructions, instructionTable3] at hset
    exact OverloadTable.forall_get?_ofList h3 hset

end Dialect

/-! ## Names in lower case -/

namespace OverloadTable

theorem entries_foldl_add_insensitive {overloads : List Overload}
    (h : ∀ o ∈ overloads, Text.lowerCase o.name = o.name) (entries : List (String × OverloadSet)) :
    (overloads.foldl add ⟨.insensitive, entries⟩).entries
      = (overloads.foldl add ⟨.sensitive, entries⟩).entries := by
  induction overloads generalizing entries with
  | nil => rfl
  | cons o overloads ih =>
    obtain ⟨ho, hrest⟩ := List.forall_mem_cons.mp h
    rw [List.foldl_cons, List.foldl_cons, add, add, CaseRule.key, CaseRule.key, ho]
    exact ih hrest _

/-- Overloads whose names are in lower case are grouped as if case mattered. -/
theorem ofList_insensitive {overloads : List Overload}
    (h : ∀ o ∈ overloads, Text.lowerCase o.name = o.name) :
    ofList .insensitive overloads = ⟨.insensitive, (ofList .sensitive overloads).entries⟩ := by
  have hentries : (ofList .insensitive overloads).entries = (ofList .sensitive overloads).entries :=
    entries_foldl_add_insensitive h []
  calc ofList .insensitive overloads
      = ⟨(ofList .insensitive overloads).caseRule, (ofList .insensitive overloads).entries⟩ := rfl
    _ = ⟨.insensitive, (ofList .sensitive overloads).entries⟩ := by
      rw [caseRule_ofList, hentries]

end OverloadTable

namespace Builtin

theorem lowerCase_functionsWith {names : List (String × String)} {signatures : List (List Ty × Ty)}
    (h : ∀ name ∈ names, Text.lowerCase name.1 = name.1) :
    ∀ o ∈ functionsWith names signatures, Text.lowerCase o.name = o.name := by
  intro o hmem
  obtain ⟨name, hname, hmem⟩ := List.mem_flatMap.mp hmem
  obtain ⟨sig, -, rfl⟩ := List.mem_map.mp hmem
  exact h name hname

theorem lowerCase_functions :
    ∀ o ∈ functions ++ complexFunctions, Text.lowerCase o.name = o.name := by
  unfold functions complexFunctions
  simp only [List.forall_mem_append]
  and_intros
  all_goals
    apply lowerCase_functionsWith
    decide +kernel

theorem lowerCase_instructions1 : ∀ o ∈ instructions1, Text.lowerCase o.name = o.name := by
  decide +kernel

end Builtin

namespace Dialect

theorem functions_v1 : v1.functions
    = ⟨.insensitive,
      (OverloadTable.ofList .sensitive (Builtin.functions ++ Builtin.complexFunctions)).entries⟩ :=
  OverloadTable.ofList_insensitive Builtin.lowerCase_functions

theorem instructions_v1 : v1.instructions
    = ⟨.insensitive, (OverloadTable.ofList .sensitive Builtin.instructions1).entries⟩ :=
  OverloadTable.ofList_insensitive Builtin.lowerCase_instructions1

end Dialect

end Cqasm
