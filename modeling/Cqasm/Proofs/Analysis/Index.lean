import Cqasm.Analysis.Index

/-!
# The type of an index

An index has the type of a reference to as many elements as it selects, unless an entry is not
constant or there are more elements than a reference can have.
-/

namespace Cqasm

open Typed.IndexRange (total total? maxSize)

theorem Ty.resize?_eq_none {ty : Ty} (h : ty.registerSize? = none) (size : Nat) :
    ty.resize? size = none := by
  cases ty <;> first | rfl | cases h

/-- The type of an index is in every case the one of its entries. -/
theorem SymbolTable.value_indexType (table : SymbolTable) (name : String) (loc : Location) (ty : Ty)
    (entries : List (Option IndexSpan)) :
    (table.indexType name loc ty entries).value = indexedTy ty entries := by
  have hnone (h : ty.registerSize? = none) : indexedTy ty entries = .undefined := by
    have hresize : ty.resize? = fun _ => none := funext (Ty.resize?_eq_none h)
    simp [indexedTy, hresize]
  unfold indexType
  split
  · split
    · next hsize => exact (hnone hsize).symm
    · rfl
  · next hundefined =>
    have hty : ty = .undefined := by simpa using hundefined
    exact (hnone (by rw [hty]; rfl)).symm

section

variable {ty : Ty} {entries : List (Option IndexSpan)}

theorem indexedTy_of_const (h : entries.all (·.isSome) = true) :
    indexedTy ty entries
      = ((total? ((entries.filterMap id).map (·.range))).bind ty.resize?).getD .undefined := if_pos h

theorem indexedTy_cases (ty : Ty) (entries : List (Option IndexSpan)) :
    indexedTy ty entries = .undefined
      ∨ total ((entries.filterMap id).map (·.range)) ≤ maxSize
        ∧ ty.resize? (total ((entries.filterMap id).map (·.range)))
          = some (indexedTy ty entries) := by
  by_cases hconst : entries.all (·.isSome) = true
  · rw [indexedTy_of_const hconst, total?]
    by_cases hmax : total ((entries.filterMap id).map (·.range)) ≤ maxSize
    · rw [if_pos hmax, Option.bind_some]
      cases ty.resize? (total ((entries.filterMap id).map (·.range))) with
      | none => exact Or.inl rfl
      | some u => exact Or.inr ⟨hmax, rfl⟩
    · rw [if_neg hmax]
      exact Or.inl rfl
  · exact Or.inl (if_neg hconst)

/-- An index into a reference has a type if and only if its entries are constant and select no more
elements than a reference can have. -/
theorem indexedTy_ne_undefined (hty : ty.isReference = true) :
    indexedTy ty entries ≠ .undefined ↔ entries.all (·.isSome) = true
      ∧ total ((entries.filterMap id).map (·.range)) ≤ maxSize := by
  by_cases hconst : entries.all (·.isSome) = true
  · rw [indexedTy_of_const hconst, and_iff_right hconst, total?]
    by_cases hmax : total ((entries.filterMap id).map (·.range)) ≤ maxSize
    · rw [if_pos hmax, Option.bind_some]
      refine iff_of_true ?_ hmax
      cases ty with
      | qubit size => exact fun h => by cases h
      | bit size => exact fun h => by cases h
      | _ => cases hty
    · rw [if_neg hmax]
      exact iff_of_false (fun h => h rfl) hmax
  · refine iff_of_false (fun h => h (if_neg hconst)) fun h => hconst h.1

end

end Cqasm
