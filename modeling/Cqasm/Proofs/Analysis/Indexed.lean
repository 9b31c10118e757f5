import Cqasm.Proofs.Analysis.Entries
import Cqasm.Proofs.Analysis.Index
import Cqasm.Proofs.Typed.Elements

/-!
# Indexed operands

An index has the type of a reference to as many elements as its ranges have, inside of the register or
not, if its target is a reference and its entries are constant (`ty_analyze_index`). Of the entries
each one that has an element outside of the register is reported once, at its first bound that is
outside, and no other one is (`log_analyze_index`). Only the bounds are looked at, and the elements
are never written out.

* `IndexSpan.FirstOutside` : the first bound of an entry that is outside of a register;
* `Overruns` : the diagnostics about entries that have elements outside of a register.
-/

namespace Cqasm

open Typed (IndexRange)

open Typed.IndexRange (Outside expand walk maxSize total)

/-! ## Types -/

section

variable {ty : Ty} {entries : List (Option IndexSpan)}

/-- The type of an index is a reference of a kind if and only if the target has this kind and the
entries are constant; and its size is the number of their elements. -/
theorem indexedTy_eq_iff {ref : Nat → Ty} (href : ref = .qubit ∨ ref = .bit) (size : Nat) :
    indexedTy ty entries = ref size
      ↔ (∃ n, ty = ref n) ∧ entries.all (·.isSome) = true
        ∧ total ((entries.filterMap id).map (·.range)) = size ∧ size ≤ maxSize := by
  have hresize (n m : Nat) : (ref n).resize? m = some (ref m) := by
    rcases href with rfl | rfl <;> rfl
  have hkind {m : Nat} (h : ty.resize? m = some (ref size)) : (∃ n, ty = ref n) ∧ m = size := by
    rcases href with rfl | rfl <;> cases ty <;> simp_all [Ty.resize?]
  constructor
  · intro h
    have hdefined : indexedTy ty entries ≠ .undefined := by
      rw [h]
      rcases href with rfl | rfl <;> exact Ty.noConfusion
    obtain ⟨hmax, hty⟩ := (indexedTy_cases ty entries).resolve_left hdefined
    rw [h] at hty
    obtain ⟨htarget, rfl⟩ := hkind hty
    refine ⟨htarget, ?_, rfl, hmax⟩
    by_contra hconst
    exact hdefined (if_neg hconst)
  · rintro ⟨⟨n, rfl⟩, hconst, rfl, hmax⟩
    rw [indexedTy_of_const hconst, IndexRange.total?, if_pos hmax, Option.bind_some, hresize]
    rfl

/-- All of the 64-bit integers are one element too many. -/
example (n : Nat) (loc : Location) :
    indexedTy (.qubit n) [some ⟨⟨Int64.minValue, loc⟩, ⟨Int64.maxValue, loc⟩⟩] = .undefined := rfl

/-- The type of an index is a reference or undefined. -/
theorem indexedTy_kinds (ty : Ty) (entries : List (Option IndexSpan)) :
    indexedTy ty entries = .undefined
      ∨ ∃ size, indexedTy ty entries = .qubit size ∨ indexedTy ty entries = .bit size := by
  rcases indexedTy_cases ty entries with h | ⟨-, h⟩
  · exact Or.inl h
  · refine Or.inr ⟨total ((entries.filterMap id).map (·.range)), ?_⟩
    cases ty with
    | qubit n => exact Or.inl (Option.some.inj h).symm
    | bit n => exact Or.inr (Option.some.inj h).symm
    | _ => cases h

end

namespace Tree.Expr

variable (table : SymbolTable) (target : Ident) (entries : List (IndexEntry Expr)) (loc : Location)

/-- **An index refers to the elements it selects.** The type of an index is a reference to qubits, or
to bits, if and only if its target is one, all entries are constant and they have no more elements
than a reference can have. The size is the number of elements that one meets walking through the
ranges of the index, whether or not they are in the register. In every other case the type is
undefined. -/
theorem ty_analyze_index : ∃ note symbol ranges,
    ((index target entries loc).analyze table).value = .index note symbol ranges
      ∧ ranges = (entries.filterMap (span? table)).map (·.range)
      ∧ expand ranges = ranges.flatMap walk
      ∧ (∀ size, note.ty = .qubit size
        ↔ (∃ n, SymbolRecord.tyOf (table.lookup target.name) = .qubit n)
          ∧ (∀ entry ∈ entries, ∀ e ∈ entry.exprs,
            (e.analyze table).value.constInt?.isSome = true)
          ∧ (expand ranges).length = size ∧ size ≤ maxSize)
      ∧ (∀ size, note.ty = .bit size
        ↔ (∃ n, SymbolRecord.tyOf (table.lookup target.name) = .bit n)
          ∧ (∀ entry ∈ entries, ∀ e ∈ entry.exprs,
            (e.analyze table).value.constInt?.isSome = true)
          ∧ (expand ranges).length = size ∧ size ≤ maxSize)
      ∧ (note.ty = .undefined ∨ ∃ size, note.ty = .qubit size ∨ note.ty = .bit size) := by
  have hconst : (analyzeEntries table entries).value.all (·.isSome) = true
      ↔ ∀ entry ∈ entries, ∀ e ∈ entry.exprs,
        (e.analyze table).value.constInt?.isSome = true := by
    rw [value_analyzeEntries, List.all_map, List.all_eq_true]
    exact forall₂_congr fun entry _ => isSome_span? table entry
  refine ⟨_, _, _, (analyze_index table target entries loc).1, ?_, IndexRange.expand_eq_walk _, ?_,
    ?_, ?_⟩
  · rw [filterMap_analyzeEntries]
  · intro size
    rw [SymbolTable.value_indexType, SymbolTable.ty_resolveName, indexedTy_eq_iff (Or.inl rfl),
      hconst, IndexRange.length_expand]
  · intro size
    rw [SymbolTable.value_indexType, SymbolTable.ty_resolveName, indexedTy_eq_iff (Or.inr rfl),
      hconst, IndexRange.length_expand]
  · rw [SymbolTable.value_indexType]
    exact indexedTy_kinds _ _

/-- `q[2:0, 1]` refers to four qubits, although the register has three. -/
example :
    let table := (SymbolTable.new .v3).bindCurrent ⟨"q", .qubitRegister, .qubit 3, ⟨1, 7⟩⟩
    let entries := [.range (int ⟨2, 3⟩ 2) (int ⟨2, 5⟩ 0), .item (int ⟨2, 8⟩ 1)]
    ((index ⟨"q", ⟨2, 1⟩⟩ entries ⟨2, 1⟩).analyze table).value.ty = .qubit 4 := rfl

end Tree.Expr

/-! ## Bounds -/

namespace IndexSpan

/-- The bound is the first one of the entry that is outside of a register of the given size. -/
structure FirstOutside (span : IndexSpan) (size : Nat) (bound : IndexBound) : Prop where
  selected : bound.value.toInt ∈ span.range.elements
  outside : Outside size bound.value.toInt
  first : bound = span.first ∨ bound = span.last ∧ ¬ Outside size span.first.value.toInt

variable {span : IndexSpan} {size : Nat} {bound : IndexBound}

theorem outside?_eq_some (h : span.outside? size = some bound) : span.FirstOutside size bound := by
  have hfirst : span.first.value.toInt ∈ span.range.elements :=
    IndexRange.mem_elements.mpr (by simp only [range]; omega)
  have hlast : span.last.value.toInt ∈ span.range.elements :=
    IndexRange.mem_elements.mpr (by simp only [range]; omega)
  unfold outside? at h
  by_cases hout : Outside size span.first.value.toInt
  · rw [List.find?_cons_of_pos (by simpa [Outside] using hout)] at h
    cases h
    exact ⟨hfirst, hout, Or.inl rfl⟩
  · rw [List.find?_cons_of_neg (by simpa [Outside] using hout)] at h
    obtain rfl := List.mem_singleton.mp (List.mem_of_find?_eq_some h)
    exact ⟨hlast, by simpa [Outside] using List.find?_some h, Or.inr ⟨rfl, hout⟩⟩

/-- The bounds of an entry are inside if and only if all of its elements are. -/
theorem outside?_eq_none_iff :
    span.outside? size = none ↔ ¬ ∃ e ∈ span.range.elements, Outside size e := by
  rw [IndexRange.exists_outside_iff]
  simp [outside?, range, Outside]

end IndexSpan

/-- The diagnostics about entries that have elements outside of the register `name`: for each of them
one, about its first bound that is outside. -/
inductive Overruns (table : SymbolTable) (name : String) (size : Nat) :
    List IndexSpan → Diagnostics → Prop
  | nil : Overruns table name size [] []
  | inside {span : IndexSpan} {spans : List IndexSpan} {log : Diagnostics} :
      (∀ e ∈ span.range.elements, ¬ Outside size e) → Overruns table name size spans log →
      Overruns table name size (span :: spans) log
  | outside {span : IndexSpan} {spans : List IndexSpan} {log : Diagnostics} {bound : IndexBound} :
      span.FirstOutside size bound → Overruns table name size spans log →
      Overruns table name size (span :: spans)
        (⟨.indexOutOfRange name bound.value.toInt size, bound.loc, some table.dialect⟩ :: log)

namespace SymbolTable

variable (table : SymbolTable) (name : String)

theorem overruns_checkSpans (size : Nat) (spans : List IndexSpan) :
    Overruns table name size spans (table.checkSpans name size spans).log := by
  induction spans with
  | nil => exact .nil
  | cons span spans ih =>
    rw [checkSpans, Logged.log_bind, checkSpan]
    cases h : span.outside? size with
    | none =>
      have hinside := IndexSpan.outside?_eq_none_iff.mp h
      exact .inside (fun e hmem hout => hinside ⟨e, hmem, hout⟩) ih
    | some bound => exact .outside (IndexSpan.outside?_eq_some h) ih

theorem log_indexType (loc : Location) (ty : Ty) (entries : List (Option IndexSpan)) :
    (table.indexType name loc ty entries).log = match ty with
      | .qubit size | .bit size => (table.checkSpans name size (entries.filterMap id)).log
      | .undefined => []
      | _ => [⟨.notIndexable name, loc, some table.dialect⟩] := by
  cases ty with
  | qubit size => exact List.append_nil _
  | bit size => exact List.append_nil _
  | _ => rfl

end SymbolTable

namespace Tree.Expr

variable (table : SymbolTable) (target : Ident) (entries : List (IndexEntry Expr)) (loc : Location)

/-- **Every entry that leaves the register is reported once.** What is recorded in an index is what
is recorded about its target and about the expressions in its entries, and after that, in a reference,
for each constant entry with an element outside of it one diagnostic about the first bound that
is outside, and none for the other entries. A target of another type is reported once instead, and
one of undefined type is not. -/
theorem log_analyze_index : ∃ own : Diagnostics,
    ((index target entries loc).analyze table).log
        = (table.resolveName target.name target.loc).log
          ++ entries.flatMap (fun entry =>
            entry.exprs.flatMap (fun e => (e.analyze table).log)
              ++ entry.exprs.flatMap (unconstant table))
          ++ own
      ∧ match SymbolRecord.tyOf (table.lookup target.name) with
        | .qubit size | .bit size =>
          Overruns table target.name size (entries.filterMap (span? table)) own
        | .undefined => own = []
        | _ => own = [⟨.notIndexable target.name, target.loc, some table.dialect⟩] := by
  have hlog := (analyze_index table target entries loc).2
  rw [log_analyzeEntries] at hlog
  refine ⟨_, hlog, ?_⟩
  rw [SymbolTable.log_indexType, SymbolTable.ty_resolveName, filterMap_analyzeEntries]
  cases SymbolRecord.tyOf (table.lookup target.name) with
  | qubit size => exact table.overruns_checkSpans target.name size _
  | bit size => exact table.overruns_checkSpans target.name size _
  | _ => rfl

/-- In `q[3:1, 0, -1]` the first bound of the first entry and the last entry are outside of a register
of three qubits. -/
example :
    let table := (SymbolTable.new .v3).bindCurrent ⟨"q", .qubitRegister, .qubit 3, ⟨1, 7⟩⟩
    let entries := [.range (int ⟨2, 3⟩ 3) (int ⟨2, 5⟩ 1), .item (int ⟨2, 8⟩ 0),
      .item (unary .neg (int ⟨2, 12⟩ 1) ⟨2, 11⟩)]
    ((index ⟨"q", ⟨2, 1⟩⟩ entries ⟨2, 1⟩).analyze table).log
      = [⟨.indexOutOfRange "q" 3 3, ⟨2, 3⟩, some .v3⟩,
        ⟨.indexOutOfRange "q" (-1) 3, ⟨2, 11⟩, some .v3⟩] := by
  decide

end Tree.Expr

end Cqasm
