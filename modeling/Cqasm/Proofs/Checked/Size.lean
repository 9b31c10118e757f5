import Cqasm.Proofs.Checked.Folding
import Mathlib.Algebra.Group.Nat.Defs
import Mathlib.Algebra.Ring.Int.Defs

/-!
# Sizes of 64 bits

The arithmetic of sizes, indices and numbers of iterations on 64-bit numbers. Written numbers are
signed; sizes and numbers of iterations are unsigned. A difference is taken modulo 2^64 and a sum
only if it is below that. The size of a type is an unsigned number to begin with, so it faults if it
is none; types that arise have such sizes.

* `Checked.unsigned?`, `Checked.distance`, `Checked.sum?` : the operations, with what they are as
  integers;
* `Checked.selected?` : the number of elements of an index, added up range by range;
* `Checked.registerSize`, `Checked.iterationCount`, `Checked.indexType` : the checks that use them.
-/

namespace Cqasm.Checked

open Typed (IndexRange)

/-! ## Numbers -/

/-- A size as an unsigned number. -/
def word (n : Nat) : Except Fault UInt64 :=
  if n ≤ IndexRange.maxSize then .ok (.ofNat n) else throw .wraps

/-- The unsigned number of the same value, if there is one. -/
def unsigned? (n : Int64) : Option UInt64 := if n < 0 then none else some n.toUInt64

/-- The unsigned number with the same bits, which has to have the same value. -/
def unsigned (n : Int64) : Except Fault UInt64 := if n < 0 then throw .wraps else .ok n.toUInt64

/-- The distance of two signed numbers. -/
def distance (m n : Int64) : UInt64 :=
  if m < n then n.toUInt64 - m.toUInt64 else m.toUInt64 - n.toUInt64

/-- The sum of two unsigned numbers, if it is one. -/
def sum? (m n : UInt64) : Option UInt64 :=
  if m.toNat + n.toNat < 2 ^ 64 then some (m + n) else none

theorem word_eq {n : Nat} (h : n ≤ IndexRange.maxSize) : word n = .ok (.ofNat n) := if_pos h

theorem toNat_word {n : Nat} (h : n ≤ IndexRange.maxSize) : (UInt64.ofNat n).toNat = n :=
  UInt64.toNat_ofNat_of_lt' (Nat.lt_succ_of_le h)

theorem lt_zero_iff {n : Int64} : n < 0 ↔ n.toInt < 0 := Int64.lt_iff_toInt_lt

/-- The bits of a signed number, read as an unsigned one. -/
theorem toNat_toUInt64 (n : Int64) :
    (n.toUInt64.toNat : Int) = if 0 ≤ n.toInt then n.toInt else n.toInt + 2 ^ 64 := by
  have hbits : n.toInt = if 2 * n.toUInt64.toNat < 2 ^ 64 then (n.toUInt64.toNat : Int)
      else n.toUInt64.toNat - 2 ^ 64 := BitVec.toInt_eq_toNat_cond n.toBitVec
  have hlt : n.toUInt64.toNat < 2 ^ 64 := n.toUInt64.toNat_lt
  rw [hbits]
  split <;> split <;> omega

theorem toNat_toUInt64_of_nonneg {n : Int64} (h : 0 ≤ n.toInt) :
    n.toUInt64.toNat = n.toInt.toNat := by
  have hbits := toNat_toUInt64 n
  rw [if_pos h] at hbits
  omega

theorem unsigned?_of_neg {n : Int64} (h : n.toInt < 0) : unsigned? n = none :=
  if_pos (lt_zero_iff.mpr h)

theorem unsigned?_of_nonneg {n : Int64} (h : 0 ≤ n.toInt) : unsigned? n = some n.toUInt64 :=
  if_neg (mt lt_zero_iff.mp (Int.not_lt.mpr h))

theorem unsigned_eq {n : Int64} (h : 0 ≤ n.toInt) : unsigned n = .ok n.toUInt64 :=
  if_neg (mt lt_zero_iff.mp (Int.not_lt.mpr h))

/-- From the smaller number to the larger one nothing is lost modulo 2^64. -/
theorem toNat_toUInt64_sub {m n : Int64} (h : m.toInt ≤ n.toInt) :
    ((n.toUInt64 - m.toUInt64).toNat : Int) = n.toInt - m.toInt := by
  have hm := toNat_toUInt64 m
  have hn := toNat_toUInt64 n
  have hmin := m.le_toInt
  have hmax := n.toInt_lt
  rw [UInt64.toNat_sub]
  split at hm <;> split at hn <;> omega

theorem toNat_distance (m n : Int64) : (distance m n).toNat = (m.toInt - n.toInt).natAbs := by
  unfold distance
  split
  · next h =>
    have hsub := toNat_toUInt64_sub (Int.le_of_lt (Int64.lt_iff_toInt_lt.mp h))
    omega
  · next h =>
    have hsub := toNat_toUInt64_sub (Int.not_lt.mp (mt Int64.lt_iff_toInt_lt.mpr h))
    omega

theorem sum?_of_lt {m n : UInt64} (h : m.toNat + n.toNat < 2 ^ 64) :
    ∃ k, sum? m n = some k ∧ k.toNat = m.toNat + n.toNat := by
  refine ⟨m + n, if_pos h, ?_⟩
  rw [UInt64.toNat_add, Nat.mod_eq_of_lt h]

theorem sum?_of_le {m n : UInt64} (h : 2 ^ 64 ≤ m.toNat + n.toNat) : sum? m n = none :=
  if_neg (Nat.not_lt.mpr h)

/-! ## The number of elements of an index -/

/-- The number of elements of the range. -/
def count? (range : IndexRange) : Option UInt64 := sum? (distance range.first range.last) 1

/-- The number of elements of the ranges and of those that were counted before. -/
def selected? (counted : UInt64) : List IndexRange → Option UInt64
  | [] => some counted
  | range :: ranges =>
    (count? range).bind fun count =>
      (sum? counted count).bind fun counted => selected? counted ranges

/-- The elements can be counted if and only if there are fewer than 2^64. -/
theorem toNat_selected? (counted : UInt64) (ranges : List IndexRange) :
    (selected? counted ranges).map UInt64.toNat
      = if counted.toNat + IndexRange.total ranges < 2 ^ 64
        then some (counted.toNat + IndexRange.total ranges) else none := by
  induction ranges generalizing counted with
  | nil => exact (if_pos counted.toNat_lt).symm
  | cons range ranges ih =>
    have hdistance := toNat_distance range.first range.last
    have hone : (1 : UInt64).toNat = 1 := rfl
    have hcount : (distance range.first range.last).toNat + (1 : UInt64).toNat = range.count := by
      rw [hdistance, hone, IndexRange.count]
    rw [selected?, count?, IndexRange.total]
    by_cases hrange : range.count < 2 ^ 64
    · obtain ⟨count, hsome, hvalue⟩ := sum?_of_lt (hcount.symm ▸ hrange)
      rw [hsome, Option.bind_some]
      by_cases hsum : counted.toNat + range.count < 2 ^ 64
      · obtain ⟨next, hnext, hnextValue⟩ := sum?_of_lt (m := counted) (n := count) (by omega)
        rw [hnext, Option.bind_some, ih, hnextValue, hvalue, hcount, Nat.add_assoc]
      · rw [sum?_of_le (by omega), if_neg (by omega)]
        rfl
    · rw [sum?_of_le (by omega), if_neg (by omega)]
      rfl

theorem toNat_selected?_zero (ranges : List IndexRange) :
    (selected? 0 ranges).map UInt64.toNat = IndexRange.total? ranges := by
  have hmax : IndexRange.total ranges ≤ IndexRange.maxSize ↔ IndexRange.total ranges < 2 ^ 64 :=
    Nat.lt_succ_iff.symm
  rw [toNat_selected?, UInt64.toNat_zero, Nat.zero_add]
  simp only [IndexRange.total?, hmax]

/-! ## Checks -/

/-- The size of a register that is declared with the size `e`. -/
def registerSize (table : SymbolTable) (e : Typed.Expr) : Checked (Option Nat) := do
  match ← constInteger table e with
  | none => pure none
  | some n =>
    if n ≤ 0 then
      table.report (.invalidRegisterSize n.toInt) e.loc
      pure none
    else
      pure ((unsigned? n).map UInt64.toNat)

/-- The number of iterations of a subcircuit that is written with the count `e`. -/
def iterationCount (table : SymbolTable) (e : Typed.Expr) : Checked (Option Nat) := do
  match ← constInteger table e with
  | none => pure none
  | some n =>
    if n < 0 then
      table.report (.invalidIterationCount n.toInt) e.loc
      pure none
    else
      let count ← unsigned n
      pure (some count.toNat)

/-- The first bound that is no element of a register of the given size. -/
def outside? (span : IndexSpan) (size : UInt64) : Option IndexBound :=
  [span.first, span.last].find? fun bound => (unsigned? bound.value).all (size ≤ ·)

/-- Records a diagnostic if an entry reaches outside the register. -/
def checkSpan (table : SymbolTable) (name : String) (size : UInt64) (span : IndexSpan) :
    Logged Unit :=
  match outside? span size with
  | none => pure ()
  | some bound => table.report (.indexOutOfRange name bound.value.toInt size.toNat) bound.loc

/-- Records a diagnostic for every entry that reaches outside the register. -/
def checkSpans (table : SymbolTable) (name : String) (size : UInt64) : List IndexSpan → Logged Unit
  | [] => pure ()
  | span :: spans => do
    checkSpan table name size span
    checkSpans table name size spans

/-- The type of an index into a reference of type `ty`. -/
def indexedTy (ty : Ty) (entries : List (Option IndexSpan)) : Ty :=
  match selected? 0 ((entries.filterMap id).map (·.range)) with
  | some count =>
    if entries.all (·.isSome) then (ty.resize? count.toNat).getD .undefined else .undefined
  | none => .undefined

/-- The type of an index into a target of type `ty`, whose entries are `entries`, none for one that
is not constant. -/
def indexType (table : SymbolTable) (name : String) (loc : Location) (ty : Ty)
    (entries : List (Option IndexSpan)) : Checked Ty := do
  if ty.isDefined then
    match ty.registerSize? with
    | none =>
      table.report (.notIndexable name) loc
      pure .undefined
    | some size =>
      let size ← word size
      checkSpans table name size (entries.filterMap id)
      pure (indexedTy ty entries)
  else
    pure .undefined

variable {table : SymbolTable}

theorem gives_constInteger (table : SymbolTable) (e : Typed.Expr) :
    (liftM (constInteger table e) : Checked (Option Int64)).Gives (table.constInteger e) := by
  rw [constInteger_eq]
  exact .lift _

theorem gives_registerSize (table : SymbolTable) (e : Typed.Expr) :
    (registerSize table e).Gives (table.registerSize e) := by
  refine .bind (gives_constInteger table e) ?_
  cases (table.constInteger e).value with
  | none => exact .pure _
  | some n =>
    have hle : n ≤ 0 ↔ ¬ 0 < n.toInt := Int64.le_iff_toInt_le.trans Int.not_lt.symm
    by_cases hpos : 0 < n.toInt
    · have hnonneg := Int.le_of_lt hpos
      simp only [if_neg fun h => hle.mp h hpos, if_pos hpos, unsigned?_of_nonneg hnonneg,
        Option.map_some, toNat_toUInt64_of_nonneg hnonneg]
      exact .pure _
    · simp only [if_pos (hle.mpr hpos), if_neg hpos]
      exact .bind (.lift _) (.pure _)

theorem gives_iterationCount (table : SymbolTable) (e : Typed.Expr) :
    (iterationCount table e).Gives (table.iterationCount e) := by
  refine .bind (gives_constInteger table e) ?_
  cases (table.constInteger e).value with
  | none => exact .pure _
  | some n =>
    by_cases hneg : n.toInt < 0
    · simp only [if_pos (lt_zero_iff.mpr hneg), if_neg (Int.not_le.mpr hneg)]
      exact .bind (.lift _) (.pure _)
    · have hnonneg := Int.not_lt.mp hneg
      simp only [if_neg (mt lt_zero_iff.mp hneg), if_pos hnonneg]
      refine .bind_lift (unsigned_eq hnonneg) ?_
      rw [toNat_toUInt64_of_nonneg hnonneg]
      exact .pure _

theorem outside?_eq (span : IndexSpan) {size : Nat} (h : size ≤ IndexRange.maxSize) :
    outside? span (.ofNat size) = span.outside? size := by
  unfold outside? IndexSpan.outside?
  congr 1
  funext bound
  by_cases hneg : bound.value.toInt < 0
  · simp [unsigned?_of_neg hneg, hneg]
  · have hnonneg := Int.not_lt.mp hneg
    rw [unsigned?_of_nonneg hnonneg, Option.all_some, Bool.eq_iff_iff]
    simp only [decide_eq_true_eq, Bool.or_eq_true, UInt64.le_iff_toNat_le, toNat_word h,
      toNat_toUInt64_of_nonneg hnonneg]
    omega

theorem checkSpan_eq (name : String) {size : Nat} (h : size ≤ IndexRange.maxSize)
    (span : IndexSpan) :
    checkSpan table name (.ofNat size) span = table.checkSpan name size span := by
  unfold checkSpan SymbolTable.checkSpan
  rw [outside?_eq span h]
  cases span.outside? size with
  | none => rfl
  | some bound => simp only [toNat_word h]

theorem checkSpans_eq (name : String) {size : Nat} (h : size ≤ IndexRange.maxSize)
    (spans : List IndexSpan) :
    checkSpans table name (.ofNat size) spans = table.checkSpans name size spans := by
  induction spans with
  | nil => rfl
  | cons span spans ih =>
    rw [checkSpans, SymbolTable.checkSpans, checkSpan_eq name h, ih]

theorem indexedTy_eq (ty : Ty) (entries : List (Option IndexSpan)) :
    indexedTy ty entries = Cqasm.indexedTy ty entries := by
  unfold indexedTy Cqasm.indexedTy
  simp only [← toNat_selected?_zero]
  cases selected? 0 ((entries.filterMap id).map (·.range)) with
  | none => simp
  | some count => rfl

theorem gives_indexType (name : String) (loc : Location) {ty : Ty}
    (h : ∀ size, ty.registerSize? = some size → size ≤ IndexRange.maxSize)
    (entries : List (Option IndexSpan)) :
    (indexType table name loc ty entries).Gives (table.indexType name loc ty entries) := by
  unfold indexType SymbolTable.indexType
  split
  · cases hsize : ty.registerSize? with
    | none => exact .bind (.lift _) (.pure _)
    | some size =>
      have hle := h size hsize
      refine .bind_lift (word_eq hle) ?_
      rw [checkSpans_eq name hle, indexedTy_eq]
      exact .bind (.lift _) (.pure _)
  · exact .pure _

end Cqasm.Checked
