import Cqasm.Proofs.Analysis.Check

/-!
# The entries of an index

An entry of an index has bounds if the expressions in it are constant integers; otherwise this is
recorded, after what is recorded in the expressions.

* `Tree.Expr.span?` : the bounds of an entry, if they are constant integers;
* `Tree.Expr.unconstant` : what is recorded about an expression that is none.
-/

namespace Cqasm

theorem SymbolTable.log_constInteger (table : SymbolTable) (e : Typed.Expr) :
    (table.constInteger e).log = if e.ty ≠ .undefined ∧ e.constInt? = none then
      [⟨.expectedConstInteger, e.loc, some table.dialect⟩] else [] := by
  unfold constInteger
  by_cases hty : e.ty = .undefined
  · simp [hty, Ty.isDefined]
  · rw [if_pos (Ty.isDefined_iff.mpr hty)]
    cases e.constInt? <;> simp [hty]

namespace Tree

/-- The expressions in an entry of an index. -/
def IndexEntry.exprs {α : Type} : IndexEntry α → List α
  | .item e => [e]
  | .range first last => [first, last]

namespace Expr

variable (table : SymbolTable)

/-- The value of a constant integer, and where it is written. -/
def bound? (e : Expr) : Option IndexBound :=
  (e.analyze table).value.constInt?.map fun n => ⟨n, e.loc⟩

/-- The bounds of an entry of an index, if they are constant integers. -/
def span? : IndexEntry Expr → Option IndexSpan
  | .item e => (bound? table e).map fun b => ⟨b, b⟩
  | .range first last => (bound? table first).bind fun b => (bound? table last).map fun b' => ⟨b, b'⟩

/-- What is recorded about an expression that has a type but is no constant integer. -/
def unconstant (e : Expr) : Diagnostics :=
  if (e.analyze table).value.ty ≠ .undefined ∧ bound? table e = none then
    [⟨.expectedConstInteger, e.loc, some table.dialect⟩]
  else
    []

theorem log_constInteger_analyze (e : Expr) :
    (table.constInteger (e.analyze table).value).log = unconstant table e := by
  simp [SymbolTable.log_constInteger, unconstant, bound?, loc_analyze]

/-- The bounds of an entry are constant if all of its expressions are. -/
theorem isSome_span? (entry : IndexEntry Expr) : (span? table entry).isSome = true
    ↔ ∀ e ∈ entry.exprs, (e.analyze table).value.constInt?.isSome = true := by
  cases entry with
  | item e => simp [span?, bound?, IndexEntry.exprs]
  | range first last =>
    rw [span?, bound?, bound?, IndexEntry.exprs, List.forall_mem_cons, List.forall_mem_singleton]
    cases (first.analyze table).value.constInt? with
    | none => simp
    | some m => cases (last.analyze table).value.constInt? <;> simp

theorem value_analyzeEntry (entry : IndexEntry Expr) :
    (analyzeEntry table entry).value = span? table entry := by
  cases entry with
  | item e =>
    rw [(analyzeEntry_item table e).1, SymbolTable.value_constInteger, loc_analyze, span?, bound?,
      Option.map_map]
    rfl
  | range first last =>
    rw [(analyzeEntry_range table first last).1, SymbolTable.value_constInteger,
      SymbolTable.value_constInteger, loc_analyze, loc_analyze, span?, bound?, bound?]
    cases (first.analyze table).value.constInt? with
    | none => rfl
    | some m => cases (last.analyze table).value.constInt? <;> rfl

theorem log_analyzeEntry (entry : IndexEntry Expr) :
    (analyzeEntry table entry).log
      = entry.exprs.flatMap (fun e => (e.analyze table).log)
        ++ entry.exprs.flatMap (unconstant table) := by
  cases entry with
  | item e =>
    rw [(analyzeEntry_item table e).2, log_constInteger_analyze]
    simp [IndexEntry.exprs]
  | range first last =>
    rw [(analyzeEntry_range table first last).2, log_constInteger_analyze, log_constInteger_analyze]
    simp [IndexEntry.exprs]

theorem value_analyzeEntries (entries : List (IndexEntry Expr)) :
    (analyzeEntries table entries).value = entries.map (span? table) := by
  rw [analyzeEntries_eq_map]
  exact List.map_congr_left fun entry _ => value_analyzeEntry table entry

theorem log_analyzeEntries (entries : List (IndexEntry Expr)) :
    (analyzeEntries table entries).log = entries.flatMap fun entry =>
      entry.exprs.flatMap (fun e => (e.analyze table).log)
        ++ entry.exprs.flatMap (unconstant table) := by
  induction entries with
  | nil => rfl
  | cons entry entries ih =>
    rw [(analyzeEntries_cons table entry entries).2, log_analyzeEntry, ih, List.flatMap_cons]

/-- The entries that are kept are the constant ones. -/
theorem filterMap_analyzeEntries (entries : List (IndexEntry Expr)) :
    (analyzeEntries table entries).value.filterMap id = entries.filterMap (span? table) := by
  rw [value_analyzeEntries, List.filterMap_map]
  rfl

end Expr

end Tree

end Cqasm
