import Cqasm.Analysis.Check
import Cqasm.Typed.IndexRange

/-!
# Checking an index

The entries of an index are constant bounds, a single element being a range from itself to itself.
Every entry has to lie inside the register. An index refers to as many elements as its ranges have
together; an element outside the register still counts, so that the instruction around it can be
resolved.
-/

namespace Cqasm

/-- A constant bound of an index and where it is written. -/
structure IndexBound where
  value : Int64
  loc : Location
deriving Repr, DecidableEq, Inhabited

/-- An entry of an index with constant bounds. -/
structure IndexSpan where
  first : IndexBound
  last : IndexBound
deriving Repr, DecidableEq, Inhabited

namespace IndexSpan

/-- The elements that the entry selects. -/
def range (span : IndexSpan) : Typed.IndexRange := ⟨span.first.value, span.last.value⟩

/-- The first bound that is no element of a register of the given size. -/
def outside? (span : IndexSpan) (size : Nat) : Option IndexBound :=
  [span.first, span.last].find? fun bound => bound.value.toInt < 0 || size ≤ bound.value.toInt

end IndexSpan

/-- The type of an index into a reference of type `ty`: if all entries are constant, the reference
of the same kind to as many elements as they select. -/
def indexedTy (ty : Ty) (entries : List (Option IndexSpan)) : Ty :=
  if entries.all (·.isSome) then
    let ranges := (entries.filterMap id).map (·.range)
    ((Typed.IndexRange.total? ranges).bind ty.resize?).getD .undefined
  else
    .undefined

namespace SymbolTable

/-- Records a diagnostic if an entry reaches outside the register. -/
def checkSpan (table : SymbolTable) (name : String) (size : Nat) (span : IndexSpan) : Logged Unit :=
  match span.outside? size with
  | none => pure ()
  | some bound => table.report (.indexOutOfRange name bound.value.toInt size) bound.loc

/-- Records a diagnostic for every entry that reaches outside the register. -/
def checkSpans (table : SymbolTable) (name : String) (size : Nat) : List IndexSpan → Logged Unit
  | [] => pure ()
  | span :: spans => do
    table.checkSpan name size span
    table.checkSpans name size spans

/-- The type of an index into a target of type `ty`, whose entries are `entries`, none for one that
is not constant. -/
def indexType (table : SymbolTable) (name : String) (loc : Location) (ty : Ty)
    (entries : List (Option IndexSpan)) : Logged Ty := do
  if ty.isDefined then
    match ty.registerSize? with
    | none =>
      table.report (.notIndexable name) loc
      pure .undefined
    | some size =>
      table.checkSpans name size (entries.filterMap id)
      pure (indexedTy ty entries)
  else
    pure .undefined

end SymbolTable

end Cqasm
