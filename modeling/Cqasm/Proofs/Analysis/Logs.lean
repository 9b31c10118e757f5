import Cqasm.Analysis.Stmt

/-!
# What each check records

For each check, the diagnostics that it may record, as the conditions under which all that it records
satisfies a predicate (`Logged.Forall`). What holds of all causes or of all locations is an instance,
so this is where the checks are taken apart, once for each of them.
-/

namespace Cqasm

/-- Everything that is recorded satisfies `q`. -/
def Logged.Forall {α : Type} (q : Diagnostic → Prop) (x : Logged α) : Prop := ∀ d ∈ x.log, q d

namespace Logged.Forall

variable {α β : Type} {q : Diagnostic → Prop}

theorem pure (a : α) : (Pure.pure a : Logged α).Forall q := fun _ h => absurd h List.not_mem_nil

theorem bind {x : Logged α} {f : α → Logged β} (hx : x.Forall q) (hf : (f x.value).Forall q) :
    (x >>= f).Forall q := List.forall_mem_append.mpr ⟨hx, hf⟩

theorem report {table : SymbolTable} {cause : Cause} {loc : Location}
    (h : q ⟨cause, loc, some table.dialect⟩) : (table.report cause loc).Forall q :=
  List.forall_mem_singleton.mpr h

end Logged.Forall

namespace SymbolTable

variable {table : SymbolTable} {q : Diagnostic → Prop}

theorem forall_resolveName {name : String} {loc : Location}
    (h : q ⟨.undeclaredIdentifier name, loc, some table.dialect⟩) :
    (table.resolveName name loc).Forall q := by
  unfold resolveName
  split
  · exact .pure _
  · exact .bind (.report h) (.pure _)

/-- An ambiguity is recorded only if resolution finds one among arguments that all have types. -/
theorem forall_resolveCall {unknown : Cause} {set : Option OverloadSet} {name : String}
    {args : List Ty} {loc : Location} (hunknown : q ⟨unknown, loc, some table.dialect⟩)
    (hmatch : ∀ name args, q ⟨.noMatchingOverload name args, loc, some table.dialect⟩)
    (hambiguous : ∀ name' candidates, (∀ t ∈ args, t ≠ .undefined) →
      resolve table.dialect.promotions set name args = .error (.ambiguous name' candidates) →
      q ⟨.ambiguousOverload name' candidates, loc, some table.dialect⟩) :
    (table.resolveCall unknown set name args loc).Forall q := by
  unfold resolveCall
  split
  · exact .pure _
  · exact .bind (.report hunknown) (.pure _)
  · exact .bind (.report (hmatch _ _)) (.pure _)
  · next hresolve =>
    split
    · next hdefined =>
      have hargs : ∀ t ∈ args, t ≠ .undefined := by simpa using hdefined
      exact .bind (.report (hambiguous _ _ hargs hresolve)) (.pure _)
    · exact .pure _

theorem forall_warnDeprecated {name : String} {o : Overload} {loc : Location}
    (h : ∀ replacement, q ⟨.deprecatedInstruction name replacement, loc, some table.dialect⟩) :
    (table.warnDeprecated name o loc).Forall q := by
  unfold warnDeprecated
  split
  · exact .pure _
  · exact .report (h _)

theorem forall_resolveInstruction {name : String} {args : List Ty} {loc : Location}
    (hunknown : q ⟨.unknownInstruction name, loc, some table.dialect⟩)
    (hmatch : ∀ name args, q ⟨.noMatchingOverload name args, loc, some table.dialect⟩)
    (hambiguous : ∀ name' candidates, (∀ t ∈ args, t ≠ .undefined) →
      resolve table.dialect.promotions (table.instruction? name) name args
        = .error (.ambiguous name' candidates) →
      q ⟨.ambiguousOverload name' candidates, loc, some table.dialect⟩)
    (hdeprecated : ∀ replacement,
      q ⟨.deprecatedInstruction name replacement, loc, some table.dialect⟩) :
    (table.resolveInstruction name args loc).Forall q := by
  unfold resolveInstruction
  refine .bind (forall_resolveCall hunknown hmatch hambiguous) ?_
  split
  · exact .pure _
  · exact .bind (forall_warnDeprecated hdeprecated) (.pure _)

theorem forall_checkConversion {e : Typed.Expr} {ty : Ty}
    (h : q ⟨.incompatibleTypes ty e.ty, e.loc, some table.dialect⟩) :
    (table.checkConversion e ty).Forall q := by
  unfold checkConversion
  split
  · exact .bind (.report h) (.pure _)
  · exact .pure _

theorem forall_checkConversions {ty : Ty} {es : List Typed.Expr}
    (h : ∀ e ∈ es, q ⟨.incompatibleTypes ty e.ty, e.loc, some table.dialect⟩) :
    (table.checkConversions ty es).Forall q := by
  induction es with
  | nil => exact .pure _
  | cons e es ih =>
    obtain ⟨he, hes⟩ := List.forall_mem_cons.mp h
    exact .bind (forall_checkConversion he) (.bind (ih hes) (.pure _))

theorem forall_constInteger {e : Typed.Expr}
    (h : q ⟨.expectedConstInteger, e.loc, some table.dialect⟩) :
    (table.constInteger e).Forall q := by
  unfold constInteger
  split
  · split
    · exact .pure _
    · exact .bind (.report h) (.pure _)
  · exact .pure _

/-- The natural number that is written as the constant `e`, if it satisfies `p`. Register sizes and
numbers of iterations are checked in this way. -/
def natural (table : SymbolTable) (p : Int → Prop) [DecidablePred p] (cause : Int → Cause)
    (e : Typed.Expr) : Logged (Option Nat) := do
  match ← table.constInteger e with
  | none => pure none
  | some n =>
    if p n.toInt then
      pure (some n.toInt.toNat)
    else
      table.report (cause n.toInt) e.loc
      pure none

theorem registerSize_eq_natural (table : SymbolTable) (e : Typed.Expr) :
    table.registerSize e = table.natural (0 < ·) .invalidRegisterSize e := rfl

theorem iterationCount_eq_natural (table : SymbolTable) (e : Typed.Expr) :
    table.iterationCount e = table.natural (0 ≤ ·) .invalidIterationCount e := rfl

theorem forall_natural {p : Int → Prop} [DecidablePred p] {cause : Int → Cause} {e : Typed.Expr}
    (hconst : q ⟨.expectedConstInteger, e.loc, some table.dialect⟩)
    (hcause : ∀ n, q ⟨cause n, e.loc, some table.dialect⟩) :
    (table.natural p cause e).Forall q := by
  unfold natural
  refine .bind (forall_constInteger hconst) ?_
  split
  · exact .pure _
  · split
    · exact .pure _
    · exact .bind (.report (hcause _)) (.pure _)

/-- For an entry that reaches outside of the register, one of its bounds is recorded. -/
theorem forall_checkSpan {name : String} {size : Nat} {span : IndexSpan}
    (h : ∀ bound ∈ [span.first, span.last],
      q ⟨.indexOutOfRange name bound.value.toInt size, bound.loc, some table.dialect⟩) :
    (table.checkSpan name size span).Forall q := by
  unfold checkSpan
  split
  · exact .pure _
  · next bound hbound => exact .report (h bound (List.mem_of_find?_eq_some hbound))

theorem forall_checkSpans {name : String} {size : Nat} {spans : List IndexSpan}
    (h : ∀ span ∈ spans, ∀ bound ∈ [span.first, span.last],
      q ⟨.indexOutOfRange name bound.value.toInt size, bound.loc, some table.dialect⟩) :
    (table.checkSpans name size spans).Forall q := by
  induction spans with
  | nil => exact .pure _
  | cons span spans ih =>
    obtain ⟨hspan, hspans⟩ := List.forall_mem_cons.mp h
    exact .bind (forall_checkSpan hspan) (ih hspans)

theorem forall_indexType {name : String} {loc : Location} {ty : Ty}
    {entries : List (Option IndexSpan)}
    (hindexable : q ⟨.notIndexable name, loc, some table.dialect⟩)
    (hrange : ∀ span, some span ∈ entries → ∀ bound ∈ [span.first, span.last], ∀ size,
      q ⟨.indexOutOfRange name bound.value.toInt size, bound.loc, some table.dialect⟩) :
    (table.indexType name loc ty entries).Forall q := by
  unfold indexType
  split
  · split
    · exact .bind (.report hindexable) (.pure _)
    · refine .bind (forall_checkSpans fun span hspan bound hbound => ?_) (.pure _)
      obtain ⟨entry, hentry, rfl : entry = some span⟩ := List.mem_filterMap.mp hspan
      exact hrange span hentry bound hbound _
  · exact .pure _

end SymbolTable

open SymbolTable

namespace Tree

variable {table : SymbolTable} {q : Diagnostic → Prop}

theorem forall_typedCall {name : String} {args : List Typed.Expr} {loc : Location}
    (hunknown : q ⟨.unknownFunction name, loc, some table.dialect⟩)
    (hmatch : ∀ name args, q ⟨.noMatchingOverload name args, loc, some table.dialect⟩)
    (hambiguous : ∀ name' candidates, (∀ t ∈ args.map (·.ty), t ≠ .undefined) →
      resolve table.dialect.promotions (table.function? name) name (args.map (·.ty))
        = .error (.ambiguous name' candidates) →
      q ⟨.ambiguousOverload name' candidates, loc, some table.dialect⟩) :
    (typedCall table name args loc).Forall q :=
  .bind (forall_resolveCall hunknown hmatch hambiguous) (.pure _)

theorem forall_typedAxis {elements : List Typed.Expr} {loc : Location}
    (hsize : ∀ size, q ⟨.invalidAxis size, loc, some table.dialect⟩)
    (htypes : ∀ e ∈ elements, q ⟨.incompatibleTypes .float e.ty, e.loc, some table.dialect⟩) :
    (typedAxis table elements loc).Forall q := by
  refine .bind ?_ (.bind (forall_checkConversions htypes) (.pure _))
  unfold checkAxisSize
  split
  · exact .pure _
  · exact .report (hsize _)

end Tree

namespace Analysis

variable {env : Env} {q : Diagnostic → Prop}

theorem forall_declareSymbol {symbol : Symbol}
    (h : q ⟨.duplicateDeclaration symbol.name, symbol.loc, some env.table.dialect⟩) :
    (declareSymbol symbol env).Forall q := by
  unfold declareSymbol
  split
  · exact .pure _
  · exact .bind (.report h) (.pure _)

theorem forall_nameSubcircuit {ident : Tree.Ident}
    (h : q ⟨.duplicateDeclaration ident.name, ident.loc, some env.table.dialect⟩) :
    (nameSubcircuit ident env).Forall q := by
  unfold nameSubcircuit
  split
  · exact .bind (.report h) (.pure _)
  · exact .pure _

theorem forall_checkConversion {e : Typed.Expr} {ty : Ty}
    (h : q ⟨.incompatibleTypes ty e.ty, e.loc, some env.table.dialect⟩) :
    (checkConversion e ty env).Forall q :=
  .bind (.bind (SymbolTable.forall_checkConversion h) (.pure _)) (.pure _)

end Analysis

namespace Tree.Stmt

variable {env : Env} {q : Diagnostic → Prop}

theorem forall_checkAssign {lhs rhs : Typed.Expr}
    (htypes : ∀ ty, q ⟨.incompatibleTypes ty rhs.ty, rhs.loc, some env.table.dialect⟩)
    (hassign : ∀ description, q ⟨.notAssignable description, lhs.loc, some env.table.dialect⟩) :
    (checkAssign lhs rhs env).Forall q := by
  unfold checkAssign
  split
  · split
    · exact .pure _
    · split
      · exact Analysis.forall_checkConversion (htypes _)
      · exact .bind (.report (hassign _)) (.pure _)
      · exact .bind (.report (hassign _)) (.pure _)
  · exact .pure _
  · exact .bind (.report (hassign _)) (.pure _)

theorem forall_checkLoopControl {control : LoopControl} {loc : Location}
    (h : q ⟨.loopControlOutsideLoop control.keyword, loc, some env.table.dialect⟩) :
    (checkLoopControl control loc env).Forall q := by
  unfold checkLoopControl
  split
  · exact .pure _
  · exact .bind (.report h) (.pure _)

end Tree.Stmt

end Cqasm
