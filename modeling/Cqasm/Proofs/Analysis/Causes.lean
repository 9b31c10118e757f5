import Cqasm.Proofs.Analysis.Logs

/-!
# What each check may record

For each check, the causes of the diagnostics that it may record, as the conditions under which all
causes it records satisfy a predicate (`Logged.Causes`).
-/

namespace Cqasm

/-- Everything that is recorded has a cause that satisfies `p`. -/
def Logged.Causes {α : Type} (p : Cause → Prop) (x : Logged α) : Prop := ∀ d ∈ x.log, p d.cause

namespace Logged.Causes

variable {α β : Type} {p : Cause → Prop}

theorem pure (a : α) : (Pure.pure a : Logged α).Causes p := Forall.pure a

theorem bind {x : Logged α} {f : α → Logged β} (hx : x.Causes p) (hf : (f x.value).Causes p) :
    (x >>= f).Causes p := Forall.bind hx hf

end Logged.Causes

open Logged (Causes)

namespace SymbolTable

variable {table : SymbolTable} {p : Cause → Prop}

theorem causes_resolveName {name : String} {loc : Location} (h : p (.undeclaredIdentifier name)) :
    (table.resolveName name loc).Causes p := forall_resolveName h

/-- An ambiguity is recorded only if resolution finds one among arguments that all have types. -/
theorem causes_resolveCall {unknown : Cause} {set : Option OverloadSet} {name : String}
    {args : List Ty} {loc : Location} (hunknown : p unknown)
    (hmatch : ∀ name args, p (.noMatchingOverload name args))
    (hambiguous : ∀ name' candidates, (∀ t ∈ args, t ≠ .undefined) →
      resolve table.dialect.promotions set name args = .error (.ambiguous name' candidates) →
      p (.ambiguousOverload name' candidates)) :
    (table.resolveCall unknown set name args loc).Causes p :=
  forall_resolveCall hunknown hmatch hambiguous

theorem causes_warnDeprecated {name : String} {o : Overload} {loc : Location}
    (h : ∀ replacement, p (.deprecatedInstruction name replacement)) :
    (table.warnDeprecated name o loc).Causes p := forall_warnDeprecated h

theorem causes_resolveInstruction {name : String} {args : List Ty} {loc : Location}
    (hunknown : p (.unknownInstruction name))
    (hmatch : ∀ name args, p (.noMatchingOverload name args))
    (hambiguous : ∀ name' candidates, (∀ t ∈ args, t ≠ .undefined) →
      resolve table.dialect.promotions (table.instruction? name) name args
        = .error (.ambiguous name' candidates) → p (.ambiguousOverload name' candidates))
    (hdeprecated : ∀ replacement, p (.deprecatedInstruction name replacement)) :
    (table.resolveInstruction name args loc).Causes p :=
  forall_resolveInstruction hunknown hmatch hambiguous hdeprecated

theorem causes_checkConversion {e : Typed.Expr} {ty : Ty}
    (h : ∀ expected found, p (.incompatibleTypes expected found)) :
    (table.checkConversion e ty).Causes p := forall_checkConversion (h _ _)

theorem causes_constInteger {e : Typed.Expr} (h : p .expectedConstInteger) :
    (table.constInteger e).Causes p := forall_constInteger h

theorem causes_natural {q : Int → Prop} [DecidablePred q] {cause : Int → Cause} {e : Typed.Expr}
    (hconst : p .expectedConstInteger) (hcause : ∀ n, p (cause n)) :
    (table.natural q cause e).Causes p := forall_natural hconst hcause

theorem causes_indexType {name : String} {loc : Location} {ty : Ty}
    {entries : List (Option IndexSpan)} (hindexable : p (.notIndexable name))
    (hrange : ∀ index size, p (.indexOutOfRange name index size)) :
    (table.indexType name loc ty entries).Causes p :=
  forall_indexType hindexable fun _ _ _ _ _ => hrange _ _

end SymbolTable

namespace Tree

variable {table : SymbolTable} {p : Cause → Prop}

theorem causes_typedCall {name : String} {args : List Typed.Expr} {loc : Location}
    (hunknown : p (.unknownFunction name)) (hmatch : ∀ name args, p (.noMatchingOverload name args))
    (hambiguous : ∀ name' candidates, (∀ t ∈ args.map (·.ty), t ≠ .undefined) →
      resolve table.dialect.promotions (table.function? name) name (args.map (·.ty))
        = .error (.ambiguous name' candidates) → p (.ambiguousOverload name' candidates)) :
    (typedCall table name args loc).Causes p := forall_typedCall hunknown hmatch hambiguous

theorem causes_typedAxis {elements : List Typed.Expr} {loc : Location}
    (hsize : ∀ size, p (.invalidAxis size))
    (htypes : ∀ expected found, p (.incompatibleTypes expected found)) :
    (typedAxis table elements loc).Causes p := forall_typedAxis hsize fun _ _ => htypes _ _

end Tree

namespace Analysis

variable {env : Env} {p : Cause → Prop}

theorem causes_declareSymbol {symbol : Symbol} (h : p (.duplicateDeclaration symbol.name)) :
    (declareSymbol symbol env).Causes p := forall_declareSymbol h

theorem causes_nameSubcircuit {ident : Tree.Ident} (h : p (.duplicateDeclaration ident.name)) :
    (nameSubcircuit ident env).Causes p := forall_nameSubcircuit h

end Analysis

namespace Tree.Stmt

variable {env : Env} {p : Cause → Prop}

theorem causes_checkAssign {lhs rhs : Typed.Expr}
    (htypes : ∀ expected found, p (.incompatibleTypes expected found))
    (hassign : ∀ description, p (.notAssignable description)) :
    (checkAssign lhs rhs env).Causes p := forall_checkAssign (fun _ => htypes _ _) hassign

theorem causes_checkLoopControl {control : LoopControl} {loc : Location}
    (h : p (.loopControlOutsideLoop control.keyword)) :
    (checkLoopControl control loc env).Causes p := forall_checkLoopControl h

end Tree.Stmt

end Cqasm
