import Cqasm.Proofs.Analysis.Constant
import Cqasm.Proofs.Analysis.Entries
import Cqasm.Proofs.Typed.Consistent
import Cqasm.Proofs.Dialect.Tables
import Cqasm.Typed.Resolution

/-!
# Resolved expressions

Without an error, an expression is resolved if and only if every index in it selects no more elements
than a reference can have (`resolved_expr`): an index with more has no type although no error is
recorded about it, and the calls around it pass as well.

* `Resolved` : outcomes of resolution none of which is in error;
* `Tree.selected` : the number of elements that an index selects;
* `Tree.Expr.Sized` : every index selects no more elements than a reference can have;
* `SymbolTable.Defined` : all symbols have types.
-/

namespace Cqasm

/-! ## Outcomes -/

namespace Typed

/-- The outcome is not in error. -/
def Resolution.Succeeds : Resolution → Prop
  | symbol ref => ∃ id, ref = .ok id
  | call _ overload => overload.isSome = true
  | expr e => e.ty ≠ .undefined

/-- None of the outcomes is in error. -/
def Resolved (rs : List Resolution) : Prop := ∀ r ∈ rs, r.Succeeds

theorem resolved_nil : Resolved [] := fun _ hmem => absurd hmem List.not_mem_nil

theorem resolved_cons {r : Resolution} {rs : List Resolution} :
    Resolved (r :: rs) ↔ r.Succeeds ∧ Resolved rs := List.forall_mem_cons

theorem resolved_append {rs rs' : List Resolution} :
    Resolved (rs ++ rs') ↔ Resolved rs ∧ Resolved rs' := List.forall_mem_append

theorem Resolution.succeeds_iff (r : Resolution) :
    r.Succeeds
      ↔ r.isSymbolError = false ∧ r.isUnresolvedCall = false ∧ r.isUndefinedType = false := by
  cases r with
  | symbol ref => cases ref <;> simp [Succeeds, isSymbolError, isUnresolvedCall, isUndefinedType]
  | call name overload =>
    cases overload <;> simp [Succeeds, isSymbolError, isUnresolvedCall, isUndefinedType]
  | expr e => simp [Succeeds, isSymbolError, isUnresolvedCall, isUndefinedType]

/-- A program is fully resolved if none of its outcomes is in error. -/
theorem Program.isFullyResolved_iff (program : Program) :
    program.isFullyResolved = true ↔ Resolved program.resolutions := by
  simp only [isFullyResolved, symbolErrors, unresolvedCalls, undefinedTypes, Bool.and_eq_true,
    beq_iff_eq, List.countP_eq_zero, Bool.not_eq_true, Resolved, Resolution.succeeds_iff]
  constructor
  · rintro ⟨⟨hsymbol, hcall⟩, hty⟩ r hmem
    exact ⟨hsymbol r hmem, hcall r hmem, hty r hmem⟩
  · intro h
    exact ⟨⟨fun r hmem => (h r hmem).1, fun r hmem => (h r hmem).2.1⟩, fun r hmem => (h r hmem).2.2⟩

/-- An expression comes first among its outcomes. -/
theorem Expr.exists_resolutions (e : Expr) : ∃ rest, e.resolutions = .expr e :: rest := by
  cases e <;> exact ⟨_, rfl⟩

theorem Expr.ty_ne_undefined {e : Expr} (h : Resolved e.resolutions) : e.ty ≠ .undefined := by
  obtain ⟨rest, hrest⟩ := e.exists_resolutions
  rw [hrest, resolved_cons] at h
  exact h.1

theorem Expr.tys_ne_undefined {es : List Expr} (h : Resolved (resolutionsAll es)) :
    ∀ ty ∈ es.map (·.ty), ty ≠ .undefined := by
  induction es with
  | nil => exact fun _ hmem => absurd hmem List.not_mem_nil
  | cons e es ih =>
    rw [resolutionsAll, resolved_append] at h
    exact List.forall_mem_cons.mpr ⟨ty_ne_undefined h.1, ih h.2⟩

end Typed

/-! ## Sizes of indices -/

namespace Tree

/-- The elements that an entry of an index selects, if it is constant. -/
def constRange? (dialect : Dialect) : IndexEntry Expr → Option Typed.IndexRange
  | .item e => (e.constant? dialect).map fun n => ⟨n, n⟩
  | .range first last =>
    (first.constant? dialect).bind fun m => (last.constant? dialect).map fun n => ⟨m, n⟩

/-- The number of elements that the constant entries of an index select. -/
def selected (dialect : Dialect) (entries : List (IndexEntry Expr)) : Nat :=
  Typed.IndexRange.total (entries.filterMap (constRange? dialect))

namespace Expr

mutual

/-- Every index in the expression, also one in an entry of an index, selects no more elements than a
reference can have. -/
def Sized (dialect : Dialect) : Expr → Prop
  | literal _ _ => True
  | name _ => True
  | index _ entries _ =>
    SizedEntries dialect entries ∧ selected dialect entries ≤ Typed.IndexRange.maxSize
  | unary _ operand _ => operand.Sized dialect
  | binary _ lhs rhs _ => lhs.Sized dialect ∧ rhs.Sized dialect
  | call _ args _ => SizedAll dialect args
  | array elements _ => SizedAll dialect elements

/-- Every index in the expressions selects no more elements than a reference can have. -/
def SizedAll (dialect : Dialect) : List Expr → Prop
  | [] => True
  | e :: es => e.Sized dialect ∧ SizedAll dialect es

/-- Every index in the entry of an index selects no more elements than a reference can have. -/
def SizedEntry (dialect : Dialect) : IndexEntry Expr → Prop
  | .item e => e.Sized dialect
  | .range first last => first.Sized dialect ∧ last.Sized dialect

/-- Every index in the entries of an index selects no more elements than a reference can have. -/
def SizedEntries (dialect : Dialect) : List (IndexEntry Expr) → Prop
  | [] => True
  | entry :: entries => SizedEntry dialect entry ∧ SizedEntries dialect entries

end

mutual

/-- A constant expression has no index. -/
theorem sized_of_isConst {table : SymbolTable} (dialect : Dialect) : (e : Expr) →
    (e.analyze table).value.isConst = true → e.Sized dialect
  | .literal value loc => fun _ => trivial
  | .name ident => fun _ => trivial
  | .index target entries loc => fun hconst => by
    rw [(analyze_index table target entries loc).1] at hconst
    exact absurd hconst Bool.false_ne_true
  | .unary op operand loc => fun hconst => by
    rw [(analyze_unary table op operand loc).1] at hconst
    have hargs := all_isConst_of_typedCall hconst
    rw [List.all_cons, List.all_nil, Bool.and_true] at hargs
    exact sized_of_isConst dialect operand hargs
  | .binary op lhs rhs loc => fun hconst => by
    rw [(analyze_binary table op lhs rhs loc).1] at hconst
    have hargs := all_isConst_of_typedCall hconst
    rw [List.all_cons, List.all_cons, List.all_nil, Bool.and_true, Bool.and_eq_true] at hargs
    exact ⟨sized_of_isConst dialect lhs hargs.1, sized_of_isConst dialect rhs hargs.2⟩
  | .call function args loc => fun hconst => by
    rw [(analyze_call table function args loc).1] at hconst
    exact sizedAll_of_isConst dialect args (all_isConst_of_typedCall hconst)
  | .array elements loc => fun hconst => by
    rw [(analyze_array table elements loc).1] at hconst
    exact sizedAll_of_isConst dialect elements (all_isConst_of_typedAxis hconst)

theorem sizedAll_of_isConst {table : SymbolTable} (dialect : Dialect) : (es : List Expr) →
    (analyzeAll table es).value.all (·.isConst) = true → SizedAll dialect es
  | [] => fun _ => trivial
  | e :: es => fun hconst => by
    rw [(analyzeAll_cons table e es).1, List.all_cons, Bool.and_eq_true] at hconst
    exact ⟨sized_of_isConst dialect e hconst.1, sizedAll_of_isConst dialect es hconst.2⟩

end

theorem range_analyzeEntry (table : SymbolTable) (entry : IndexEntry Expr) :
    (analyzeEntry table entry).value.map (·.range) = constRange? table.dialect entry := by
  rw [value_analyzeEntry]
  cases entry with
  | item e =>
    rw [span?, bound?, constInt?_analyze, constRange?, Option.map_map, Option.map_map]
    rfl
  | range first last =>
    rw [span?, bound?, bound?, constInt?_analyze, constInt?_analyze, constRange?]
    cases first.constant? table.dialect with
    | none => rfl
    | some m => cases last.constant? table.dialect <;> rfl

/-- The ranges of an index are those of its constant entries. -/
theorem ranges_analyzeEntries (table : SymbolTable) (entries : List (IndexEntry Expr)) :
    ((analyzeEntries table entries).value.filterMap id).map (·.range)
      = entries.filterMap (constRange? table.dialect) := by
  rw [analyzeEntries_eq_map, List.filterMap_map, List.map_filterMap]
  exact List.filterMap_congr fun entry _ => range_analyzeEntry table entry

end Expr

end Tree

/-! ## Expressions -/

open Typed (Resolved resolved_nil resolved_cons resolved_append)

open Diagnostics (Clean clean_append)

namespace SymbolTable

/-- All symbols have types. -/
def Defined (table : SymbolTable) : Prop := ∀ symbol ∈ table.symbols, symbol.ty ≠ .undefined

theorem Defined.resolveName {table : SymbolTable} (h : table.Defined) {name : String}
    {loc : Location} (hclean : (table.resolveName name loc).log.Clean) :
    (∃ id, (table.resolveName name loc).value.1 = .ok id)
      ∧ (table.resolveName name loc).value.2 ≠ .undefined := by
  rcases table.value_resolveName name loc with ⟨record, hlookup, hvalue, -⟩ | ⟨error, -, -, hreport⟩
  · rw [hvalue]
    exact ⟨⟨record.id, rfl⟩,
      h record.symbol (List.mem_of_getElem? (getElem?_of_lookup table hlookup))⟩
  · exact absurd hclean hreport

/-- What a call gives has a type as soon as the call has an overload. -/
theorem typed_of_resolveFunction {table : SymbolTable} {name : String} {args : List Ty}
    {loc : Location} {o : Overload} (h : (table.resolveFunction name args loc).value = some o) :
    o.Typed := by
  rw [value_resolveFunction] at h
  obtain ⟨⟨set, hset, hmem⟩, -⟩ := accepts_of_resolve (resolve_of_toOption h)
  exact Dialect.typed_of_get? hset o hmem

end SymbolTable

namespace Tree

variable {table : SymbolTable}

/-- Without an error, a call of resolved arguments is resolved. -/
theorem resolved_typedCall {name : String} {args : List Typed.Expr} {loc : Location}
    (hclean : (typedCall table name args loc).log.Clean) :
    Resolved (typedCall table name args loc).value.resolutions
      ↔ Resolved (Typed.Expr.resolutionsAll args) := by
  rw [(typedCall_eq table name args loc).2] at hclean
  rw [(typedCall_eq table name args loc).1, Typed.Expr.resolutions, resolved_cons, resolved_cons]
  refine ⟨fun h => h.2.2, fun h => ?_⟩
  have hsome := table.isSome_resolveCall rfl (Typed.Expr.tys_ne_undefined h) hclean
  refine ⟨?_, hsome, h⟩
  obtain ⟨o, ho⟩ := Option.isSome_iff_exists.mp hsome
  have ho : (table.resolveFunction name (args.map (·.ty)) loc).value = some o := ho
  show (((table.resolveFunction name (args.map (·.ty)) loc).value).map (·.result)).getD _ ≠ _
  rw [ho]
  exact SymbolTable.typed_of_resolveFunction ho

/-- Without an error, an array is an axis. -/
theorem ty_typedAxis {elements : List Typed.Expr} {loc : Location}
    (hclean : (typedAxis table elements loc).log.Clean) :
    (typedAxis table elements loc).value.ty = .axis := by
  rw [(typedAxis_eq table elements loc).2, clean_append] at hclean
  have hsize : elements.length = 3 := by
    by_contra hne
    rw [checkAxisSize, if_neg hne] at hclean
    exact table.not_clean_report rfl hclean.1
  have hvalue : (table.checkConversions .float elements).value = true :=
    (table.value_checkConversions .float elements).mpr
      ((SymbolTable.clean_checkConversions _).mp hclean.2)
  rw [(typedAxis_eq table elements loc).1]
  exact if_pos ⟨hsize, hvalue⟩

/-- Without an error, an array of resolved elements is resolved. -/
theorem resolved_typedAxis {elements : List Typed.Expr} {loc : Location}
    (hclean : (typedAxis table elements loc).log.Clean) :
    Resolved (typedAxis table elements loc).value.resolutions
      ↔ Resolved (Typed.Expr.resolutionsAll elements) := by
  have hty := ty_typedAxis hclean
  rw [(typedAxis_eq table elements loc).1] at hty ⊢
  rw [Typed.Expr.resolutions, resolved_cons]
  refine and_iff_right ?_
  show Typed.Expr.ty _ ≠ _
  rw [hty]
  exact fun h => by cases h

namespace Expr

/-- Without an error, an entry is constant if and only if it is resolved. -/
theorem isSome_constInt?_iff {e : Expr}
    (hclean : (table.constInteger (e.analyze table).value).log.Clean)
    (h : Resolved (e.analyze table).value.resolutions ↔ e.Sized table.dialect) :
    (e.analyze table).value.constInt?.isSome = true ↔ e.Sized table.dialect := by
  constructor
  · intro hsome
    obtain ⟨n, hn⟩ := Option.isSome_iff_exists.mp hsome
    exact sized_of_isConst table.dialect e (SymbolTable.ty_of_constInt? hn).2
  · intro hsized
    have hty := Typed.Expr.ty_ne_undefined (h.mpr hsized)
    obtain ⟨n, hn⟩ := ((SymbolTable.clean_constInteger _).mp hclean).resolve_left hty
    rw [hn]
    rfl

/-- Without an error, an index has a type if and only if its entries are constant and it selects no
more elements than a reference can have. -/
theorem resolved_index (hdefined : table.Defined) {target : Ident}
    {entries : List (IndexEntry Expr)} {loc : Location}
    (hclean : ((index target entries loc).analyze table).log.Clean) :
    Resolved ((index target entries loc).analyze table).value.resolutions
      ↔ (analyzeEntries table entries).value.all (·.isSome) = true
        ∧ selected table.dialect entries ≤ Typed.IndexRange.maxSize := by
  obtain ⟨hvalue, hlog⟩ := analyze_index table target entries loc
  rw [hlog, clean_append, clean_append] at hclean
  obtain ⟨⟨hname, -⟩, htype⟩ := hclean
  obtain ⟨hsymbol, hty⟩ := hdefined.resolveName hname
  have hreference := table.isReference_of_indexType hty htype
  rw [hvalue, Typed.Expr.resolutions, resolved_cons, resolved_cons, SymbolTable.value_indexType]
  rw [and_iff_left ⟨hsymbol, resolved_nil⟩]
  show indexedTy _ _ ≠ .undefined ↔ _
  rw [selected, ← ranges_analyzeEntries]
  exact indexedTy_ne_undefined hreference

mutual

/-- Without an error, an expression is resolved if and only if it is sized. -/
theorem resolved_expr (hdefined : table.Defined) : (e : Expr) → (e.analyze table).log.Clean →
    (Resolved (e.analyze table).value.resolutions ↔ e.Sized table.dialect)
  | .literal value loc => fun _ => by
    refine iff_of_true (resolved_cons.mpr ⟨?_, resolved_nil⟩) trivial
    cases value <;> exact fun h => by cases h
  | .name ident => fun hclean => by
    rw [(analyze_name table ident).2] at hclean
    obtain ⟨hsymbol, hty⟩ := hdefined.resolveName hclean
    rw [(analyze_name table ident).1, Typed.Expr.resolutions, resolved_cons, resolved_cons]
    exact iff_of_true ⟨hty, hsymbol, resolved_nil⟩ trivial
  | .index target entries loc => fun hclean => by
    have hentries := hclean
    rw [(analyze_index table target entries loc).2, clean_append, clean_append] at hentries
    rw [resolved_index hdefined hclean, all_isSome_entries hdefined entries hentries.1.2, Sized]
  | .unary op operand loc => fun hclean => by
    rw [(analyze_unary table op operand loc).2, clean_append] at hclean
    rw [(analyze_unary table op operand loc).1, resolved_typedCall hclean.2,
      Typed.Expr.resolutionsAll, Typed.Expr.resolutionsAll, List.append_nil, Sized,
      resolved_expr hdefined operand hclean.1]
  | .binary op lhs rhs loc => fun hclean => by
    rw [(analyze_binary table op lhs rhs loc).2, clean_append, clean_append] at hclean
    rw [(analyze_binary table op lhs rhs loc).1, resolved_typedCall hclean.2,
      Typed.Expr.resolutionsAll, Typed.Expr.resolutionsAll, Typed.Expr.resolutionsAll,
      List.append_nil, resolved_append, Sized, resolved_expr hdefined lhs hclean.1.1,
      resolved_expr hdefined rhs hclean.1.2]
  | .call function args loc => fun hclean => by
    rw [(analyze_call table function args loc).2, clean_append] at hclean
    rw [(analyze_call table function args loc).1, resolved_typedCall hclean.2, Sized,
      resolved_exprs hdefined args hclean.1]
  | .array elements loc => fun hclean => by
    rw [(analyze_array table elements loc).2, clean_append] at hclean
    rw [(analyze_array table elements loc).1, resolved_typedAxis hclean.2, Sized,
      resolved_exprs hdefined elements hclean.1]

theorem resolved_exprs (hdefined : table.Defined) : (es : List Expr) →
    (analyzeAll table es).log.Clean →
    (Resolved (Typed.Expr.resolutionsAll (analyzeAll table es).value) ↔ SizedAll table.dialect es)
  | [] => fun _ => iff_of_true resolved_nil trivial
  | e :: es => fun hclean => by
    rw [(analyzeAll_cons table e es).2, clean_append] at hclean
    rw [(analyzeAll_cons table e es).1, Typed.Expr.resolutionsAll, resolved_append, SizedAll,
      resolved_expr hdefined e hclean.1, resolved_exprs hdefined es hclean.2]

theorem isSome_entry (hdefined : table.Defined) : (entry : IndexEntry Expr) →
    (analyzeEntry table entry).log.Clean →
    ((analyzeEntry table entry).value.isSome = true ↔ SizedEntry table.dialect entry)
  | .item e => fun hclean => by
    rw [(analyzeEntry_item table e).2, clean_append] at hclean
    rw [value_analyzeEntry, isSome_span?, IndexEntry.exprs, List.forall_mem_singleton, SizedEntry,
      isSome_constInt?_iff hclean.2 (resolved_expr hdefined e hclean.1)]
  | .range first last => fun hclean => by
    rw [(analyzeEntry_range table first last).2, clean_append, clean_append, clean_append] at hclean
    obtain ⟨⟨⟨hfirst, hlast⟩, hlower⟩, hupper⟩ := hclean
    rw [value_analyzeEntry, isSome_span?, IndexEntry.exprs, List.forall_mem_cons,
      List.forall_mem_singleton, SizedEntry,
      isSome_constInt?_iff hlower (resolved_expr hdefined first hfirst),
      isSome_constInt?_iff hupper (resolved_expr hdefined last hlast)]

theorem all_isSome_entries (hdefined : table.Defined) : (entries : List (IndexEntry Expr)) →
    (analyzeEntries table entries).log.Clean →
    ((analyzeEntries table entries).value.all (·.isSome) = true
      ↔ SizedEntries table.dialect entries)
  | [] => fun _ => iff_of_true rfl trivial
  | entry :: entries => fun hclean => by
    rw [(analyzeEntries_cons table entry entries).2, clean_append] at hclean
    rw [(analyzeEntries_cons table entry entries).1, List.all_cons, Bool.and_eq_true, SizedEntries,
      isSome_entry hdefined entry hclean.1, all_isSome_entries hdefined entries hclean.2]

end

end Expr

end Tree

end Cqasm
