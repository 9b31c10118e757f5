import Cqasm.Proofs.Analysis.Causes
import Cqasm.Proofs.Analysis.Expr
import Cqasm.Proofs.Analysis.Run
import Cqasm.Proofs.Overload.Applicable

/-!
# What each check decides

For each check, the value it gives and when it records no error.

* `Diagnostics.Clean` : a log without errors;
* `clean_checkConversion`, `clean_constInteger`, … : a check without errors is one that succeeds, or
  one of something undefined.
-/

namespace Cqasm

/-! ## Logs without errors -/

namespace Diagnostics

/-- Nothing but warnings. -/
def Clean (log : Diagnostics) : Prop := log.anyErrors = false

@[simp] theorem clean_nil : Clean [] := rfl

@[simp] theorem clean_append {log log' : Diagnostics} :
    Clean (log ++ log') ↔ log.Clean ∧ log'.Clean := by
  rw [Clean, anyErrors_append, Bool.or_eq_false_iff, Clean, Clean]

theorem not_clean_singleton {d : Diagnostic} (h : d.cause.severity = .error) : ¬ Clean [d] := by
  simp [Clean, anyErrors, Diagnostic.isError, Diagnostic.severity, h]

end Diagnostics

open Diagnostics (Clean)

namespace SymbolTable

variable (table : SymbolTable)

@[simp] theorem log_report (cause : Cause) (loc : Location) :
    (table.report cause loc).log = [⟨cause, loc, some table.dialect⟩] := rfl

theorem not_clean_report {cause : Cause} {loc : Location} (h : cause.severity = .error) :
    ¬ (table.report cause loc).log.Clean := Diagnostics.not_clean_singleton h

/-! ## Names and calls -/

theorem value_resolveName (name : String) (loc : Location) :
    (∃ record, table.lookup name = .ok record
        ∧ (table.resolveName name loc).value = (.ok record.id, record.symbol.ty)
        ∧ (table.resolveName name loc).log = [])
      ∨ ∃ error, table.lookup name = .error error
        ∧ (table.resolveName name loc).value = (.error error, .undefined)
        ∧ ¬ (table.resolveName name loc).log.Clean := by
  unfold resolveName
  cases table.lookup name with
  | ok record => exact Or.inl ⟨record, rfl, rfl, rfl⟩
  | error error => exact Or.inr ⟨error, rfl, rfl, table.not_clean_report rfl⟩

theorem ty_resolveName (name : String) (loc : Location) :
    (table.resolveName name loc).value.2 = SymbolRecord.tyOf (table.lookup name) := by
  unfold resolveName
  cases table.lookup name <;> rfl

/-- What is looked up is a symbol of the table. -/
theorem getElem?_of_lookup {name : String} {record : SymbolRecord}
    (h : table.lookup name = .ok record) : table.symbols[record.id]? = some record.symbol :=
  (lookup_eq_ok_iff.mp h).2

theorem value_resolveCall (unknown : Cause) (set : Option OverloadSet) (name : String)
    (args : List Ty) (loc : Location) :
    (table.resolveCall unknown set name args loc).value
      = (resolve table.dialect.promotions set name args).toOption := by
  unfold resolveCall
  split
  · next h => rw [h]; rfl
  · next h => rw [h]; rfl
  · next h => rw [h]; rfl
  · next h =>
    rw [h]
    split <;> rfl

/-- A call of defined arguments without an overload is an error. -/
theorem isSome_resolveCall {unknown : Cause} {set : Option OverloadSet} {name : String}
    {args : List Ty} {loc : Location} (hunknown : unknown.severity = .error)
    (hargs : ∀ arg ∈ args, arg ≠ .undefined)
    (h : (table.resolveCall unknown set name args loc).log.Clean) :
    (table.resolveCall unknown set name args loc).value.isSome = true := by
  revert h
  unfold resolveCall
  split
  · exact fun _ => rfl
  · intro h
    exact absurd (Diagnostics.clean_append.mp h).1 (table.not_clean_report hunknown)
  · intro h
    exact absurd (Diagnostics.clean_append.mp h).1 (table.not_clean_report rfl)
  · rw [if_pos (List.all_eq_true.mpr fun arg hmem => Ty.isDefined_iff.mpr (hargs arg hmem))]
    intro h
    exact absurd (Diagnostics.clean_append.mp h).1 (table.not_clean_report rfl)

theorem value_resolveFunction (name : String) (args : List Ty) (loc : Location) :
    (table.resolveFunction name args loc).value
      = (resolve table.dialect.promotions (table.function? name) name args).toOption :=
  table.value_resolveCall ..

theorem value_resolveInstruction (name : String) (args : List Ty) (loc : Location) :
    (table.resolveInstruction name args loc).value
      = (resolve table.dialect.promotions (table.instruction? name) name args).toOption := by
  rw [← table.value_resolveCall (.unknownInstruction name) _ _ _ loc]
  unfold resolveInstruction
  rw [Logged.value_bind]
  split <;> next h => exact h.symm

theorem isSome_resolveInstruction {name : String} {args : List Ty} {loc : Location}
    (hargs : ∀ arg ∈ args, arg ≠ .undefined)
    (h : (table.resolveInstruction name args loc).log.Clean) :
    (table.resolveInstruction name args loc).value.isSome = true := by
  have hcall := (Diagnostics.clean_append.mp h).1
  rw [value_resolveInstruction, ← table.value_resolveCall (.unknownInstruction name) _ _ _ loc]
  exact table.isSome_resolveCall rfl hargs hcall

/-! ## Conversions -/

theorem value_checkConversion (e : Typed.Expr) (ty : Ty) :
    (table.checkConversion e ty).value = true
      ↔ ty = .undefined ∨ table.dialect.promotions.Accepts e.ty ty := by
  unfold checkConversion Promotions.Accepts
  split
  · next h =>
    simp only [Bool.and_eq_true, Ty.isDefined_iff, Bool.not_eq_true'] at h
    simp [h]
  · next h =>
    simp only [Bool.and_eq_true, Ty.isDefined_iff, Bool.not_eq_true', not_and,
      Bool.not_eq_false] at h
    simp only [Logged.value_pure, true_iff]
    by_cases hty : ty = .undefined
    · exact Or.inl hty
    · by_cases he : e.ty = .undefined
      · exact Or.inr (Or.inl he)
      · exact Or.inr (Or.inr (h ⟨he, hty⟩))

theorem clean_checkConversion {e : Typed.Expr} {ty : Ty} :
    (table.checkConversion e ty).log.Clean
      ↔ ty = .undefined ∨ table.dialect.promotions.Accepts e.ty ty := by
  rw [← value_checkConversion]
  unfold checkConversion
  split
  · have hreport : ¬ (table.report (.incompatibleTypes ty e.ty) e.loc).log.Clean :=
      table.not_clean_report rfl
    simpa using hreport
  · simp

theorem value_checkConversions (ty : Ty) (es : List Typed.Expr) :
    (table.checkConversions ty es).value = true
      ↔ ∀ e ∈ es, ty = .undefined ∨ table.dialect.promotions.Accepts e.ty ty := by
  induction es with
  | nil => simp [checkConversions]
  | cons e es ih =>
    rw [checkConversions, Logged.value_bind, Logged.value_bind, Logged.value_pure, Bool.and_eq_true,
      value_checkConversion, ih, List.forall_mem_cons]

theorem clean_checkConversions {ty : Ty} {es : List Typed.Expr} :
    (table.checkConversions ty es).log.Clean
      ↔ ∀ e ∈ es, ty = .undefined ∨ table.dialect.promotions.Accepts e.ty ty := by
  induction es with
  | nil => simp [checkConversions]
  | cons e es ih =>
    rw [checkConversions, Logged.log_bind, Logged.log_bind, Logged.log_pure, List.append_nil,
      Diagnostics.clean_append, clean_checkConversion, ih, List.forall_mem_cons]

/-! ## Constant integers -/

theorem ty_of_constInt? {e : Typed.Expr} {n : Int64} (h : e.constInt? = some n) :
    e.ty = .int ∧ e.isConst = true := by
  unfold Typed.Expr.constInt? at h
  split at h
  all_goals first
    | cases h
    | split at h
      · next hnote => exact ⟨hnote.2, hnote.1⟩
      · cases h

theorem constInt?_of_undefined {e : Typed.Expr} (h : e.ty = .undefined) : e.constInt? = none := by
  cases hconst : e.constInt? with
  | none => rfl
  | some n =>
    have hty := (ty_of_constInt? hconst).1
    rw [h] at hty
    cases hty

/-- What is no constant integer has no value, whether or not it is reported. -/
theorem value_constInteger (e : Typed.Expr) : (table.constInteger e).value = e.constInt? := by
  unfold constInteger
  split
  · split
    · next h => exact h.symm
    · next h => exact h.symm
  · next hundefined => exact (constInt?_of_undefined (by simpa using hundefined)).symm

theorem clean_constInteger {e : Typed.Expr} :
    (table.constInteger e).log.Clean ↔ e.ty = .undefined ∨ ∃ n, e.constInt? = some n := by
  unfold constInteger
  split
  · next hdefined =>
    have hty : e.ty ≠ .undefined := Ty.isDefined_iff.mp hdefined
    have hreport : ¬ (table.report .expectedConstInteger e.loc).log.Clean :=
      table.not_clean_report rfl
    cases e.constInt? with
    | none => simpa [hty] using hreport
    | some n => simp
  · next hundefined => simpa using Or.inl (by simpa using hundefined)

theorem value_natural (p : Int → Prop) [DecidablePred p] (cause : Int → Cause) (e : Typed.Expr) :
    (table.natural p cause e).value
      = e.constInt?.bind fun n => if p n.toInt then some n.toInt.toNat else none := by
  unfold natural
  rw [Logged.value_bind, value_constInteger]
  cases e.constInt? with
  | none => rfl
  | some n =>
    rw [Option.bind_some]
    split
    · next h => cases h
    · next m h =>
      cases h
      split <;> rfl

theorem clean_natural {p : Int → Prop} [DecidablePred p] {cause : Int → Cause}
    (hcause : ∀ n, (cause n).severity = .error) {e : Typed.Expr}
    (h : (table.natural p cause e).log.Clean) :
    e.ty = .undefined ∨ ∃ n, e.constInt? = some n ∧ p n.toInt := by
  unfold natural at h
  rw [Logged.log_bind, Diagnostics.clean_append, clean_constInteger, value_constInteger] at h
  obtain ⟨hconst, hnumber⟩ := h
  refine hconst.imp_right fun ⟨n, hn⟩ => ⟨n, hn, ?_⟩
  rw [hn] at hnumber
  by_contra hneg
  simp only [if_neg hneg, Logged.log_bind, Diagnostics.clean_append] at hnumber
  exact table.not_clean_report (hcause n.toInt) hnumber.1

/-- The size of a register is a positive number that is written as a constant. -/
theorem value_registerSize (e : Typed.Expr) :
    (table.registerSize e).value
      = e.constInt?.bind fun n => if 0 < n.toInt then some n.toInt.toNat else none := by
  rw [registerSize_eq_natural, value_natural]

theorem clean_registerSize {e : Typed.Expr} (h : (table.registerSize e).log.Clean) :
    e.ty = .undefined ∨ ∃ n, e.constInt? = some n ∧ 0 < n.toInt :=
  table.clean_natural (fun _ => rfl) (registerSize_eq_natural table e ▸ h)

/-- The number of iterations is a natural number that is written as a constant. -/
theorem value_iterationCount (e : Typed.Expr) :
    (table.iterationCount e).value
      = e.constInt?.bind fun n => if 0 ≤ n.toInt then some n.toInt.toNat else none := by
  rw [iterationCount_eq_natural, value_natural]

theorem clean_iterationCount {e : Typed.Expr} (h : (table.iterationCount e).log.Clean) :
    e.ty = .undefined ∨ ∃ n, e.constInt? = some n ∧ 0 ≤ n.toInt :=
  table.clean_natural (fun _ => rfl) (iterationCount_eq_natural table e ▸ h)

/-- Without an error, an index is one into a reference. -/
theorem isReference_of_indexType {name : String} {loc : Location} {ty : Ty}
    {entries : List (Option IndexSpan)} (hty : ty ≠ .undefined)
    (h : (table.indexType name loc ty entries).log.Clean) : ty.isReference = true := by
  unfold indexType at h
  rw [if_pos (Ty.isDefined_iff.mpr hty)] at h
  split at h
  · exact absurd (Diagnostics.clean_append.mp h).1 (table.not_clean_report rfl)
  · next hsize => cases ty <;> first | rfl | cases hsize

end SymbolTable

namespace Analysis

variable {env : Env}

/-- A declaration without an error binds a new symbol. -/
theorem declareSymbol_of_clean {symbol : Symbol} (h : (declareSymbol symbol env).log.Clean) :
    (declareSymbol symbol env).value = (.ok env.table.symbols.length, env.bindCurrent symbol) := by
  cases hbinds : env.table.current.binds symbol.name with
  | true =>
    rw [(declareSymbol_of_binds hbinds).2] at h
    exact absurd h (Diagnostics.not_clean_singleton rfl)
  | false => exact (declareSymbol_of_not_binds hbinds).1

theorem clean_checkConversion {e : Typed.Expr} {ty : Ty} :
    (checkConversion e ty env).log.Clean
      ↔ ty = .undefined ∨ env.table.dialect.promotions.Accepts e.ty ty := by
  rw [log_checkConversion, SymbolTable.clean_checkConversion]

end Analysis

namespace Tree.Stmt

variable {env : Env}

/-- An assignment without an error is one to a variable, if the left side has a symbol, and of a
value that converts to its type. -/
theorem clean_checkAssign {lhs rhs : Typed.Expr} (h : (checkAssign lhs rhs env).log.Clean) :
    ∃ note symbol, lhs = .name note symbol ∧ ∀ id, symbol = .ok id →
      ∀ s, env.table.symbols[id]? = some s →
        s.kind = .var
          ∧ (note.ty = .undefined ∨ env.table.dialect.promotions.Accepts rhs.ty note.ty) := by
  unfold checkAssign at h
  split at h
  · next note id =>
    refine ⟨note, .ok id, rfl, fun id' hid s hs => ?_⟩
    cases hid
    simp only [hs] at h
    split at h
    · next hkind => exact ⟨hkind, Analysis.clean_checkConversion.mp h⟩
    · exact absurd h (env.table.not_clean_report rfl)
    · exact absurd h (env.table.not_clean_report rfl)
  · next note error => exact ⟨note, .error error, rfl, fun id hid => by cases hid⟩
  · exact absurd h (env.table.not_clean_report rfl)

theorem clean_checkLoopControl {control : LoopControl} {loc : Location}
    (h : (checkLoopControl control loc env).log.Clean) : env.table.inLoop = true := by
  unfold checkLoopControl at h
  split at h
  · next hloop => exact hloop
  · exact absurd h (env.table.not_clean_report rfl)

end Tree.Stmt

end Cqasm
