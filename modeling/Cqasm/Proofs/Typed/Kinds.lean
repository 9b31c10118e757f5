import Cqasm.Proofs.Analysis.Reached
import Cqasm.Proofs.Dialect.Tables
import Cqasm.Proofs.Typed.Consistent
import Mathlib.Algebra.Group.Nat.Defs
import Mathlib.Algebra.Ring.Int.Defs

/-!
# Types fit kinds

Every symbol has a type that fits its kind, and nothing that can be written has the type of an
instruction or of a function, or refers to more elements than there are 64-bit numbers. A mapping
takes its type from an expression and a name takes it from a symbol, so the two are proved together:
the type of an expression arises if those of the symbols so far do (`arises_of_consistent`), and the
type of a new symbol does if those of the expressions do (`arises_of_declaredIn`).

* `Ty.Arises` : the types that symbols and expressions have.
-/

namespace Cqasm

/-- Is it the type of a value, an operand or something in error, and so neither that of an
instruction nor a signature? -/
def Ty.isPlain : Ty → Bool
  | void | function _ _ => false
  | _ => true

/-- The type of a classical value or of something in error, or a reference whose number of elements
is a size. -/
inductive Ty.Arises : Ty → Prop where
  | scalar {t : Ty} (h : t.isScalar = true) : Arises t
  | qubit {n : Nat} (h : n ≤ Typed.IndexRange.maxSize) : Arises (qubit n)
  | bit {n : Nat} (h : n ≤ Typed.IndexRange.maxSize) : Arises (bit n)
  | undefined : Arises undefined

theorem Ty.registerSize?_of_isScalar {t : Ty} (h : t.isScalar = true) : t.registerSize? = none := by
  cases t <;> first | rfl | cases h

namespace Ty.Arises

theorem isPlain {t : Ty} (h : t.Arises) : t.isPlain = true := by
  cases h with
  | scalar h => cases t <;> first | rfl | cases h
  | qubit | bit | undefined => rfl

theorem size_le {t : Ty} {n : Nat} (h : t.Arises) (hsize : t.registerSize? = some n) :
    n ≤ Typed.IndexRange.maxSize := by
  cases h with
  | scalar h =>
    rw [registerSize?_of_isScalar h] at hsize
    cases hsize
  | qubit h | bit h =>
    cases hsize
    exact h
  | undefined => cases hsize

theorem of_resize? {t u : Ty} {n : Nat} (hn : n ≤ Typed.IndexRange.maxSize)
    (h : t.resize? n = some u) : u.Arises := by
  cases t <;> cases h
  · exact .qubit hn
  · exact .bit hn

end Ty.Arises

theorem Literal.arises_ty (value : Literal) : value.ty.Arises := by
  cases value <;> exact .scalar rfl

/-! ## Expressions -/

namespace Typed

variable {table : SymbolTable}

theorem RefersTo.arises (hsymbols : ∀ symbol ∈ table.symbols, symbol.ty.Arises)
    {symbol : SymbolRef} {ty : Ty} (h : RefersTo table symbol ty) : ty.Arises := by
  cases symbol with
  | error error =>
    rw [show ty = .undefined from h]
    exact .undefined
  | ok id =>
    obtain ⟨s, hget, rfl⟩ := h
    exact hsymbols s (List.mem_of_getElem? hget)

theorem Expr.mem_subexprs (e : Expr) : e ∈ e.subexprs := by
  cases e <;> exact List.mem_cons_self

/-- What the chosen overload of a function gives is a classical value. -/
theorem Chosen.isScalar {name : String} {args : List Ty} {o : Overload}
    (h : Chosen table.dialect.promotions (table.function? name) name args (some o)) :
    o.result.isScalar = true := by
  obtain ⟨⟨set, hset, hmem⟩, -⟩ := accepts_of_resolve (resolve_of_toOption h.eq.symm)
  exact Dialect.scalar_of_get? hset o hmem

/-- If the types of the symbols of a table arise, so do those of the expressions that are consistent
with it. -/
theorem Expr.arises_of_consistent (hsymbols : ∀ symbol ∈ table.symbols, symbol.ty.Arises)
    {e : Expr} (h : e.Consistent table) : e.ty.Arises := by
  cases e with
  | literal note value =>
    rw [show (literal note value).ty = value.ty from h]
    exact value.arises_ty
  | name note symbol => exact RefersTo.arises hsymbols h
  | index note target ranges =>
    obtain ⟨ty, -, hundefined | ⟨hsize, hresize⟩⟩ := h
    · rw [show (index note target ranges).ty = .undefined from hundefined]
      exact .undefined
    · exact .of_resize? hsize hresize
  | call note function overload args =>
    obtain ⟨hchosen, hty⟩ := h
    rw [show (call note function overload args).ty = _ from hty]
    cases overload with
    | none => exact .undefined
    | some o => exact .scalar hchosen.isScalar
  | axis note elements =>
    show note.ty.Arises
    by_cases hty : note.ty = .axis
    · rw [hty]
      exact .scalar rfl
    · rw [h.2 hty]
      exact .undefined

end Typed

/-! ## Symbols -/

theorem IsRegisterSize.bounds {n : Nat} (h : IsRegisterSize n) : 1 ≤ n ∧ n ≤ 2 ^ 63 - 1 := by
  have hmax : Int64.maxValue.toInt = 2 ^ 63 - 1 := rfl
  unfold IsRegisterSize at h
  omega

namespace Symbol.Fits

variable {symbol : Symbol} (h : symbol.Fits)

include h

theorem qubitRegister (hkind : symbol.kind = .qubitRegister) : symbol.ty = .undefined
    ∨ ∃ n, 1 ≤ n ∧ n ≤ 2 ^ 63 - 1 ∧ symbol.ty = .qubit n := by
  unfold Fits at h
  rw [hkind] at h
  exact h.imp_right fun ⟨n, hn, hty⟩ => ⟨n, hn.bounds.1, hn.bounds.2, hty⟩

theorem bitRegister (hkind : symbol.kind = .bitRegister) : symbol.ty = .undefined
    ∨ ∃ n, 1 ≤ n ∧ n ≤ 2 ^ 63 - 1 ∧ symbol.ty = .bit n := by
  unfold Fits at h
  rw [hkind] at h
  exact h.imp_right fun ⟨n, hn, hty⟩ => ⟨n, hn.bounds.1, hn.bounds.2, hty⟩

theorem var (hkind : symbol.kind = .var) :
    symbol.ty ∈ [.bool, .int, .float, .complex, .axis] := by
  unfold Fits at h
  rw [hkind] at h
  cases hty : symbol.ty <;> simp_all [Ty.isScalar]

end Symbol.Fits

/-- If the types of the symbols so far arise, so does that of the next one. -/
theorem Symbol.arises_of_declaredIn {env : Env} {symbol : Symbol} (h : symbol.DeclaredIn env)
    (hsymbols : ∀ symbol ∈ env.table.symbols, symbol.ty.Arises) : symbol.ty.Arises := by
  have hmax : 2 ^ 63 - 1 ≤ Typed.IndexRange.maxSize := by decide
  cases hkind : symbol.kind with
  | var =>
    have hfits := h.fits
    unfold Fits at hfits
    rw [hkind] at hfits
    exact .scalar hfits
  | qubitRegister =>
    obtain hty | ⟨n, -, hn, hty⟩ := h.fits.qubitRegister hkind
    · rw [hty]
      exact .undefined
    · rw [hty]
      exact .qubit (Nat.le_trans hn hmax)
  | bitRegister =>
    obtain hty | ⟨n, -, hn, hty⟩ := h.fits.bitRegister hkind
    · rw [hty]
      exact .undefined
    · rw [hty]
      exact .bit (Nat.le_trans hn hmax)
  | mapping =>
    obtain ⟨target, hty⟩ := h.target hkind
    rw [hty]
    refine Typed.Expr.arises_of_consistent hsymbols ?_
    exact Tree.Expr.consistent_expr env.table target _ (Typed.Expr.mem_subexprs _)

/-- What holds of a new symbol if it holds of all earlier ones holds of all symbols. -/
theorem forall_symbols_of_reached {p : Symbol → Prop}
    (hp : ∀ {env : Env} {symbol : Symbol}, symbol.DeclaredIn env →
      (∀ earlier ∈ env.table.symbols, p earlier) → p symbol)
    {dialect : Dialect} {env : Env} (h : env.Reached dialect) :
    ∀ symbol ∈ env.table.symbols, p symbol :=
  h.table_induction (p := fun table => ∀ symbol ∈ table.symbols, p symbol)
    (fun _ hmem => absurd hmem List.not_mem_nil)
    (fun _ hsymbol hall => List.forall_mem_append.mpr
      ⟨hall, List.forall_mem_singleton.mpr (hp hsymbol hall)⟩)
    (fun _ hall => hall) (fun _ hall => hall)

/-- The types of all symbols that the analysis declares arise. -/
theorem arises_of_reached {dialect : Dialect} {env : Env} (h : env.Reached dialect) :
    ∀ symbol ∈ env.table.symbols, symbol.ty.Arises :=
  forall_symbols_of_reached Symbol.arises_of_declaredIn h

/-! ## Programs -/

namespace Tree.Program

variable {program : Program} {dialect : Dialect}

/-- The expressions of a typed program, at any depth, are consistent with the symbol table at the
end. -/
theorem consistent_of_mem_exprs (h : program.dialect? = some dialect) {e : Typed.Expr}
    (he : e ∈ program.analyze.program.exprs) : e.Consistent (program.finalTable dialect) := by
  rw [Typed.Program.exprs, nodes_eq h, List.mem_flatMap] at he
  obtain ⟨node, hnode, he⟩ := he
  obtain ⟨site, hsite, rfl⟩ := List.mem_map.mp hnode
  obtain ⟨own, hown, he⟩ := List.mem_flatMap.mp he
  have htyped := Stmt.typedIn_ownExprs site.stmt site.env own hown
  exact (htyped.consistent he).mono (placed_of_mem_sites hsite).grows

/-- Every register refers to between one and 2^63 - 1 elements of its kind, unless its size is in
error, and every variable has the type of a classical value. No symbol and no expression, at any
depth and whatever errors the program contains, has the type of an instruction or of a function. -/
theorem kinds_analyze (h : program.dialect? = some dialect) :
    ∃ table, program.analyze.table = some table
      ∧ (∀ symbol ∈ table.symbols,
        (symbol.kind = .qubitRegister → symbol.ty = .undefined
          ∨ ∃ n, 1 ≤ n ∧ n ≤ 2 ^ 63 - 1 ∧ symbol.ty = .qubit n)
        ∧ (symbol.kind = .bitRegister → symbol.ty = .undefined
          ∨ ∃ n, 1 ≤ n ∧ n ≤ 2 ^ 63 - 1 ∧ symbol.ty = .bit n)
        ∧ (symbol.kind = .var → symbol.ty ∈ [.bool, .int, .float, .complex, .axis])
        ∧ symbol.ty.isPlain = true)
      ∧ ∀ e ∈ program.analyze.program.exprs, e.ty.isPlain = true := by
  have hreached := reached_end dialect program
  have harises : ∀ symbol ∈ (program.finalTable dialect).symbols, symbol.ty.Arises :=
    arises_of_reached hreached
  refine ⟨program.finalTable dialect, table_analyze h, fun symbol hsymbol => ?_,
    fun e he => (Typed.Expr.arises_of_consistent harises (consistent_of_mem_exprs h he)).isPlain⟩
  have hfits : symbol.Fits :=
    forall_symbols_of_reached (fun hsymbol _ => hsymbol.fits) hreached symbol hsymbol
  exact ⟨hfits.qubitRegister, hfits.bitRegister, hfits.var, (harises symbol hsymbol).isPlain⟩

/-- `version 3; map q[0:1], pair; map 1 + 2, sum; bit[0] none; map H(), m`, behind the declaration of
`q` and `b` with two elements. The size of `none` is in error, and `H` is no function. -/
def aliases : Program :=
  let loc : Location := ⟨1, 1⟩
  { version := some ⟨[3], loc⟩
    stmts :=
      [.qubits (.int loc 2) loc, .map (.slice loc "q" 0 1) ⟨"pair", loc⟩ loc,
        .map (.binary .add (.int loc 1) (.int loc 2) loc) ⟨"sum", loc⟩ loc,
        .declare ⟨"none", loc⟩ (.register .bit (some (.int loc 0))) none loc,
        .map (.call ⟨"H", loc⟩ [] loc) ⟨"m", loc⟩ loc] }

theorem kinds_analyze_aliases :
    aliases.dialect? = some .v3
      ∧ aliases.analyze.table.map (·.symbols.map fun symbol => (symbol.kind, symbol.ty))
        = some [(.qubitRegister, .qubit 2), (.bitRegister, .bit 2), (.mapping, .qubit 2),
          (.mapping, .int), (.bitRegister, .undefined), (.mapping, .undefined)]
      ∧ ∃ table, aliases.analyze.table = some table
        ∧ (∀ symbol ∈ table.symbols, symbol.ty.isPlain = true)
        ∧ ∀ e ∈ aliases.analyze.program.exprs, e.ty.isPlain = true := by
  have hdialect : aliases.dialect? = some .v3 := rfl
  obtain ⟨table, htable, hsymbols, hexprs⟩ := kinds_analyze hdialect
  exact ⟨hdialect, by decide +kernel, table, htable,
    fun symbol hsymbol => (hsymbols symbol hsymbol).2.2.2, hexprs⟩

end Tree.Program

end Cqasm
