import Cqasm.Proofs.Typed.Consistent
import Cqasm.Proofs.Typed.Occurrences

/-!
# The numbers of symbols

The symbols of a program are numbered in the order of their declarations, whatever declarations fail
between them, and a reference is to a symbol that has been declared when it is resolved
(`enumerated_analyze`). The proof follows the analysis: the next number is always the number of
symbols in the table (`numbered_analyze`), which neither opening nor closing a scope changes.

* `Env.count` : the number of symbols so far;
* `SymbolTable.Declares` : a declaration that succeeds is of the symbol with its number;
* `Tree.Program.Enumerated` : what is said about a program as written, after analysis, and its table.
-/

namespace Cqasm

open Typed (Numbered references bindings)

/-- The number of symbols so far. -/
def Env.count (env : Env) : Nat := env.table.symbols.length

namespace SymbolTable

variable {table table' : SymbolTable}

/-- The declaration is of the symbol with the given number, unless it failed. -/
def Declares (table : SymbolTable) (declaration : Declaration) (ref : SymbolRef) : Prop :=
  ∀ id, ref = .ok id → (table.symbols[id]?).map Symbol.declaration = some declaration

theorem Declares.mono {declaration : Declaration} {ref : SymbolRef}
    (h : table.Declares declaration ref) (hgrows : table.Grows table') :
    table'.Declares declaration ref := by
  intro id hid
  obtain ⟨symbol, hget, hdeclaration⟩ := Option.map_eq_some_iff.mp (h id hid)
  rw [hgrows.getElem? hget, ← hdeclaration]
  rfl

theorem lt_of_consistent {e : Typed.Expr} (h : e.Consistent table) {id : SymbolId}
    (hsymbol : e.symbol? = some (.ok id)) : id < table.symbols.length := by
  have hrefers : ∃ ty, Typed.RefersTo table (.ok id) ty := by
    cases e with
    | name note symbol =>
      cases hsymbol
      exact ⟨_, h⟩
    | index note target ranges =>
      cases hsymbol
      obtain ⟨ty, htarget, -⟩ := h
      exact ⟨ty, htarget⟩
    | literal | call | axis => cases hsymbol
  obtain ⟨ty, symbol, hget, -⟩ := hrefers
  exact (List.getElem?_eq_some_iff.mp hget).1

end SymbolTable

/-! ## Declarations and references -/

namespace Tree.Stmt

open Analysis

variable {table : SymbolTable}

/-- Expressions refer to symbols of the table. -/
theorem numbered_references {es : List Typed.Expr} (h : ∀ e ∈ es, TypedIn table e) :
    Numbered table.symbols.length (references es) table.symbols.length := by
  have hlt : ∀ ref ∈ Typed.refs es, ∀ id, ref = .ok id → id < table.symbols.length := by
    intro ref href id hid
    obtain ⟨e, he, hsymbol⟩ := List.mem_filterMap.mp href
    obtain ⟨own, hown, hsub⟩ := List.mem_flatMap.mp he
    rw [hid] at hsymbol
    exact SymbolTable.lt_of_consistent ((h own hown).consistent hsub) hsymbol
  unfold references
  generalize Typed.refs es = refs at hlt
  induction refs with
  | nil => exact .nil _
  | cons ref refs ih =>
    obtain ⟨hhead, hrest⟩ := List.forall_mem_cons.mp hlt
    cases ref with
    | error error => exact .unreferred error (ih hrest)
    | ok id => exact .referred (hhead id rfl) (ih hrest)

theorem numbered_expr (e : Expr) (table : SymbolTable) :
    Numbered table.symbols.length (references [(e.analyze table).value]) table.symbols.length :=
  numbered_references (List.forall_mem_singleton.mpr ⟨e, table, .refl _, rfl⟩)

/-- The expressions in front of the blocks of a statement refer to the symbols so far. -/
theorem numbered_front {s : Stmt} (hs : s.OpensWithExprs) (env : Env) :
    Numbered env.count (references (s.analyze env).value.1.ownExprs) env.count :=
  numbered_references (typedIn_front hs env)

theorem numbered_declareSymbol (symbol : Symbol) (env : Env) :
    Numbered env.count (bindings [(declareSymbol symbol env).value.1])
      (declareSymbol symbol env).value.2.count := by
  cases hbinds : env.table.current.binds symbol.name with
  | true =>
    rw [(declareSymbol_of_binds hbinds).1]
    exact .undeclared _ (.nil _)
  | false =>
    have hcount : (env.bindCurrent symbol).count = env.count + 1 := by
      simp [Env.count, Env.bindCurrent, SymbolTable.bindCurrent]
    rw [(declareSymbol_of_not_binds hbinds).1, hcount]
    exact .declared (.nil _)

theorem declares_declareSymbol (symbol : Symbol) (env : Env) :
    (declareSymbol symbol env).value.2.table.Declares symbol.declaration
      (declareSymbol symbol env).value.1 := by
  intro id hid
  cases hbinds : env.table.current.binds symbol.name with
  | true =>
    rw [(declareSymbol_of_binds hbinds).1] at hid
    cases hid
  | false =>
    rw [(declareSymbol_of_not_binds hbinds).1] at hid ⊢
    cases hid
    simp [Env.bindCurrent, SymbolTable.bindCurrent]

theorem symbolKind_analyzeType (type : TypeSpec) (env : Env) :
    (analyzeType type env).value.1.2.2 = type.symbolKind := by
  cases type with
  | scalar kind => rfl
  | register kind size => cases size <;> rfl

/-- What the statement itself declares is in the table behind it. -/
theorem declares_ownSymbols (s : Stmt) (env : Env) :
    List.Forall₂ (s.analyze env).value.2.table.Declares s.declarations
      (s.analyze env).value.1.ownSymbols := by
  cases s with
  | qubits size loc =>
    rw [(analyze_qubits env size loc).1]
    refine .cons ((declares_declareSymbol _ env).mono ?_) (.cons (declares_declareSymbol _ _) .nil)
    exact stable_grows.declareSymbol
      (fits_register .bit (fun _ => isRegisterSize_registerSize) "b" loc) _
  | declare name type init loc =>
    rw [(analyze_declare env name type init loc).1]
    rw [declarations, ← symbolKind_analyzeType type env]
    exact .cons (declares_declareSymbol _ _) .nil
  | map target name loc =>
    rw [(analyze_map env target name loc).1]
    exact .cons (declares_declareSymbol _ _) .nil
  | foreach name first last body loc =>
    rw [(analyze_foreach env name first last body loc).1]
    have hsymbol := declares_declareSymbol ⟨name.name, .var, .int, name.loc⟩ (env.enter .loop)
    exact .cons (hsymbol.mono ((stable_grows.analyzeAll body _).trans (.closeTo _ _))) .nil
  | _ =>
    rw [analyze]
    exact .nil

/-! ## Statements -/

mutual

/-- The occurrences of symbols in a statement are numbered from the symbols in front of it to those
behind it. -/
theorem numbered_analyze (env : Env) : (s : Stmt) →
    Numbered env.count (s.analyze env).value.1.occurrences (s.analyze env).value.2.count
  | .qubits size loc => by
    have hfront := numbered_front (s := .qubits size loc) trivial env
    rw [(analyze_qubits env size loc).1] at hfront ⊢
    rw [Typed.Stmt.occurrences]
    exact hfront.append ((numbered_declareSymbol _ env).append (numbered_declareSymbol _ _))
  | .declare name type init loc => by
    have hfront := numbered_front (s := .declare name type init loc) trivial env
    rw [(analyze_declare env name type init loc).1] at hfront ⊢
    rw [Typed.Stmt.occurrences]
    exact hfront.append (numbered_declareSymbol _ env)
  | .map target name loc => by
    have hfront := numbered_front (s := .map target name loc) trivial env
    rw [(analyze_map env target name loc).1] at hfront ⊢
    rw [Typed.Stmt.occurrences]
    exact hfront.append (numbered_declareSymbol _ env)
  | .instruction i => by
    have hfront := numbered_front (s := .instruction i) trivial env
    rw [(analyze_instruction env i).1] at hfront ⊢
    rw [Typed.Stmt.occurrences]
    exact hfront
  | .bundle is loc => by
    have hfront := numbered_front (s := .bundle is loc) trivial env
    rw [(analyze_bundle env is loc).1] at hfront ⊢
    rw [Typed.Stmt.occurrences]
    exact hfront
  | .subcircuit name iterations body loc => by
    have hnamed : (nameSubcircuit name env).value.2.count = env.count := by
      rw [Env.count, table_nameSubcircuit, Env.count]
    have hbody := numbered_analyzeAll ((nameSubcircuit name env).value.2.enter .subcircuit) body
    rw [(analyze_subcircuit env name iterations body loc).1, Typed.Stmt.occurrences, ← hnamed]
    exact hbody
  | .assign lhs rhs loc => by
    have hfront := numbered_front (s := .assign lhs rhs loc) trivial env
    rw [(analyze_assign env lhs rhs loc).1] at hfront ⊢
    rw [Typed.Stmt.occurrences]
    exact hfront
  | .ifElse branches otherwise loc => by
    rw [(analyze_ifElse env branches otherwise loc).1, Typed.Stmt.occurrences]
    exact (numbered_analyzeBranches env branches).append (numbered_analyzeOtherwise _ otherwise)
  | .whileLoop cond body loc => by
    rw [(analyze_whileLoop env cond body loc).1, Typed.Stmt.occurrences]
    exact (numbered_expr cond env.table).append (numbered_analyzeAll (env.enter .loop) body)
  | .repeatUntil body cond loc => by
    rw [(analyze_repeatUntil env body cond loc).1, Typed.Stmt.occurrences]
    have hbody := numbered_analyzeAll (env.enter .loop) body
    have hcond := numbered_expr cond
      (env.leave (analyzeAll body (env.enter .loop)).value.2).table
    exact hbody.append hcond
  | .foreach name first last body loc => by
    have hfront := numbered_front (s := .foreach name first last body loc) trivial env
    rw [(analyze_foreach env name first last body loc).1] at hfront ⊢
    rw [Typed.Stmt.occurrences]
    -- the variable is declared in the scope of the body, behind the bounds
    have hsymbol := numbered_declareSymbol ⟨name.name, .var, .int, name.loc⟩ (env.enter .loop)
    exact (hfront.append hsymbol).append (numbered_analyzeAll _ body)
  | .loopControl control loc => by
    rw [(analyze_loopControl env control loc).1, Typed.Stmt.occurrences]
    exact .nil _

theorem numbered_analyzeAll (env : Env) : (ss : List Stmt) →
    Numbered env.count (Typed.Stmt.occurrencesAll (analyzeAll ss env).value.1)
      (analyzeAll ss env).value.2.count
  | [] => .nil _
  | s :: ss => by
    rw [(analyzeAll_cons env s ss).1, Typed.Stmt.occurrencesAll]
    exact (numbered_analyze env s).append (numbered_analyzeAll _ ss)

theorem numbered_analyzeBranches (env : Env) : (branches : List (Expr × List Stmt)) →
    Numbered env.count (Typed.Stmt.occurrencesBranches (analyzeBranches branches env).value.1)
      (analyzeBranches branches env).value.2.count
  | [] => .nil _
  | (cond, body) :: branches => by
    rw [(analyzeBranches_cons env cond body branches).1, Typed.Stmt.occurrencesBranches]
    have hbody := numbered_analyzeAll (env.enter .branch) body
    have hrest := numbered_analyzeBranches
      (env.leave (analyzeAll body (env.enter .branch)).value.2) branches
    exact ((numbered_expr cond env.table).append hbody).append hrest

theorem numbered_analyzeOtherwise (env : Env) : (otherwise : Option (List Stmt)) →
    Numbered env.count (Typed.Stmt.occurrencesOtherwise (analyzeOtherwise otherwise env).value.1)
      (analyzeOtherwise otherwise env).value.2.count
  | none => .nil _
  | some body => by
    rw [(analyzeOtherwise_some env body).1, Typed.Stmt.occurrencesOtherwise]
    exact numbered_analyzeAll (env.enter .branch) body

end

end Tree.Stmt

/-- The references of a statement are to symbols with smaller numbers than those that it declares
itself. -/
theorem Typed.Numbered.lt_of_ownSymbols {s : Typed.Stmt} {n m : Nat}
    (h : Numbered n s.occurrences m) {id id' : SymbolId} (href : .ok id ∈ s.ownRefs)
    (hsymbol : .ok id' ∈ s.ownSymbols) : id < id' := by
  obtain ⟨rest, hrest⟩ := Typed.Stmt.occurrences_of_ownSymbols (List.ne_nil_of_mem hsymbol)
  rw [hrest] at h
  -- the references are resolved while there are `k` symbols
  obtain ⟨k, hrefs, hsymbols⟩ := h.split
  have hid : id < k := hrefs.reference_lt (List.mem_map_of_mem href)
  have hbinding : Typed.Occurrence.declaration (.ok id') ∈ bindings s.ownSymbols ++ rest :=
    List.mem_append_left rest (List.mem_map_of_mem hsymbol)
  exact Nat.lt_of_lt_of_le hid (hsymbols.declaration_mem_iff.mp hbinding).1

/-! ## Programs -/

namespace Tree.Program

open Typed (Occurrence)

/-- The symbols of the table are the declarations of the program that succeed, one by one and in
program order, and a reference is to a symbol that was declared before. -/
structure Enumerated (written : Program) (program : Typed.Program) (table : SymbolTable) : Prop where
  /-- The numbers of the declarations that succeed. -/
  declared : program.symbols.filterMap Except.toOption = List.range table.symbols.length
  /-- The symbol with that number has the name, the kind and the location of the declaration. -/
  declares : List.Forall₂ table.Declares written.declarations program.symbols
  /-- The order of resolution comes along the declarations in program order. -/
  declared_eq : Typed.declared program.occurrences = program.symbols
  /-- The order of resolution comes along all references, each once. -/
  referred_perm :
    (Typed.referred program.occurrences).Perm (program.exprs.filterMap Typed.Expr.symbol?)
  /-- A reference is to a symbol that was declared before it is resolved. -/
  declared_before : ∀ before after id,
    program.occurrences = before ++ .reference (.ok id) :: after → .declaration (.ok id) ∈ before
  lt : ∀ e ∈ program.exprs, ∀ id, e.symbol? = some (.ok id) → id < table.symbols.length
  /-- A statement does not refer to what it declares itself, nor to what is declared later. -/
  lt_own : ∀ node ∈ program.nodes, ∀ id, .ok id ∈ node.ownRefs →
    ∀ id', .ok id' ∈ node.ownSymbols → id < id'

variable {program : Program} {dialect : Dialect}

theorem numbered_occurrences (h : program.dialect? = some dialect) :
    Numbered 0 program.analyze.program.occurrences (program.finalTable dialect).symbols.length := by
  rw [analyze_eq h]
  exact Stmt.numbered_analyzeAll (Env.new dialect) program.stmts

theorem forall₂_declares (h : program.dialect? = some dialect) :
    List.Forall₂ (program.finalTable dialect).Declares program.declarations
      program.analyze.program.symbols := by
  rw [declarations, Typed.Program.symbols, nodes_eq h, ← stmts_eq dialect, List.flatMap_map,
    List.flatMap_map]
  have hsame : List.Forall₂ (fun site site' => site = site' ∧ site ∈ program.sites dialect)
      (program.sites dialect) (program.sites dialect) :=
    List.forall₂_same.mpr fun site hsite => ⟨rfl, hsite⟩
  refine List.rel_flatMap hsame ?_
  rintro site _ ⟨rfl, hsite⟩
  have hgrows := (placed_of_mem_sites hsite).grows
  exact (Stmt.declares_ownSymbols site.stmt site.env).imp fun _ _ hdeclares => hdeclares.mono hgrows

/-- Whatever declarations fail in a program of a supported version, the others are numbered from zero
in program order and are the symbols of the table, and every reference is to one before it. -/
theorem enumerated_analyze (h : program.dialect? = some dialect) :
    ∃ table, program.analyze.table = some table
      ∧ program.Enumerated program.analyze.program table := by
  have hnumbered := numbered_occurrences h
  have hdeclared : Typed.declared program.analyze.program.occurrences
      = program.analyze.program.symbols :=
    Typed.Stmt.declared_occurrencesAll program.analyze.program.stmts
  have hreferred : (Typed.referred program.analyze.program.occurrences).Perm
      (program.analyze.program.exprs.filterMap Typed.Expr.symbol?) := by
    rw [Typed.Program.refs_exprs]
    exact Typed.Stmt.perm_referred_occurrencesAll program.analyze.program.stmts
  refine ⟨program.finalTable dialect, table_analyze h, ?_, forall₂_declares h, hdeclared, hreferred,
    ?_, ?_, ?_⟩
  · rw [← hdeclared, hnumbered.declared_eq_range', Nat.sub_zero, List.range_eq_range']
  · intro before after id heq
    rw [heq] at hnumbered
    exact hnumbered.declared_before
  · intro e he id hsymbol
    have hmem : .ok id ∈ Typed.referred program.analyze.program.occurrences :=
      hreferred.mem_iff.mpr (List.mem_filterMap.mpr ⟨e, he, hsymbol⟩)
    exact hnumbered.reference_lt (Typed.mem_referred.mp hmem)
  · intro node hnode id href id' hsymbol
    rw [nodes_eq h] at hnode
    obtain ⟨site, -, rfl⟩ := List.mem_map.mp hnode
    exact (Stmt.numbered_analyze site.env site.stmt).lt_of_ownSymbols href hsymbol

/-- `version 3; qubits 2; int q = 1; map q[0], a; foreach i = 0 .. 1 { int j = i }`, which declares
`q` twice. -/
def twice : Program :=
  let loc : Location := ⟨1, 1⟩
  { version := some ⟨[3], loc⟩
    stmts :=
      [.qubits (.int loc 2) loc,
        .declare ⟨"q", loc⟩ (.scalar .int) (some (.int loc 1)) loc,
        .map (.items loc "q" [0]) ⟨"a", loc⟩ loc,
        .foreach ⟨"i", loc⟩ (.int loc 0) (.int loc 1)
          [.declare ⟨"j", loc⟩ (.scalar .int) (some (.name ⟨"i", loc⟩)) loc] loc] }

/-- The second `q` has no number, and the alias behind it has the next one. -/
theorem enumerated_analyze_twice :
    twice.dialect? = some .v3
      ∧ twice.analyze.program.symbols
        = [.ok 0, .ok 1, .error .alreadyBound, .ok 2, .ok 3, .ok 4]
      ∧ ∃ table, twice.analyze.table = some table ∧ table.symbols.length = 5
        ∧ twice.Enumerated twice.analyze.program table := by
  have hdialect : twice.dialect? = some .v3 := rfl
  have hsymbols : twice.analyze.program.symbols
      = [.ok 0, .ok 1, .error .alreadyBound, .ok 2, .ok 3, .ok 4] := by decide +kernel
  obtain ⟨table, htable, henumerated⟩ := enumerated_analyze hdialect
  have hlength := congrArg List.length henumerated.declared
  rw [hsymbols, List.length_range] at hlength
  exact ⟨hdialect, hsymbols, table, htable, hlength.symm, henumerated⟩

end Tree.Program

end Cqasm
