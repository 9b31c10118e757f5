import Cqasm.Analysis.Stmt
import Cqasm.Proofs.Typed.Parts

/-!
# Where symbols occur

A typed program declares symbols and refers to them. Both are listed in program order, and once more
together in the order in which they are resolved, which differs from it: the conditions of branches
stand between the blocks, and the condition of a repeat loop behind the body.

* `Tree.Stmt.declarations`, `Typed.Stmt.ownSymbols` : what a statement itself declares, as written
  and after analysis;
* `Typed.Expr.symbol?`, `Typed.refs` : references;
* `Typed.Stmt.occurrences` : declarations and references in the order of resolution;
* `Typed.Numbered` : a list of occurrences in which every symbol that is declared gets the next number
  and every number that is referred to has been given away.
-/

namespace Cqasm

/-! ## Declarations -/

/-- What a declaration says about its symbol, apart from the type. -/
structure Declaration where
  name : String
  kind : SymbolKind
  loc : Location
deriving Repr, DecidableEq

/-- The declaration of a symbol. -/
def Symbol.declaration (symbol : Symbol) : Declaration := ⟨symbol.name, symbol.kind, symbol.loc⟩

namespace Tree

/-- The kind of symbol that is declared with the type. -/
def TypeSpec.symbolKind : TypeSpec → SymbolKind
  | register kind _ => kind.symbolKind
  | scalar _ => .var

/-- What the statement itself declares. -/
def Stmt.declarations : Stmt → List Declaration
  | qubits _ loc => [⟨"q", .qubitRegister, loc⟩, ⟨"b", .bitRegister, loc⟩]
  | declare name type _ _ => [⟨name.name, type.symbolKind, name.loc⟩]
  | map _ name _ => [⟨name.name, .mapping, name.loc⟩]
  | foreach name _ _ _ _ => [⟨name.name, .var, name.loc⟩]
  | _ => []

/-- The declarations of a program, in program order. -/
def Program.declarations (program : Program) : List Declaration :=
  program.nodes.flatMap Stmt.declarations

end Tree

namespace Typed

/-- The symbols that the statement itself declares. -/
def Stmt.ownSymbols : Stmt → List SymbolRef
  | .qubits _ q b _ => [q, b]
  | .declare _ symbol _ _ => [symbol]
  | .map _ symbol _ => [symbol]
  | .foreach _ symbol _ _ _ => [symbol]
  | _ => []

/-- The symbols that a program declares, in program order. -/
def Program.symbols (program : Program) : List SymbolRef := program.nodes.flatMap Stmt.ownSymbols

/-! ## References -/

/-- What a name or an indexed name refers to. -/
def Expr.symbol? : Expr → Option SymbolRef
  | .name _ symbol => some symbol
  | .index _ target _ => some target
  | _ => none

/-- The references in expressions, from left to right. -/
def refs (es : List Expr) : List SymbolRef := (es.flatMap Expr.subexprs).filterMap Expr.symbol?

@[simp] theorem refs_append (es es' : List Expr) : refs (es ++ es') = refs es ++ refs es' := by
  simp [refs]

theorem refs_cons (e : Expr) (es : List Expr) : refs (e :: es) = refs [e] ++ refs es :=
  refs_append [e] es

/-- The references of a statement itself. -/
def Stmt.ownRefs (s : Stmt) : List SymbolRef := refs s.ownExprs

/-- The references in a program are those of its statements. -/
theorem Program.refs_exprs (program : Program) :
    program.exprs.filterMap Expr.symbol? = program.nodes.flatMap Stmt.ownRefs := by
  rw [exprs, List.filterMap_flatMap]
  rfl

/-! ## The order of resolution -/

/-- The place of a symbol in a program. -/
inductive Occurrence where
  | declaration (ref : SymbolRef)
  | reference (ref : SymbolRef)

namespace Occurrence

/-- The symbol, if it is declared there. -/
def declared? : Occurrence → Option SymbolRef
  | declaration ref => some ref
  | reference _ => none

/-- The symbol, if it is referred to there. -/
def referred? : Occurrence → Option SymbolRef
  | declaration _ => none
  | reference ref => some ref

end Occurrence

/-- The symbols that are declared. -/
def declared (occs : List Occurrence) : List SymbolRef := occs.filterMap Occurrence.declared?

/-- The symbols that are referred to. -/
def referred (occs : List Occurrence) : List SymbolRef := occs.filterMap Occurrence.referred?

@[simp] theorem declared_append (occs occs' : List Occurrence) :
    declared (occs ++ occs') = declared occs ++ declared occs' := List.filterMap_append

@[simp] theorem referred_append (occs occs' : List Occurrence) :
    referred (occs ++ occs') = referred occs ++ referred occs' := List.filterMap_append

theorem mem_declared {occs : List Occurrence} {ref : SymbolRef} :
    ref ∈ declared occs ↔ .declaration ref ∈ occs := by
  rw [declared, List.mem_filterMap]
  constructor
  · rintro ⟨occ, hocc, href⟩
    cases occ with
    | declaration other =>
      cases href
      exact hocc
    | reference other => cases href
  · exact fun hocc => ⟨_, hocc, rfl⟩

theorem mem_referred {occs : List Occurrence} {ref : SymbolRef} :
    ref ∈ referred occs ↔ .reference ref ∈ occs := by
  rw [referred, List.mem_filterMap]
  constructor
  · rintro ⟨occ, hocc, href⟩
    cases occ with
    | declaration other => cases href
    | reference other =>
      cases href
      exact hocc
  · exact fun hocc => ⟨_, hocc, rfl⟩

/-- The references in expressions as occurrences. -/
def references (es : List Expr) : List Occurrence := (refs es).map .reference

/-- Declarations as occurrences. -/
def bindings (symbols : List SymbolRef) : List Occurrence := symbols.map .declaration

@[simp] theorem declared_references (es : List Expr) : declared (references es) = [] := by
  simp [declared, references, List.filterMap_map, Occurrence.declared?, Function.comp_def]

@[simp] theorem declared_bindings (symbols : List SymbolRef) :
    declared (bindings symbols) = symbols := by
  simp [declared, bindings, List.filterMap_map, Occurrence.declared?, Function.comp_def]

@[simp] theorem referred_references (es : List Expr) : referred (references es) = refs es := by
  simp [referred, references, List.filterMap_map, Occurrence.referred?, Function.comp_def]

@[simp] theorem referred_bindings (symbols : List SymbolRef) :
    referred (bindings symbols) = [] := by
  simp [referred, bindings, List.filterMap_map, Occurrence.referred?, Function.comp_def]

namespace Stmt

mutual

/-- The symbols that are referred to and declared in a statement, in the order of resolution. -/
def occurrences : Stmt → List Occurrence
  | qubits _ q b size => references [size] ++ bindings [q, b]
  | declare _ symbol size init => references (size.toList ++ init.toList) ++ bindings [symbol]
  | map _ symbol target => references [target] ++ bindings [symbol]
  | instruction _ call => references (call.operands ++ call.condition.toList)
  | bundle _ calls =>
    references (calls.flatMap fun call => call.operands ++ call.condition.toList)
  | subcircuit _ _ _ body => occurrencesAll body
  | assign _ lhs rhs => references [lhs, rhs]
  | ifElse _ branches otherwise => occurrencesBranches branches ++ occurrencesOtherwise otherwise
  | whileLoop _ condition body => references [condition] ++ occurrencesAll body
  | repeatUntil _ body condition => occurrencesAll body ++ references [condition]
  | foreach _ symbol first last body =>
    references [first, last] ++ bindings [symbol] ++ occurrencesAll body
  | loopControl _ _ => []

/-- The occurrences in a block. -/
def occurrencesAll : List Stmt → List Occurrence
  | [] => []
  | s :: ss => occurrences s ++ occurrencesAll ss

/-- The occurrences in the branches of a conditional, each condition before its block. -/
def occurrencesBranches : List (Expr × List Stmt) → List Occurrence
  | [] => []
  | (condition, body) :: branches =>
    references [condition] ++ occurrencesAll body ++ occurrencesBranches branches

/-- The occurrences in a block that may be missing. -/
def occurrencesOtherwise : Option (List Stmt) → List Occurrence
  | none => []
  | some body => occurrencesAll body

end

mutual

/-- Resolution comes along the declarations in program order. -/
theorem declared_occurrences : (s : Stmt) →
    declared s.occurrences = s.nodes.flatMap ownSymbols
  | subcircuit mark name iterations body => by
    rw [occurrences, nodes, List.flatMap_cons, declared_occurrencesAll]
    rfl
  | ifElse mark branches otherwise => by
    rw [occurrences, nodes, List.flatMap_cons, declared_append, declared_occurrencesBranches,
      declared_occurrencesOtherwise, List.flatMap_append]
    rfl
  | whileLoop mark condition body => by
    rw [occurrences, nodes, List.flatMap_cons, declared_append, declared_references,
      declared_occurrencesAll]
    rfl
  | repeatUntil mark body condition => by
    rw [occurrences, nodes, List.flatMap_cons, declared_append, declared_references,
      declared_occurrencesAll, List.append_nil]
    rfl
  | foreach mark symbol first last body => by
    rw [occurrences, nodes, List.flatMap_cons, declared_append, declared_append,
      declared_references, declared_bindings, declared_occurrencesAll]
    rfl
  | qubits .. | declare .. | map .. | instruction .. | bundle .. | assign .. => by
    simp [occurrences, nodes, ownSymbols]
  | loopControl .. => rfl

theorem declared_occurrencesAll : (ss : List Stmt) →
    declared (occurrencesAll ss) = (nodesAll ss).flatMap ownSymbols
  | [] => rfl
  | s :: ss => by
    rw [occurrencesAll, nodesAll, declared_append, declared_occurrences, declared_occurrencesAll,
      List.flatMap_append]

theorem declared_occurrencesBranches : (branches : List (Expr × List Stmt)) →
    declared (occurrencesBranches branches) = (nodesBranches branches).flatMap ownSymbols
  | [] => rfl
  | (condition, body) :: branches => by
    rw [occurrencesBranches, nodesBranches, declared_append, declared_append, declared_references,
      declared_occurrencesAll, declared_occurrencesBranches, List.flatMap_append, List.nil_append]

theorem declared_occurrencesOtherwise : (otherwise : Option (List Stmt)) →
    declared (occurrencesOtherwise otherwise) = (nodesOtherwise otherwise).flatMap ownSymbols
  | none => rfl
  | some body => by rw [occurrencesOtherwise, nodesOtherwise, declared_occurrencesAll]

end

mutual

/-- Resolution comes along every reference, though not in program order. -/
theorem perm_referred_occurrences : (s : Stmt) →
    (referred s.occurrences).Perm (s.nodes.flatMap ownRefs)
  | subcircuit mark name iterations body => by
    rw [occurrences, nodes, List.flatMap_cons]
    exact perm_referred_occurrencesAll body
  | ifElse mark branches otherwise => by
    rw [occurrences, nodes, List.flatMap_cons, referred_append, List.flatMap_append,
      ← List.append_assoc]
    exact (perm_referred_occurrencesBranches branches).append
      (perm_referred_occurrencesOtherwise otherwise)
  | whileLoop mark condition body => by
    rw [occurrences, nodes, List.flatMap_cons, referred_append, referred_references]
    exact (perm_referred_occurrencesAll body).append_left _
  | repeatUntil mark body condition => by
    rw [occurrences, nodes, List.flatMap_cons, referred_append, referred_references]
    exact List.perm_append_comm.trans ((perm_referred_occurrencesAll body).append_left _)
  | foreach mark symbol first last body => by
    rw [occurrences, nodes, List.flatMap_cons, referred_append, referred_append,
      referred_references, referred_bindings, List.append_nil]
    exact (perm_referred_occurrencesAll body).append_left _
  | qubits .. | declare .. | map .. | instruction .. | bundle .. | assign .. => by
    simp [occurrences, nodes, ownRefs, ownExprs]
  | loopControl .. => .nil

theorem perm_referred_occurrencesAll : (ss : List Stmt) →
    (referred (occurrencesAll ss)).Perm ((nodesAll ss).flatMap ownRefs)
  | [] => .nil
  | s :: ss => by
    rw [occurrencesAll, nodesAll, referred_append, List.flatMap_append]
    exact (perm_referred_occurrences s).append (perm_referred_occurrencesAll ss)

theorem perm_referred_occurrencesBranches : (branches : List (Expr × List Stmt)) →
    (referred (occurrencesBranches branches)).Perm
      (refs (branches.map (·.1)) ++ (nodesBranches branches).flatMap ownRefs)
  | [] => .nil
  | (condition, body) :: branches => by
    have hrefs : refs (((condition, body) :: branches).map (·.1))
        = refs [condition] ++ refs (branches.map (·.1)) := refs_cons condition _
    rw [occurrencesBranches, nodesBranches, referred_append, referred_append, referred_references,
      hrefs, List.flatMap_append, List.append_assoc, List.append_assoc]
    refine List.Perm.append_left _ ?_
    -- the blocks come between the conditions
    have hbody := (perm_referred_occurrencesAll body).append
      (perm_referred_occurrencesBranches branches)
    exact hbody.trans (List.perm_append_comm_assoc _ _ _)

theorem perm_referred_occurrencesOtherwise : (otherwise : Option (List Stmt)) →
    (referred (occurrencesOtherwise otherwise)).Perm ((nodesOtherwise otherwise).flatMap ownRefs)
  | none => .nil
  | some body => by
    rw [occurrencesOtherwise, nodesOtherwise]
    exact perm_referred_occurrencesAll body

end

/-- A statement that declares something resolves its own expressions first and declares then, before
it goes on to its block. -/
theorem occurrences_of_ownSymbols {s : Stmt} (h : s.ownSymbols ≠ []) :
    ∃ rest, s.occurrences = references s.ownExprs ++ (bindings s.ownSymbols ++ rest) := by
  cases s with
  | foreach mark symbol first last body =>
    refine ⟨occurrencesAll body, ?_⟩
    rw [occurrences, List.append_assoc]
    rfl
  | qubits | declare | map =>
    refine ⟨[], ?_⟩
    rw [occurrences, List.append_nil]
    rfl
  | _ => exact absurd rfl h

end Stmt

/-- The occurrences in a program, in the order of resolution. -/
def Program.occurrences (program : Program) : List Occurrence := Stmt.occurrencesAll program.stmts

/-! ## Numbers -/

/-- Symbols below `n` have been declared before the occurrences, and symbols below the other number
behind them: a symbol that is declared has the next number, and one that is referred to has been
declared. What is in error does not count. -/
inductive Numbered : Nat → List Occurrence → Nat → Prop
  | nil (n : Nat) : Numbered n [] n
  | declared {n m : Nat} {occs : List Occurrence} (hrest : Numbered (n + 1) occs m) :
    Numbered n (.declaration (.ok n) :: occs) m
  | undeclared {n m : Nat} {occs : List Occurrence} (error : SymbolError)
      (hrest : Numbered n occs m) : Numbered n (.declaration (.error error) :: occs) m
  | referred {n m : Nat} {occs : List Occurrence} {id : SymbolId} (hlt : id < n)
      (hrest : Numbered n occs m) : Numbered n (.reference (.ok id) :: occs) m
  | unreferred {n m : Nat} {occs : List Occurrence} (error : SymbolError)
      (hrest : Numbered n occs m) : Numbered n (.reference (.error error) :: occs) m

namespace Numbered

variable {n m k id : Nat} {occs occs' : List Occurrence}

theorem append (h : Numbered n occs k) (h' : Numbered k occs' m) : Numbered n (occs ++ occs') m := by
  induction h with
  | nil => exact h'
  | declared _ ih => exact .declared (ih h')
  | undeclared error _ ih => exact .undeclared error (ih h')
  | referred hlt _ ih => exact .referred hlt (ih h')
  | unreferred error _ ih => exact .unreferred error (ih h')

theorem split (h : Numbered n (occs ++ occs') m) : ∃ k, Numbered n occs k ∧ Numbered k occs' m := by
  induction occs generalizing n with
  | nil => exact ⟨n, .nil n, h⟩
  | cons occ occs ih =>
    cases h with
    | declared hrest =>
      obtain ⟨k, hfirst, hlast⟩ := ih hrest
      exact ⟨k, .declared hfirst, hlast⟩
    | undeclared error hrest =>
      obtain ⟨k, hfirst, hlast⟩ := ih hrest
      exact ⟨k, .undeclared error hfirst, hlast⟩
    | referred hlt hrest =>
      obtain ⟨k, hfirst, hlast⟩ := ih hrest
      exact ⟨k, .referred hlt hfirst, hlast⟩
    | unreferred error hrest =>
      obtain ⟨k, hfirst, hlast⟩ := ih hrest
      exact ⟨k, .unreferred error hfirst, hlast⟩

theorem le (h : Numbered n occs m) : n ≤ m := by
  induction h with
  | nil => exact Nat.le_refl _
  | declared _ ih => omega
  | undeclared _ _ ih | referred _ _ ih | unreferred _ _ ih => exact ih

/-- The numbers of the symbols that are declared follow each other. -/
theorem declared_eq_range' (h : Numbered n occs m) :
    (Typed.declared occs).filterMap Except.toOption = List.range' n (m - n) := by
  induction h with
  | nil => simp [Typed.declared]
  | @declared n m occs hrest ih =>
    have hle := hrest.le
    have hcount : m - n = (m - (n + 1)) + 1 := by omega
    rw [hcount, List.range'_succ, ← ih]
    rfl
  | undeclared _ _ ih | referred _ _ ih | unreferred _ _ ih => exact ih

/-- The symbols that are declared are those with the numbers from `n` to `m`. -/
theorem declaration_mem_iff (h : Numbered n occs m) :
    .declaration (.ok id) ∈ occs ↔ n ≤ id ∧ id < m := by
  have hmem : .declaration (.ok id) ∈ occs
      ↔ id ∈ (Typed.declared occs).filterMap Except.toOption := by
    rw [← mem_declared, List.mem_filterMap]
    constructor
    · exact fun href => ⟨.ok id, href, rfl⟩
    · rintro ⟨ref, href, hid⟩
      cases ref with
      | error error => cases hid
      | ok other =>
        cases hid
        exact href
  have hle := h.le
  rw [hmem, h.declared_eq_range', List.mem_range'_1]
  omega

theorem reference_lt (h : Numbered n occs m) (hmem : .reference (.ok id) ∈ occs) : id < m := by
  obtain ⟨before, after, rfl⟩ := List.append_of_mem hmem
  obtain ⟨k, -, hrest⟩ := h.split
  have hle := hrest.le
  cases hrest with
  | referred hlt _ => exact Nat.lt_of_lt_of_le hlt hle

/-- A reference comes behind the declaration of its symbol. -/
theorem declared_before {before after : List Occurrence}
    (h : Numbered 0 (before ++ .reference (.ok id) :: after) m) :
    .declaration (.ok id) ∈ before := by
  obtain ⟨k, hbefore, hrest⟩ := h.split
  cases hrest with
  | referred hlt _ => exact hbefore.declaration_mem_iff.mpr ⟨Nat.zero_le id, hlt⟩

end Numbered

end Typed

end Cqasm
