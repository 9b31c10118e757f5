import Cqasm.Proofs.Typed.Consistent

/-!
# Valid statements obey the static rules

A statement of a typed program is marked as valid if no error was found in it. Such a statement obeys
the rules of its kind (`obeys_of_valid`), wherever it stands. A rule lets everything pass that is
undefined, since the error behind it has been reported elsewhere.

* `Declared` : a declaration has given a symbol;
* `SizeRule` : the size of a register is a positive constant;
* `Stmt.Obeys` : the rules for each kind of statement;
* `Site.count?` : the number of iterations, which a typed subcircuit does not keep.
-/

namespace Cqasm

namespace Typed

/-- The declaration has given a symbol, and the symbol is as described. -/
def Declared (table : SymbolTable) (symbol : SymbolRef) (p : Symbol → Prop) : Prop :=
  ∃ id s, symbol = .ok id ∧ table.symbols[id]? = some s ∧ p s

theorem Declared.imp {table : SymbolTable} {symbol : SymbolRef} {p q : Symbol → Prop}
    (h : Declared table symbol p) (hpq : ∀ s, p s → q s) : Declared table symbol q := by
  obtain ⟨id, s, hid, hget, hp⟩ := h
  exact ⟨id, s, hid, hget, hpq s hp⟩

/-- The written size of a register is a positive constant, and the register has that many elements.
If the size is undefined then so is the register. -/
def SizeRule (size : Expr) (register : Symbol) : Prop :=
  size.ty = .undefined ∧ register.ty = .undefined
    ∨ ∃ n, size.constInt? = some n ∧ 1 ≤ n.toInt ∧ register.ty.registerSize? = some n.toInt.toNat

/-- The condition of the instruction, if there is one, is a Boolean. -/
def GateCall.Obeys (table : SymbolTable) (call : GateCall) : Prop :=
  ∀ e, call.condition = some e → table.dialect.promotions.Accepts e.ty .bool

/-- The rules for each kind of statement, for a statement that stands in a loop or not and whose
number of iterations, if it is written, is `count`. -/
def Stmt.Obeys (table : SymbolTable) (inLoop : Bool) (count : Option Expr) : Stmt → Prop
  | qubits _ q b size =>
    Declared table q (fun s => s.kind = .qubitRegister ∧ SizeRule size s)
      ∧ Declared table b (fun s => s.kind = .bitRegister ∧ SizeRule size s)
  | declare _ symbol size init =>
    Declared table symbol fun s => (∀ e, size = some e → SizeRule e s)
      ∧ ∀ e, init = some e → s.ty = .undefined ∨ table.dialect.promotions.Accepts e.ty s.ty
  | map _ symbol target => Declared table symbol fun s => s.kind = .mapping ∧ s.ty = target.ty
  | instruction _ call => call.Obeys table
  | bundle _ calls => ∀ call ∈ calls, call.Obeys table
  | subcircuit _ _ iterations _ =>
    iterations = none → ∃ e, count = some e ∧ e.ty = .undefined
  | assign _ lhs rhs =>
    ∃ note symbol, lhs = .name note symbol
      ∧ Declared table symbol fun s => s.kind = .var ∧ table.dialect.promotions.Accepts rhs.ty s.ty
  | ifElse _ branches _ => ∀ branch ∈ branches, table.dialect.promotions.Accepts branch.1.ty .bool
  | whileLoop _ condition _ => table.dialect.promotions.Accepts condition.ty .bool
  | repeatUntil _ _ condition => table.dialect.promotions.Accepts condition.ty .bool
  | foreach _ symbol first last _ =>
    Declared table symbol (fun s => s.kind = .var ∧ s.ty = .int)
      ∧ table.dialect.promotions.Accepts first.ty .int
      ∧ table.dialect.promotions.Accepts last.ty .int
  | loopControl _ _ => inLoop = true

end Typed

/-- The number of iterations of the statement, typed in front of it. -/
def Site.count? (site : Site) : Option Typed.Expr :=
  match site.stmt with
  | .subcircuit _ (some e) _ _ => some (e.analyze site.env.table).value
  | _ => none

open Typed (Declared SizeRule)

open Diagnostics (Clean clean_append)

/-! ## Parts of statements -/

namespace Analysis

variable {env : Env} {table : SymbolTable}

/-- Without an error, a declaration gives the symbol that it was to declare. -/
theorem declared_of_clean {symbol : Symbol} (h : (declareSymbol symbol env).log.Clean)
    (hgrows : (declareSymbol symbol env).value.2.table.Grows table) :
    Declared table (declareSymbol symbol env).value.1 fun s => s = symbol := by
  rw [declareSymbol_of_clean h] at hgrows ⊢
  refine ⟨_, symbol, rfl, hgrows.getElem? ?_, rfl⟩
  show (env.table.symbols ++ [symbol])[env.table.symbols.length]? = some symbol
  simp

theorem accepts_of_clean (hgrows : env.table.Grows table) {e : Typed.Expr} {ty : Ty}
    (hty : ty ≠ .undefined) (h : (env.table.checkConversion e ty).log.Clean) :
    table.dialect.promotions.Accepts e.ty ty := by
  rw [hgrows.dialect]
  exact ((SymbolTable.clean_checkConversion _).mp h).resolve_left hty

theorem accepts_of_condition (hgrows : env.table.Grows table) {e : Tree.Expr}
    (h : (condition e env).log.Clean) :
    table.dialect.promotions.Accepts (e.analyze env.table).value.ty .bool := by
  rw [log_condition, clean_append] at h
  exact accepts_of_clean hgrows (by simp) h.2

end Analysis

namespace Tree.Expr

/-- A name without a symbol is an error. -/
theorem exists_of_clean {table : SymbolTable} {e : Expr} {note : Typed.Note} {symbol : SymbolRef}
    (h : (e.analyze table).log.Clean) (hname : (e.analyze table).value = .name note symbol) :
    ∃ id, symbol = .ok id := by
  cases e with
  | name ident =>
    rw [(analyze_name table ident).1] at hname
    rw [(analyze_name table ident).2] at h
    rcases table.value_resolveName ident.name ident.loc with
      ⟨record, -, hvalue, -⟩ | ⟨error, -, -, hreport⟩
    · rw [hvalue] at hname
      cases hname
      exact ⟨record.id, rfl⟩
    · exact absurd h hreport
  | _ =>
    rw [analyze] at hname
    cases hname

end Tree.Expr

namespace Tree.Stmt

open Analysis

variable {env : Env} {table : SymbolTable}

/-- A register that is declared with a size without an error obeys the rule for it. -/
theorem sizeRule_register (kind : RegisterKind) {size : Typed.Expr}
    (h : (env.table.registerSize size).log.Clean) (name : String) (loc : Location) :
    SizeRule size ⟨name, kind.symbolKind, kind.ty (env.table.registerSize size).value, loc⟩ := by
  rw [SymbolTable.value_registerSize]
  rcases SymbolTable.clean_registerSize _ h with hty | ⟨n, hn, hpos⟩
  · refine Or.inl ⟨hty, ?_⟩
    rw [SymbolTable.constInt?_of_undefined hty]
    cases kind <;> rfl
  · refine Or.inr ⟨n, hn, hpos, ?_⟩
    rw [hn, Option.bind_some, if_pos hpos]
    cases kind <;> rfl

theorem sizeRule_analyzeType {type : TypeSpec} (h : (analyzeType type env).log.Clean)
    (name : String) (loc : Location) {size : Typed.Expr}
    (hsize : (analyzeType type env).value.1.1 = some size) :
    SizeRule size
      ⟨name, (analyzeType type env).value.1.2.2, (analyzeType type env).value.1.2.1, loc⟩ := by
  cases type with
  | scalar kind => cases hsize
  | register kind written =>
    cases written with
    | none => cases hsize
    | some written =>
      rw [(analyzeType_some env kind written).2, clean_append] at h
      rw [(analyzeType_some env kind written).1] at hsize ⊢
      cases hsize
      exact sizeRule_register kind h.2 name loc

theorem accepts_of_analyzeInit {ty : Ty} {init : Option Expr}
    (hgrows : env.table.Grows table) (h : (analyzeInit ty init env).log.Clean) {e : Typed.Expr}
    (he : (analyzeInit ty init env).value.1 = some e) :
    ty = .undefined ∨ table.dialect.promotions.Accepts e.ty ty := by
  cases init with
  | none => cases he
  | some written =>
    rw [(analyzeInit_some env ty written).2, clean_append] at h
    rw [(analyzeInit_some env ty written).1] at he
    cases he
    rw [hgrows.dialect]
    exact (SymbolTable.clean_checkConversion _).mp h.2

theorem obeys_instruction (hgrows : env.table.Grows table) {i : Instruction}
    (h : (analyzeInstruction i env).log.Clean) : (analyzeInstruction i env).value.1.Obeys table := by
  obtain ⟨hvalue, hlog⟩ := analyzeInstruction_eq env i
  rw [hlog, clean_append, clean_append] at h
  rw [hvalue]
  intro e he
  cases hcond : i.condition with
  | none =>
    rw [hcond] at he
    cases he
  | some cond =>
    rw [hcond, (analyzeCondition_some env cond).2] at h
    rw [hcond, (analyzeCondition_some env cond).1] at he
    cases he
    exact accepts_of_condition hgrows h.1.2

theorem obeys_instructions (hgrows : env.table.Grows table) {is : List Instruction}
    (h : (analyzeInstructions is env).log.Clean) :
    ∀ call ∈ (analyzeInstructions is env).value.1, call.Obeys table := by
  induction is with
  | nil => exact fun _ hmem => absurd hmem List.not_mem_nil
  | cons i is ih =>
    obtain ⟨hvalue, hlog⟩ := analyzeInstructions_cons env i is
    rw [hlog, clean_append] at h
    rw [hvalue]
    exact List.forall_mem_cons.mpr ⟨obeys_instruction hgrows h.1, ih h.2⟩

theorem undefined_of_analyzeIterations {count : Option Expr}
    (h : (analyzeIterations count env).log.Clean)
    (hnone : (analyzeIterations count env).value.1 = none) :
    ∃ e, count = some e ∧ (e.analyze env.table).value.ty = .undefined := by
  cases count with
  | none => cases hnone
  | some e =>
    rw [(analyzeIterations_some env e).2, clean_append] at h
    rw [(analyzeIterations_some env e).1, SymbolTable.value_iterationCount] at hnone
    rcases SymbolTable.clean_iterationCount _ h.2 with hty | ⟨n, hn, hle⟩
    · exact ⟨e, rfl, hty⟩
    · rw [hn, Option.bind_some, if_pos hle] at hnone
      cases hnone

theorem accepts_of_analyzeBranches {branches : List (Expr × List Stmt)}
    (hgrows : (analyzeBranches branches env).value.2.table.Grows table)
    (h : (analyzeBranches branches env).log.Clean) :
    ∀ branch ∈ (analyzeBranches branches env).value.1,
      table.dialect.promotions.Accepts branch.1.ty .bool := by
  induction branches generalizing env with
  | nil => exact fun _ hmem => absurd hmem List.not_mem_nil
  | cons branch branches ih =>
    obtain ⟨cond, body⟩ := branch
    have hfront := (stable_grows.analyzeBranches ((cond, body) :: branches) env).trans hgrows
    obtain ⟨hvalue, hlog⟩ := analyzeBranches_cons env cond body branches
    rw [hvalue] at hgrows ⊢
    rw [hlog, clean_append, clean_append] at h
    exact List.forall_mem_cons.mpr ⟨accepts_of_condition hfront h.1.1, ih hgrows h.2⟩

/-- An assignment without an error is one to a variable, of a value that converts to its type. -/
theorem declared_of_assign {inLoop : Bool} (hready : env.Ready inLoop)
    (hgrows : env.table.Grows table) {lhs : Expr} {rhs : Typed.Expr}
    (hlhs : (lhs.analyze env.table).log.Clean)
    (h : (checkAssign (lhs.analyze env.table).value rhs env).log.Clean) :
    ∃ note symbol, (lhs.analyze env.table).value = .name note symbol ∧ Declared table symbol
      fun s => s.kind = .var ∧ table.dialect.promotions.Accepts rhs.ty s.ty := by
  obtain ⟨note, symbol, hname, hsymbol⟩ := clean_checkAssign h
  obtain ⟨id, rfl⟩ := Expr.exists_of_clean hlhs hname
  have hconsistent := Expr.consistent_expr env.table lhs (.name note (.ok id))
    (by rw [hname]; exact List.mem_singleton.mpr rfl)
  obtain ⟨s, hget, hty⟩ := hconsistent
  obtain ⟨hkind, haccepts⟩ := hsymbol id rfl s hget
  refine ⟨note, .ok id, hname, id, s, rfl, hgrows.getElem? hget, hkind, ?_⟩
  -- The type of a variable is that of a value, so it is defined.
  have hscalar := hready.fits s (List.mem_of_getElem? hget)
  simp only [Symbol.Fits, hkind] at hscalar
  have hdefined : note.ty ≠ .undefined := by
    intro hundefined
    rw [← hty, hundefined] at hscalar
    cases hscalar
  rw [← hty, hgrows.dialect]
  exact haccepts.resolve_left hdefined

end Tree.Stmt

/-! ## Statements -/

namespace Site

open Analysis Tree.Stmt

variable {site : Site} {table : SymbolTable}

theorem clean_of_valid (h : site.node.valid = true) : (site.stmt.analyze site.env).log.Clean := by
  rw [node, valid_analyze, Bool.not_eq_true'] at h
  exact h

/-- A valid statement obeys the rules of its kind. -/
theorem obeys_of_valid (hplaced : site.Placed table) (hvalid : site.node.valid = true) :
    site.node.Obeys table site.inLoop site.count? := by
  have hclean := clean_of_valid hvalid
  have hfront := (stable_grows.analyze site.stmt site.env).trans hplaced.grows
  have hbehind := hplaced.grows
  have hready := hplaced.ready
  obtain ⟨s, env, inLoop⟩ := site
  unfold node
  unfold after at hbehind
  dsimp only at hclean hfront hbehind hready ⊢
  cases s with
  | qubits size loc =>
    obtain ⟨hvalue, hlog⟩ := analyze_qubits env size loc
    rw [hvalue] at hbehind ⊢
    rw [hlog, clean_append, clean_append, clean_append] at hclean
    obtain ⟨⟨⟨-, hsize⟩, hq⟩, hb⟩ := hclean
    refine ⟨(declared_of_clean hq ?_).imp ?_, (declared_of_clean hb hbehind).imp ?_⟩
    · exact (stable_grows.declareSymbol
        (fits_register .bit (fun _ => isRegisterSize_registerSize) "b" loc) _).trans hbehind
    · rintro _ rfl
      exact ⟨rfl, sizeRule_register .qubit hsize _ _⟩
    · rintro _ rfl
      exact ⟨rfl, sizeRule_register .bit hsize _ _⟩
  | declare name type init loc =>
    obtain ⟨hvalue, hlog⟩ := analyze_declare env name type init loc
    rw [hvalue] at hbehind ⊢
    rw [hlog, clean_append, clean_append] at hclean
    obtain ⟨⟨htype, hinit⟩, hsymbol⟩ := hclean
    refine (declared_of_clean hsymbol hbehind).imp ?_
    rintro _ rfl
    exact ⟨fun e he => sizeRule_analyzeType htype _ _ he,
      fun e he => accepts_of_analyzeInit hfront hinit he⟩
  | map target name loc =>
    obtain ⟨hvalue, hlog⟩ := analyze_map env target name loc
    rw [hvalue] at hbehind ⊢
    rw [hlog, clean_append] at hclean
    refine (declared_of_clean hclean.2 hbehind).imp ?_
    rintro _ rfl
    exact ⟨rfl, rfl⟩
  | instruction i =>
    obtain ⟨hvalue, hlog⟩ := analyze_instruction env i
    rw [hvalue]
    rw [hlog] at hclean
    exact obeys_instruction hfront hclean
  | bundle is loc =>
    obtain ⟨hvalue, hlog⟩ := analyze_bundle env is loc
    rw [hvalue]
    rw [hlog] at hclean
    exact obeys_instructions hfront hclean
  | subcircuit name iterations body loc =>
    obtain ⟨hvalue, hlog⟩ := analyze_subcircuit env name iterations body loc
    rw [hvalue]
    rw [hlog, clean_append, clean_append] at hclean
    intro hnone
    obtain ⟨e, rfl, hty⟩ := undefined_of_analyzeIterations hclean.1.2 hnone
    rw [table_nameSubcircuit] at hty
    exact ⟨_, rfl, hty⟩
  | assign lhs rhs loc =>
    obtain ⟨hvalue, hlog⟩ := analyze_assign env lhs rhs loc
    rw [hvalue]
    rw [hlog, clean_append, clean_append] at hclean
    exact declared_of_assign hready hfront hclean.1.1 hclean.2
  | ifElse branches otherwise loc =>
    obtain ⟨hvalue, hlog⟩ := analyze_ifElse env branches otherwise loc
    rw [hvalue] at hbehind ⊢
    rw [hlog, clean_append] at hclean
    exact accepts_of_analyzeBranches
      ((stable_grows.analyzeOtherwise otherwise _).trans hbehind) hclean.1
  | whileLoop cond body loc =>
    obtain ⟨hvalue, hlog⟩ := analyze_whileLoop env cond body loc
    rw [hvalue]
    rw [hlog, clean_append] at hclean
    exact accepts_of_condition hfront hclean.1
  | repeatUntil body cond loc =>
    obtain ⟨hvalue, hlog⟩ := analyze_repeatUntil env body cond loc
    rw [hvalue] at hbehind ⊢
    rw [hlog, clean_append] at hclean
    exact accepts_of_condition hbehind hclean.2
  | foreach name first last body loc =>
    obtain ⟨hvalue, hlog⟩ := analyze_foreach env name first last body loc
    rw [hvalue] at hbehind ⊢
    rw [hlog, clean_append, clean_append, clean_append] at hclean
    obtain ⟨⟨⟨hfirst, hlast⟩, hname⟩, -⟩ := hclean
    rw [log_analyzeBound, clean_append] at hfirst hlast
    refine ⟨(declared_of_clean hname ?_).imp ?_, accepts_of_clean hfront (by simp) hfirst.2,
      accepts_of_clean hfront (by simp) hlast.2⟩
    · exact (stable_grows.analyzeAll body _).trans
        ((SymbolTable.Grows.closeTo env.table.depth _).trans hbehind)
    · rintro _ rfl
      exact ⟨rfl, rfl⟩
  | loopControl control loc =>
    obtain ⟨hvalue, hlog⟩ := analyze_loopControl env control loc
    rw [hvalue]
    rw [hlog] at hclean
    exact hready.inLoop_eq.symm.trans (clean_checkLoopControl hclean)

end Site

namespace Tree.Program

variable {program : Program} {dialect : Dialect}

/-- The sites of a program come along its statements, at any depth, and give the nodes of the typed
program. Each node that is marked as valid obeys the static rules. -/
theorem obeys_of_valid_analyze (h : program.dialect? = some dialect) :
    ∃ table, program.analyze.table = some table ∧ table.dialect = dialect
      ∧ (program.sites dialect).map Site.stmt = program.nodes
      ∧ (program.sites dialect).map Site.node = program.analyze.program.nodes
      ∧ ∀ site ∈ program.sites dialect, site.node.valid = true →
        site.node.Obeys table site.inLoop site.count? := by
  refine ⟨program.finalTable dialect, table_analyze h, dialect_finalTable dialect program,
    stmts_eq dialect program, (nodes_eq h).symm, fun site hsite hvalid => ?_⟩
  exact Site.obeys_of_valid (placed_of_mem_sites hsite) hvalid

/-- `qubits 2; float x = 1; foreach (k = 0..1) { x = k; break }`. -/
def counting : Program :=
  let loc : Location := ⟨1, 1⟩
  let name (x : String) : Tree.Ident := ⟨x, loc⟩
  { version := some ⟨[3], loc⟩
    stmts :=
      [.qubits (.int loc 2) loc,
        .declare (name "x") (.scalar .float) (some (.int loc 1)) loc,
        .foreach (name "k") (.int loc 0) (.int loc 1)
          [.assign (.name (name "x")) (.name (name "k")) loc, .loopControl .breakLoop loc] loc] }

theorem obeys_of_valid_analyze_counting :
    counting.dialect? = some .v3 ∧ counting.analyze.program.nodes.all (·.valid) = true
      ∧ (counting.sites .v3).map Site.inLoop = [false, false, false, true, true]
      ∧ ∃ table, counting.analyze.table = some table ∧ table.dialect = .v3
        ∧ (counting.sites .v3).map Site.stmt = counting.nodes
        ∧ (counting.sites .v3).map Site.node = counting.analyze.program.nodes
        ∧ ∀ site ∈ counting.sites .v3, site.node.valid = true →
          site.node.Obeys table site.inLoop site.count? :=
  have hdialect : counting.dialect? = some .v3 := rfl
  ⟨hdialect, by decide +kernel, by decide +kernel, obeys_of_valid_analyze hdialect⟩

end Tree.Program

end Cqasm
