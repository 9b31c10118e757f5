import Cqasm.Proofs.Analysis.Site

/-!
# Environments that the analysis reaches

The analysis of a program starts with the global scope and no symbol. From there it declares symbols
and subcircuits, opens a scope for every block and closes it again; nothing else changes the
environment. What holds of the first environment and survives each of these steps holds wherever the
analysis comes along, behind every statement (`reached_analyze`) and at the end (`reached_end`).

* `Symbol.DeclaredIn` : a symbol that a statement may declare in an environment;
* `Env.Reached` : the environments of the programs of a dialect.
-/

namespace Cqasm

open Analysis

/-- The type fits the kind of the symbol, and a mapping has the type of an expression, its target. -/
structure Symbol.DeclaredIn (symbol : Symbol) (env : Env) : Prop where
  fits : symbol.Fits
  target : symbol.kind = .mapping →
    ∃ target : Tree.Expr, symbol.ty = (target.analyze env.table).value.ty

/-- An environment that is reached in the analysis of a program of the dialect. -/
inductive Env.Reached (dialect : Dialect) : Env → Prop where
  | new : Reached dialect (.new dialect)
  | declare {env : Env} {symbol : Symbol} (h : Reached dialect env)
      (hsymbol : symbol.DeclaredIn env) : Reached dialect (declareSymbol symbol env).value.2
  | name {env : Env} (h : Reached dialect env) (ident : Tree.Ident) :
      Reached dialect (Analysis.nameSubcircuit ident env).value.2
  | enter {env : Env} (h : Reached dialect env) (kind : BlockKind) :
      Reached dialect (env.enter kind)
  /-- The end of a block that started in `env`. -/
  | leave {env env' : Env} (h : Reached dialect env) (h' : Reached dialect env')
      (hnested : env'.table.nested.tail = env.table.nested) : Reached dialect (env.leave env')

namespace Env.Reached

variable {dialect : Dialect} {env : Env}

/-- An invariant of symbol tables: it holds of a new one, and declaring a symbol and opening and
closing scopes keep it. -/
theorem table_induction {p : SymbolTable → Prop} (h : Reached dialect env)
    (hnew : p (.new dialect))
    (hdeclare : ∀ {env : Env} {symbol : Symbol}, Reached dialect env → symbol.DeclaredIn env →
      p env.table → p (env.table.bindCurrent symbol))
    (henter : ∀ {table} kind, p table → p (table.enter kind))
    (hclose : ∀ {table} depth, p table → p (table.closeTo depth)) : p env.table := by
  induction h with
  | new => exact hnew
  | @declare env symbol h hsymbol ih =>
    cases hbinds : env.table.current.binds symbol.name with
    | true => rwa [(declareSymbol_of_binds hbinds).1]
    | false =>
      rw [(declareSymbol_of_not_binds hbinds).1]
      exact hdeclare h hsymbol ih
  | name _ ident ih => rwa [table_nameSubcircuit]
  | enter _ kind ih => exact henter kind ih
  | leave _ _ _ _ ih' => exact hclose _ ih'

theorem formed (h : Reached dialect env) : env.table.Formed :=
  h.table_induction (SymbolTable.formed_new dialect) (fun _ _ h => h.bindCurrent _)
    (fun kind h => h.enter kind) (fun depth h => h.closeTo depth)

/-- The end of a block that was analysed in a scope of its own. -/
theorem leave_analyzeAll (h : Reached dialect env) {kind : BlockKind} {ss : List Tree.Stmt}
    {start : Env} (hstart : start.table.nested = (env.enter kind).table.nested)
    (hbody : Reached dialect (Tree.Stmt.analyzeAll ss start).value.2) :
    Reached dialect (env.leave (Tree.Stmt.analyzeAll ss start).value.2) := by
  refine h.leave hbody ?_
  rw [stable_nested.analyzeAll ss start, hstart]
  rfl

end Env.Reached

namespace Tree.Stmt

variable {dialect : Dialect}

open Env (Reached)

theorem kind_analyzeType (type : TypeSpec) (env : Env) :
    (analyzeType type env).value.1.2.2 ≠ .mapping := by
  cases type with
  | scalar kind => exact nofun
  | register kind size =>
    cases size with
    | none | some => cases kind <;> exact nofun

/-- A symbol that is no mapping may be declared if its type fits. -/
theorem declaredIn_of_fits {symbol : Symbol} {env : Env} (hfits : symbol.Fits)
    (hkind : symbol.kind ≠ .mapping) : symbol.DeclaredIn env :=
  ⟨hfits, fun h => absurd h hkind⟩

/-- The variable of a loop over integers, in the scope of the loop. -/
theorem reached_loopVariable {env : Env} (h : Reached dialect env) (name : Ident) :
    let symbol := declareSymbol ⟨name.name, .var, .int, name.loc⟩ (env.enter .loop)
    Reached dialect symbol.value.2
      ∧ symbol.value.2.table.nested = (env.enter .loop).table.nested := by
  intro symbol
  have hfits : (Symbol.mk name.name .var .int name.loc).Fits := rfl
  exact ⟨(h.enter .loop).declare (declaredIn_of_fits hfits nofun),
    stable_nested.declareSymbol hfits _⟩

mutual

/-- From where a statement starts, the analysis reaches the environment behind it. -/
theorem reached_analyze {env : Env} (h : Reached dialect env) :
    (s : Stmt) → Reached dialect (s.analyze env).value.2
  | .qubits size loc => by
    rw [(analyze_qubits env size loc).1]
    have hsize (n : Nat)
        (hn : (env.table.registerSize (size.analyze env.table).value).value = some n) :
        IsRegisterSize n := isRegisterSize_registerSize hn
    exact (h.declare (declaredIn_of_fits (fits_register .qubit hsize "q" loc) nofun)).declare
      (declaredIn_of_fits (fits_register .bit hsize "b" loc) nofun)
  | .declare name type init loc => by
    rw [(analyze_declare env name type init loc).1]
    exact h.declare (declaredIn_of_fits (fits_analyzeType type env name.name name.loc)
      (kind_analyzeType type env))
  | .map target name loc => by
    rw [(analyze_map env target name loc).1]
    exact h.declare ⟨trivial, fun _ => ⟨target, rfl⟩⟩
  | .instruction i => by rwa [(analyze_instruction env i).1]
  | .bundle is loc => by rwa [(analyze_bundle env is loc).1]
  | .subcircuit name iterations body loc => by
    rw [(analyze_subcircuit env name iterations body loc).1]
    exact (h.name name).leave_analyzeAll rfl (reached_analyzeAll ((h.name name).enter _) body)
  | .assign lhs rhs loc => by rwa [(analyze_assign env lhs rhs loc).1]
  | .ifElse branches otherwise loc => by
    rw [(analyze_ifElse env branches otherwise loc).1]
    exact reached_analyzeOtherwise (reached_analyzeBranches h branches) otherwise
  | .whileLoop cond body loc => by
    rw [(analyze_whileLoop env cond body loc).1]
    exact h.leave_analyzeAll rfl (reached_analyzeAll (h.enter .loop) body)
  | .repeatUntil body cond loc => by
    rw [(analyze_repeatUntil env body cond loc).1]
    exact h.leave_analyzeAll rfl (reached_analyzeAll (h.enter .loop) body)
  | .foreach name first last body loc => by
    rw [(analyze_foreach env name first last body loc).1]
    obtain ⟨hname, hnested⟩ := reached_loopVariable h name
    exact h.leave_analyzeAll hnested (reached_analyzeAll hname body)
  | .loopControl control loc => by rwa [(analyze_loopControl env control loc).1]

theorem reached_analyzeAll {env : Env} (h : Reached dialect env) :
    (ss : List Stmt) → Reached dialect (analyzeAll ss env).value.2
  | [] => h
  | s :: ss => by
    rw [(analyzeAll_cons env s ss).1]
    exact reached_analyzeAll (reached_analyze h s) ss

theorem reached_analyzeBranches {env : Env} (h : Reached dialect env) :
    (branches : List (Expr × List Stmt)) → Reached dialect (analyzeBranches branches env).value.2
  | [] => h
  | (cond, body) :: branches => by
    rw [(analyzeBranches_cons env cond body branches).1]
    exact reached_analyzeBranches
      (h.leave_analyzeAll rfl (reached_analyzeAll (h.enter .branch) body)) branches

theorem reached_analyzeOtherwise {env : Env} (h : Reached dialect env) :
    (otherwise : Option (List Stmt)) → Reached dialect (analyzeOtherwise otherwise env).value.2
  | none => h
  | some body => by
    rw [(analyzeOtherwise_some env body).1]
    exact h.leave_analyzeAll rfl (reached_analyzeAll (h.enter .branch) body)

end

end Tree.Stmt

namespace Tree.Program

/-- The environment behind the last statement. -/
theorem reached_end (dialect : Dialect) (program : Program) :
    Env.Reached dialect (Stmt.analyzeAll program.stmts (Env.new dialect)).value.2 :=
  Stmt.reached_analyzeAll .new program.stmts

end Tree.Program

end Cqasm
