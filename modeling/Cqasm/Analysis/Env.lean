import Cqasm.Analysis.Expr
import Cqasm.Typed.Stmt

/-!
# What statements change

Statements are analysed one after the other. They read and change an environment, the symbol table
and the names of the subcircuits, and they record diagnostics.

## Main definitions

* `Env`, `Analysis` : the environment, and computations on it that record diagnostics;
* `Analysis.declareSymbol`, `Analysis.nameSubcircuit` : the two ways to declare a name;
* `Analysis.inBlock` : analysing a block in a scope of its own;
* `Analysis.marked` : marking a statement as valid if nothing in it is in error.
-/

namespace Cqasm

/-- What the analysis of one statement hands on to the next one. -/
structure Env where
  table : SymbolTable
  /-- The names of the subcircuits so far, which are unique in the whole program. -/
  subcircuits : List String
deriving Repr, DecidableEq, Inhabited

/-- The environment in front of the first statement. -/
def Env.new (dialect : Dialect) : Env := { table := .new dialect, subcircuits := [] }

/-- A step of the analysis, which may change the environment and record diagnostics. -/
abbrev Analysis (α : Type) := StateT Env Logged α

namespace Analysis

variable {α β : Type}

/-- A step that only reads the symbol table. -/
def reading (f : SymbolTable → Logged α) : Analysis α := fun env =>
  (f env.table) >>= fun a => pure (a, env)

/-- The typed expression of an expression. -/
def expr (e : Tree.Expr) : Analysis Typed.Expr := reading fun table => e.analyze table

/-- Records a diagnostic. -/
def report (cause : Cause) (loc : Location) : Analysis Unit :=
  reading fun table => table.report cause loc

/-- Records a diagnostic if the type of `e` does not convert to `ty`. -/
def checkConversion (e : Typed.Expr) (ty : Ty) : Analysis Unit :=
  reading fun table => do
    let _ ← table.checkConversion e ty
    pure ()

/-- The typed expression of a condition, which has to convert to a Boolean. -/
def condition (e : Tree.Expr) : Analysis Typed.Expr := do
  let e ← expr e
  checkConversion e .bool
  pure e

/-- Declares a symbol in the current scope, which must not bind its name already. -/
def declareSymbol (symbol : Symbol) : Analysis SymbolRef := fun env =>
  match env.table.declare symbol with
  | .ok (id, table) => pure (.ok id, { env with table })
  | .error error => do
    env.table.report (.duplicateDeclaration symbol.name) symbol.loc
    pure (.error error, env)

/-- Declares a subcircuit, whose name must be new in the program. -/
def nameSubcircuit (ident : Tree.Ident) : Analysis Unit := fun env =>
  if ident.name ∈ env.subcircuits then do
    env.table.report (.duplicateDeclaration ident.name) ident.loc
    pure ((), env)
  else
    pure ((), { env with subcircuits := ident.name :: env.subcircuits })

/-- Runs a step in a new scope and closes that scope again. -/
def inBlock (kind : BlockKind) (step : Analysis α) : Analysis α := fun env => do
  let (a, env') ← step { env with table := env.table.enter kind }
  pure (a, { env' with table := env'.table.closeTo env.table.depth })

/-- Marks what a step gives with the location and with whether the step recorded no error. -/
def marked (loc : Location) (step : Analysis (Typed.Mark → Typed.Stmt)) : Analysis Typed.Stmt :=
  fun env =>
    let result := step env
    let mark : Typed.Mark := { loc, valid := !result.log.anyErrors }
    { value := (result.value.1 mark, result.value.2), log := result.log }

/-! ## What a step does to an environment -/

@[simp] theorem value_pure (a : α) (env : Env) :
    ((pure a : Analysis α) env).value = (a, env) := rfl

@[simp] theorem log_pure (a : α) (env : Env) : ((pure a : Analysis α) env).log = [] := rfl

@[simp] theorem value_bind (step : Analysis α) (next : α → Analysis β) (env : Env) :
    ((step >>= next) env).value = (next (step env).value.1 (step env).value.2).value := rfl

@[simp] theorem log_bind (step : Analysis α) (next : α → Analysis β) (env : Env) :
    ((step >>= next) env).log =
      (step env).log ++ (next (step env).value.1 (step env).value.2).log := rfl

@[simp] theorem value_map (f : α → β) (step : Analysis α) (env : Env) :
    ((f <$> step) env).value = (f (step env).value.1, (step env).value.2) := rfl

@[simp] theorem log_map (f : α → β) (step : Analysis α) (env : Env) :
    ((f <$> step) env).log = (step env).log := by
  show (step env).log ++ [] = (step env).log
  rw [List.append_nil]

@[simp] theorem value_reading (f : SymbolTable → Logged α) (env : Env) :
    (reading f env).value = ((f env.table).value, env) := rfl

@[simp] theorem log_reading (f : SymbolTable → Logged α) (env : Env) :
    (reading f env).log = (f env.table).log := by
  show (f env.table).log ++ [] = (f env.table).log
  rw [List.append_nil]

@[simp] theorem log_marked (loc : Location) (step : Analysis (Typed.Mark → Typed.Stmt))
    (env : Env) : (marked loc step env).log = (step env).log := rfl

@[simp] theorem env_marked (loc : Location) (step : Analysis (Typed.Mark → Typed.Stmt))
    (env : Env) : (marked loc step env).value.2 = (step env).value.2 := rfl

@[simp] theorem log_inBlock (kind : BlockKind) (step : Analysis α) (env : Env) :
    (inBlock kind step env).log = (step { env with table := env.table.enter kind }).log := by
  show (step { env with table := env.table.enter kind }).log ++ [] = _
  rw [List.append_nil]

end Analysis

end Cqasm
