import Cqasm.Analysis.Stmt
import Cqasm.Proofs.Symbol.Arena

/-!
# What statements do to the environment

A property of steps that goes along with the order in which a statement takes them is one of the
statement (`Compositional.analyze`); the walk over the statements is made there once. Most steps only
read the environment; the others bind a symbol, name a subcircuit or run a block in a scope of its
own. A relation between environments that these three keep (`Stable`) therefore holds between the
environments before and after every statement (`Stable.analyze`).

* `Symbol.Fits` : the types that a symbol of each kind may have;
* `Analysis.Compositional`, `Stable` : properties of steps and relations between environments that
  hold of a statement if they hold of the checks and declarations it is made of;
* `Env.Ready` : what holds of the environment in front of every statement.
-/

namespace Cqasm

/-- A register has at least one element, and their number is a 64-bit integer. -/
def IsRegisterSize (n : Nat) : Prop := 0 < n ∧ (n : Int) ≤ Int64.maxValue.toInt

/-- The type is one that a symbol of its kind may have: a value for a variable, a reference of the
right kind to a positive number of elements for a register. A register whose size is in error has no
type, and a mapping has the type of its target. -/
def Symbol.Fits (symbol : Symbol) : Prop :=
  match symbol.kind with
  | .var => symbol.ty.isScalar = true
  | .qubitRegister => symbol.ty = .undefined ∨ ∃ n, IsRegisterSize n ∧ symbol.ty = .qubit n
  | .bitRegister => symbol.ty = .undefined ∨ ∃ n, IsRegisterSize n ∧ symbol.ty = .bit n
  | .mapping => True

namespace Env

/-- The environment inside a new block. -/
def enter (kind : BlockKind) (env : Env) : Env := { env with table := env.table.enter kind }

/-- The environment after a block that starts in `env` and ends in `env'`. -/
def leave (env env' : Env) : Env := { env' with table := env'.table.closeTo env.table.depth }

/-- The environment with one more symbol, bound in the current scope. -/
def bindCurrent (symbol : Symbol) (env : Env) : Env :=
  { env with table := env.table.bindCurrent symbol }

/-- The environment with one more subcircuit. -/
def nameSubcircuit (name : String) (env : Env) : Env :=
  { env with subcircuits := name :: env.subcircuits }

end Env

namespace Analysis

variable {α β : Type}

/-! ## The steps -/

theorem declareSymbol_of_binds {symbol : Symbol} {env : Env}
    (h : env.table.current.binds symbol.name = true) :
    (declareSymbol symbol env).value = (.error .alreadyBound, env)
      ∧ (declareSymbol symbol env).log
        = [⟨.duplicateDeclaration symbol.name, symbol.loc, some env.table.dialect⟩] := by
  unfold declareSymbol
  rw [SymbolTable.declare_of_binds h]
  exact ⟨rfl, rfl⟩

theorem declareSymbol_of_not_binds {symbol : Symbol} {env : Env}
    (h : env.table.current.binds symbol.name = false) :
    (declareSymbol symbol env).value = (.ok env.table.symbols.length, env.bindCurrent symbol)
      ∧ (declareSymbol symbol env).log = [] := by
  unfold declareSymbol
  rw [SymbolTable.declare_of_not_binds h]
  exact ⟨rfl, rfl⟩

theorem dialect_declareSymbol (symbol : Symbol) (env : Env) :
    (declareSymbol symbol env).value.2.table.dialect = env.table.dialect := by
  cases hbinds : env.table.current.binds symbol.name with
  | true => rw [(declareSymbol_of_binds hbinds).1]
  | false =>
    rw [(declareSymbol_of_not_binds hbinds).1]
    rfl

@[simp] theorem table_nameSubcircuit (ident : Tree.Ident) (env : Env) :
    (nameSubcircuit ident env).value.2.table = env.table := by
  unfold nameSubcircuit
  split <;> rfl

theorem env_nameSubcircuit (ident : Tree.Ident) (env : Env) :
    (nameSubcircuit ident env).value.2 = env
      ∨ (nameSubcircuit ident env).value.2 = env.nameSubcircuit ident.name := by
  unfold nameSubcircuit
  split
  · exact Or.inl rfl
  · exact Or.inr rfl

@[simp] theorem value_inBlock (kind : BlockKind) (step : Analysis α) (env : Env) :
    (inBlock kind step env).value =
      ((step (env.enter kind)).value.1, env.leave (step (env.enter kind)).value.2) := rfl

theorem value_marked (loc : Location) (step : Analysis (Typed.Mark → Typed.Stmt)) (env : Env) :
    (marked loc step env).value =
      ((step env).value.1 ⟨loc, !(step env).log.anyErrors⟩, (step env).value.2) := rfl

/-! ## Steps that only read -/

/-- The step leaves the environment as it is. -/
def Reads (step : Analysis α) : Prop := ∀ env, (step env).value.2 = env

theorem Reads.pure (a : α) : Reads (Pure.pure a : Analysis α) := fun _ => rfl

theorem Reads.reading (f : SymbolTable → Logged α) : Reads (reading f) := fun _ => rfl

theorem Reads.bind {step : Analysis α} {next : α → Analysis β} (h : Reads step)
    (hnext : ∀ a, Reads (next a)) : Reads (step >>= next) := by
  intro env
  rw [value_bind, hnext, h]

theorem Reads.map {step : Analysis α} (f : α → β) (h : Reads step) : Reads (f <$> step) := h

theorem Reads.condition (e : Tree.Expr) : Reads (condition e) :=
  .bind (.reading _) fun _ => .bind (.reading _) fun _ => .pure _

end Analysis

namespace Tree.Stmt

open Analysis

theorem reads_analyzeType (type : TypeSpec) : Reads (analyzeType type) := by
  cases type with
  | register kind size =>
    cases size with
    | none => exact .pure _
    | some size => exact .bind (.reading _) fun _ => .bind (.reading _) fun _ => .pure _
  | scalar kind => exact .pure _

theorem reads_analyzeInit (ty : Ty) (init : Option Expr) : Reads (analyzeInit ty init) := by
  cases init with
  | none => exact .pure _
  | some e => exact .bind (.reading _) fun _ => .bind (.reading _) fun _ => .pure _

theorem reads_analyzeCondition (cond : Option Expr) : Reads (analyzeCondition cond) := by
  cases cond with
  | none => exact .pure _
  | some e => exact .map _ (.condition e)

theorem reads_analyzeInstruction (i : Instruction) : Reads (analyzeInstruction i) :=
  .bind (.reading _) fun _ => .bind (reads_analyzeCondition _) fun _ =>
    .bind (.reading _) fun _ => .pure _

theorem reads_analyzeInstructions (is : List Instruction) : Reads (analyzeInstructions is) := by
  induction is with
  | nil => exact .pure _
  | cons i is ih => exact .bind (reads_analyzeInstruction i) fun _ => .bind ih fun _ => .pure _

theorem reads_analyzeIterations (count : Option Expr) : Reads (analyzeIterations count) := by
  cases count with
  | none => exact .pure _
  | some e => exact .bind (.reading _) fun _ => .reading _

theorem reads_checkAssign (lhs rhs : Typed.Expr) : Reads (checkAssign lhs rhs) := by
  intro env
  unfold checkAssign
  split
  · split
    · rfl
    · split <;> rfl
  · rfl
  · rfl

theorem reads_checkLoopControl (control : LoopControl) (loc : Location) :
    Reads (checkLoopControl control loc) := by
  intro env
  unfold checkLoopControl
  split <;> rfl

/-! ## Symbols that statements declare -/

theorem isRegisterSize_registerSize {table : SymbolTable} {e : Typed.Expr} {n : Nat}
    (h : (table.registerSize e).value = some n) : IsRegisterSize n := by
  unfold SymbolTable.registerSize at h
  rw [Logged.value_bind] at h
  split at h
  · cases h
  · next size _ =>
    split at h
    · next hpos =>
      cases h
      have hle := size.toInt_le
      refine ⟨by omega, ?_⟩
      rwa [Int.toNat_of_nonneg (Int.le_of_lt hpos)]
    · cases h

/-- A register whose size is in range fits its kind, and so does one whose size is in error. -/
theorem fits_register (kind : RegisterKind) {size : Option Nat}
    (hsize : ∀ n, size = some n → IsRegisterSize n) (name : String) (loc : Location) :
    (Symbol.mk name kind.symbolKind (kind.ty size) loc).Fits := by
  cases size with
  | none => cases kind <;> exact Or.inl rfl
  | some n =>
    have hn := hsize n rfl
    cases kind <;> exact Or.inr ⟨n, hn, rfl⟩

theorem fits_analyzeType (type : TypeSpec) (env : Env) (name : String) (loc : Location) :
    (Symbol.mk name (analyzeType type env).value.1.2.2
      (analyzeType type env).value.1.2.1 loc).Fits := by
  cases type with
  | register kind size =>
    cases size with
    | none =>
      refine fits_register kind (fun n h => ?_) name loc
      cases h
      exact ⟨Nat.one_pos, by decide⟩
    | some size => exact fits_register kind (fun n h => isRegisterSize_registerSize h) name loc
  | scalar kind => cases kind <;> rfl

end Tree.Stmt

/-! ## Properties that every statement has -/

/-- A property of steps that a statement has as soon as its checks and its declarations have it. The
step that follows another one may be assumed to go on from what that one gives. -/
structure Analysis.Compositional (P : (α : Type) → Analysis α → Prop) : Prop where
  pure : ∀ {α : Type} (a : α), P α (Pure.pure a)
  seq : ∀ {α β : Type} {step : Analysis α} {next : α → Analysis β}, P α step →
    (∀ env, P β (next (step env).value.1)) → P β (step >>= next)
  marked : ∀ loc {step}, P _ step → P _ (Analysis.marked loc step)
  inBlock : ∀ {α : Type} kind {step : Analysis α}, P α step → P α (Analysis.inBlock kind step)
  declareSymbol : ∀ {symbol : Symbol}, symbol.Fits → P _ (Analysis.declareSymbol symbol)
  nameSubcircuit : ∀ ident, P _ (Analysis.nameSubcircuit ident)
  expr : ∀ e, P _ (Analysis.expr e)
  exprs : ∀ es, P _ (Analysis.reading fun table => Tree.Expr.analyzeAll table es)
  checkConversion : ∀ e ty, P _ (Analysis.checkConversion e ty)
  registerSize : ∀ e, P _ (Analysis.reading fun table => table.registerSize e)
  iterationCount : ∀ e, P _ (Analysis.reading fun table => table.iterationCount e)
  resolveInstruction : ∀ name args loc,
    P _ (Analysis.reading fun table => table.resolveInstruction name args loc)
  checkAssign : ∀ lhs rhs, P _ (Tree.Stmt.checkAssign lhs rhs)
  checkLoopControl : ∀ control loc, P _ (Tree.Stmt.checkLoopControl control loc)

namespace Analysis.Compositional

variable {P : (α : Type) → Analysis α → Prop} {α β : Type}

theorem map (hP : Compositional P) {step : Analysis α} (f : α → β) (h : P α step) :
    P β (f <$> step) := by
  rw [map_eq_pure_bind]
  exact hP.seq h fun _ => hP.pure _

/-- A step that is followed by putting together the typed statement. -/
theorem last (hP : Compositional P) {step : Analysis α} (h : P α step) (f : α → β) :
    P β (step >>= fun a => Pure.pure (f a)) := hP.seq h fun _ => hP.pure _

theorem condition (hP : Compositional P) (e : Tree.Expr) : P _ (condition e) :=
  hP.seq (hP.expr e) fun _ => hP.seq (hP.checkConversion _ _) fun _ => hP.pure _

theorem analyzeQubits (hP : Compositional P) (size : Tree.Expr) (loc : Location) :
    P _ (Tree.Stmt.analyzeQubits size loc) := by
  refine hP.seq (hP.expr size) fun _ => hP.seq (hP.registerSize _) fun _ => ?_
  refine hP.seq (hP.declareSymbol ?_) fun _ => hP.last (hP.declareSymbol ?_) _
  · exact Tree.Stmt.fits_register .qubit (fun _ => Tree.Stmt.isRegisterSize_registerSize) "q" loc
  · exact Tree.Stmt.fits_register .bit (fun _ => Tree.Stmt.isRegisterSize_registerSize) "b" loc

theorem analyzeType (hP : Compositional P) (type : Tree.TypeSpec) :
    P _ (Tree.Stmt.analyzeType type) := by
  cases type with
  | scalar kind => exact hP.pure _
  | register kind size =>
    cases size with
    | none => exact hP.pure _
    | some size =>
      exact hP.seq (hP.expr size) fun _ => hP.last (hP.registerSize _) _

theorem analyzeInit (hP : Compositional P) (ty : Ty) (init : Option Tree.Expr) :
    P _ (Tree.Stmt.analyzeInit ty init) := by
  cases init with
  | none => exact hP.pure _
  | some e => exact hP.seq (hP.expr e) fun _ => hP.last (hP.checkConversion _ _) _

theorem analyzeDeclare (hP : Compositional P) (name : Tree.Ident) (type : Tree.TypeSpec)
    (init : Option Tree.Expr) : P _ (Tree.Stmt.analyzeDeclare name type init) :=
  hP.seq (hP.analyzeType type) fun env => hP.seq (hP.analyzeInit _ init) fun _ =>
    hP.last (hP.declareSymbol (Tree.Stmt.fits_analyzeType type env name.name name.loc)) _

theorem analyzeMap (hP : Compositional P) (target : Tree.Expr) (name : Tree.Ident) :
    P _ (Tree.Stmt.analyzeMap target name) :=
  hP.seq (hP.expr target) fun _ => hP.last (hP.declareSymbol (by exact trivial)) _

theorem analyzeCondition (hP : Compositional P) (cond : Option Tree.Expr) :
    P _ (Tree.Stmt.analyzeCondition cond) := by
  cases cond with
  | none => exact hP.pure _
  | some e => exact hP.map _ (hP.condition e)

theorem analyzeInstruction (hP : Compositional P) (i : Tree.Instruction) :
    P _ (Tree.Stmt.analyzeInstruction i) :=
  hP.seq (hP.exprs i.operands) fun _ => hP.seq (hP.analyzeCondition i.condition) fun _ =>
    hP.last (hP.resolveInstruction _ _ _) _

theorem analyzeInstructions (hP : Compositional P) (is : List Tree.Instruction) :
    P _ (Tree.Stmt.analyzeInstructions is) := by
  induction is with
  | nil => exact hP.pure _
  | cons i is ih => exact hP.seq (hP.analyzeInstruction i) fun _ => hP.last ih _

theorem analyzeIterations (hP : Compositional P) (count : Option Tree.Expr) :
    P _ (Tree.Stmt.analyzeIterations count) := by
  cases count with
  | none => exact hP.pure _
  | some e => exact hP.seq (hP.expr e) fun _ => hP.iterationCount _

theorem analyzeAssign (hP : Compositional P) (lhs rhs : Tree.Expr) :
    P _ (Tree.Stmt.analyzeAssign lhs rhs) :=
  hP.seq (hP.expr lhs) fun _ => hP.seq (hP.expr rhs) fun _ => hP.last (hP.checkAssign _ _) _

theorem analyzeBound (hP : Compositional P) (e : Tree.Expr) : P _ (Tree.Stmt.analyzeBound e) :=
  hP.seq (hP.expr e) fun _ => hP.last (hP.checkConversion _ _) _

mutual

/-- Every statement has the property. -/
theorem analyze (hP : Compositional P) : (s : Tree.Stmt) → P _ s.analyze
  | .qubits size loc => by
    rw [Tree.Stmt.analyze]
    exact hP.marked loc (hP.analyzeQubits size loc)
  | .declare name type init loc => by
    rw [Tree.Stmt.analyze]
    exact hP.marked loc (hP.analyzeDeclare name type init)
  | .map target name loc => by
    rw [Tree.Stmt.analyze]
    exact hP.marked loc (hP.analyzeMap target name)
  | .instruction i => by
    rw [Tree.Stmt.analyze]
    exact hP.marked i.loc (hP.last (hP.analyzeInstruction i) _)
  | .bundle is loc => by
    rw [Tree.Stmt.analyze]
    exact hP.marked loc (hP.last (hP.analyzeInstructions is) _)
  | .subcircuit name iterations body loc => by
    rw [Tree.Stmt.analyze]
    refine hP.marked loc (hP.seq (hP.nameSubcircuit name) fun _ => ?_)
    exact hP.seq (hP.analyzeIterations iterations) fun _ =>
      hP.last (hP.inBlock .subcircuit (hP.analyzeAll body)) _
  | .assign lhs rhs loc => by
    rw [Tree.Stmt.analyze]
    exact hP.marked loc (hP.analyzeAssign lhs rhs)
  | .ifElse branches otherwise loc => by
    rw [Tree.Stmt.analyze]
    refine hP.marked loc (hP.seq (hP.analyzeBranches branches) fun _ => ?_)
    exact hP.last (hP.analyzeOtherwise otherwise) _
  | .whileLoop cond body loc => by
    rw [Tree.Stmt.analyze]
    refine hP.marked loc (hP.seq (hP.condition cond) fun _ => ?_)
    exact hP.last (hP.inBlock .loop (hP.analyzeAll body)) _
  | .repeatUntil body cond loc => by
    rw [Tree.Stmt.analyze]
    refine hP.marked loc (hP.seq (hP.inBlock .loop (hP.analyzeAll body)) fun _ => ?_)
    exact hP.last (hP.condition cond) _
  | .foreach name first last body loc => by
    rw [Tree.Stmt.analyze]
    refine hP.marked loc (hP.seq (hP.analyzeBound first) fun _ =>
      hP.seq (hP.analyzeBound last) fun _ => hP.last (hP.inBlock .loop ?_) _)
    exact hP.seq (hP.declareSymbol (by exact rfl)) fun _ => hP.last (hP.analyzeAll body) _
  | .loopControl control loc => by
    rw [Tree.Stmt.analyze]
    exact hP.marked loc (hP.last (hP.checkLoopControl control loc) _)

theorem analyzeAll (hP : Compositional P) : (ss : List Tree.Stmt) → P _ (Tree.Stmt.analyzeAll ss)
  | [] => by
    rw [Tree.Stmt.analyzeAll]
    exact hP.pure _
  | s :: ss => by
    rw [Tree.Stmt.analyzeAll]
    exact hP.seq (hP.analyze s) fun _ => hP.last (hP.analyzeAll ss) _

theorem analyzeBranches (hP : Compositional P) :
    (branches : List (Tree.Expr × List Tree.Stmt)) → P _ (Tree.Stmt.analyzeBranches branches)
  | [] => by
    rw [Tree.Stmt.analyzeBranches]
    exact hP.pure _
  | (cond, body) :: branches => by
    rw [Tree.Stmt.analyzeBranches]
    refine hP.seq (hP.condition cond) fun _ => ?_
    exact hP.seq (hP.inBlock .branch (hP.analyzeAll body)) fun _ =>
      hP.last (hP.analyzeBranches branches) _

theorem analyzeOtherwise (hP : Compositional P) :
    (otherwise : Option (List Tree.Stmt)) → P _ (Tree.Stmt.analyzeOtherwise otherwise)
  | none => by
    rw [Tree.Stmt.analyzeOtherwise]
    exact hP.pure _
  | some body => by
    rw [Tree.Stmt.analyzeOtherwise]
    exact hP.map _ (hP.inBlock .branch (hP.analyzeAll body))

end

end Analysis.Compositional

/-! ## Relations that every statement keeps -/

/-- A relation between environments, before and after, that survives each change the analysis makes
to an environment. Inside a block it may only be used as a whole: from before the block to its end. -/
structure Stable (R : Env → Env → Prop) : Prop where
  refl : ∀ env, R env env
  trans : ∀ {env₁ env₂ env₃}, R env₁ env₂ → R env₂ env₃ → R env₁ env₃
  bind : ∀ {symbol : Symbol} env, symbol.Fits → R env (env.bindCurrent symbol)
  name : ∀ name env, R env (env.nameSubcircuit name)
  block : ∀ kind env env', R (env.enter kind) env' → R env (env.leave env')

/-- The relation holds between the environments before and after the step. -/
def Keeps {α : Type} (R : Env → Env → Prop) (step : Analysis α) : Prop :=
  ∀ env, R env (step env).value.2

namespace Stable

open Analysis

variable {α : Type} {R : Env → Env → Prop}

theorem reads (hR : Stable R) {step : Analysis α} (h : Reads step) : Keeps R step := by
  intro env
  rw [h]
  exact hR.refl env

theorem declareSymbol (hR : Stable R) {symbol : Symbol} (hfits : symbol.Fits) :
    Keeps R (declareSymbol symbol) := by
  intro env
  cases hbinds : env.table.current.binds symbol.name with
  | true =>
    rw [(declareSymbol_of_binds hbinds).1]
    exact hR.refl env
  | false =>
    rw [(declareSymbol_of_not_binds hbinds).1]
    exact hR.bind env hfits

theorem nameSubcircuit (hR : Stable R) (ident : Tree.Ident) : Keeps R (nameSubcircuit ident) := by
  intro env
  rcases env_nameSubcircuit ident env with h | h
  · rw [h]
    exact hR.refl env
  · rw [h]
    exact hR.name ident.name env

theorem inBlock (hR : Stable R) {step : Analysis α} (kind : BlockKind) (h : Keeps R step) :
    Keeps R (inBlock kind step) :=
  fun env => hR.block kind env _ (h (env.enter kind))

/-- The environments before and after a statement are related as those of its steps are. -/
theorem compositional (hR : Stable R) : Compositional fun _ step => Keeps R step where
  pure a := hR.reads (.pure a)
  seq h hnext env := hR.trans (h env) (hnext env _)
  marked _ _ h := h
  inBlock kind _ h := hR.inBlock kind h
  declareSymbol := hR.declareSymbol
  nameSubcircuit := hR.nameSubcircuit
  expr _ := hR.reads (.reading _)
  exprs _ := hR.reads (.reading _)
  checkConversion _ _ := hR.reads (.reading _)
  registerSize _ := hR.reads (.reading _)
  iterationCount _ := hR.reads (.reading _)
  resolveInstruction _ _ _ := hR.reads (.reading _)
  checkAssign lhs rhs := hR.reads (Tree.Stmt.reads_checkAssign lhs rhs)
  checkLoopControl control loc := hR.reads (Tree.Stmt.reads_checkLoopControl control loc)

theorem analyze (hR : Stable R) (s : Tree.Stmt) : Keeps R s.analyze := hR.compositional.analyze s

theorem analyzeAll (hR : Stable R) (ss : List Tree.Stmt) : Keeps R (Tree.Stmt.analyzeAll ss) :=
  hR.compositional.analyzeAll ss

theorem analyzeBranches (hR : Stable R) (branches : List (Tree.Expr × List Tree.Stmt)) :
    Keeps R (Tree.Stmt.analyzeBranches branches) := hR.compositional.analyzeBranches branches

theorem analyzeOtherwise (hR : Stable R) (otherwise : Option (List Tree.Stmt)) :
    Keeps R (Tree.Stmt.analyzeOtherwise otherwise) := hR.compositional.analyzeOtherwise otherwise

end Stable

/-! ## What every statement keeps -/

theorem stable_grows : Stable fun env env' => env.table.Grows env'.table where
  refl env := .refl env.table
  trans := .trans
  bind {symbol} env _ := .bindCurrent symbol env.table
  name _ env := .refl env.table
  block kind env _ h := ((SymbolTable.Grows.enter kind env.table).trans h).trans (.closeTo _ _)

theorem stable_formed : Stable fun env env' => env.table.Formed → env'.table.Formed where
  refl _ h := h
  trans h h' hformed := h' (h hformed)
  bind {symbol} _ _ h := h.bindCurrent symbol
  name _ _ h := h
  block kind _ _ h hformed := (h (hformed.enter kind)).closeTo _

theorem stable_nested : Stable fun env env' => env'.table.nested = env.table.nested where
  refl _ := rfl
  trans h h' := h'.trans h
  bind _ _ := rfl
  name _ _ := rfl
  block kind env env' h := by
    have hopen : env'.table.nested = env.table.scopes.length :: env.table.nested := h
    simp [Env.leave, SymbolTable.closeTo, hopen, SymbolTable.depth]

theorem stable_fits : Stable fun env env' =>
    (∀ symbol ∈ env.table.symbols, symbol.Fits) → ∀ symbol ∈ env'.table.symbols, symbol.Fits where
  refl _ h := h
  trans h h' hfits := h' (h hfits)
  bind {symbol} env hsymbol h := by
    intro other hmem
    rcases List.mem_append.mp hmem with hmem | hmem
    · exact h other hmem
    · rw [List.mem_singleton.mp hmem]
      exact hsymbol
  name _ _ h := h
  block _ _ _ h hfits := h hfits

namespace Env

variable {inLoop : Bool} {env : Env}

/-- The environment in front of a statement: the scopes are in order, they tell whether the statement
stands in a loop, and the types of all symbols fit their kinds. -/
structure Ready (inLoop : Bool) (env : Env) : Prop where
  formed : env.table.Formed
  inLoop_eq : env.table.inLoop = inLoop
  fits : ∀ symbol ∈ env.table.symbols, symbol.Fits

theorem ready_new (dialect : Dialect) : (Env.new dialect).Ready false where
  formed := SymbolTable.formed_new dialect
  inLoop_eq := rfl
  fits := by simp [Env.new, SymbolTable.new]

theorem Ready.keeps {α : Type} (h : env.Ready inLoop) {step : Analysis α}
    (hstep : ∀ {R : Env → Env → Prop}, Stable R → Keeps R step) :
    (step env).value.2.Ready inLoop where
  formed := hstep stable_formed env h.formed
  inLoop_eq :=
    ((hstep stable_grows env).inLoop h.formed (hstep stable_nested env)).trans h.inLoop_eq
  fits := hstep stable_fits env h.fits

theorem Ready.analyze (h : env.Ready inLoop) (s : Tree.Stmt) :
    (s.analyze env).value.2.Ready inLoop := h.keeps fun hR => hR.analyze s

theorem Ready.enter (h : env.Ready inLoop) (kind : BlockKind) :
    (env.enter kind).Ready (decide (kind = .loop) || inLoop) where
  formed := h.formed.enter kind
  inLoop_eq := (SymbolTable.inLoop_enter h.formed kind).trans (by rw [h.inLoop_eq])
  fits := h.fits

end Env

end Cqasm
