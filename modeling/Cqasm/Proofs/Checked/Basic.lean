import Cqasm.Analysis.Env

/-!
# Runs that may fault

The analysis as a machine carries it out: an element of a list is asked for by its number, a
difference is taken of unsigned numbers, a size has 64 bits, and every diagnostic is put behind those
that have been recorded. Where an operation has no result the run breaks off with a fault. That a run
gives what the analysis gives is one relation, and the lemmas here put runs together.

* `Fault` : why a run breaks off;
* `Checked`, `CheckedAnalysis` : runs that record diagnostics, and those that change an environment;
* `Checked.Gives` : the run does not fault, gives the value and records the diagnostics.
-/

namespace Cqasm

/-- Why a run breaks off. -/
inductive Fault where
  /-- A second global scope is opened. -/
  | secondGlobal
  /-- There is no scope with the number. -/
  | scope (id : ScopeId)
  /-- There is no symbol with the number. -/
  | symbol (id : SymbolId)
  /-- The walk along the parents of a scope meets more scopes than there are. -/
  | endless
  /-- A number is taken from a smaller one. -/
  | underflow
  /-- More elements are asked for than a list has. -/
  | slice
  /-- A number is not an unsigned 64-bit number. -/
  | wraps
  /-- The letter stands for no type. -/
  | letter (c : Char)
  /-- Two promotions start from one type. -/
  | promotions
deriving Repr, DecidableEq

namespace Fault

theorem bind_eq {α β : Type} {x : Except Fault α} {a : α} {f : α → Except Fault β}
    {y : Except Fault β} (hx : x = .ok a) (hf : f a = y) : x >>= f = y := by
  subst hx
  exact hf

/-- The element with number `i`. -/
def element {α : Type} (l : List α) (i : Nat) (fault : Fault) : Except Fault α :=
  match l[i]? with
  | some a => .ok a
  | none => .error fault

theorem element_eq {α : Type} {l : List α} {i : Nat} {a : α} {fault : Fault}
    (h : l[i]? = some a) : element l i fault = .ok a := by
  rw [element, h]

/-- The first `n` elements. -/
def front {α : Type} (l : List α) (n : Nat) : Except Fault (List α) :=
  if n ≤ l.length then .ok (l.take n) else .error .slice

theorem front_eq {α : Type} {l : List α} {n : Nat} (h : n ≤ l.length) :
    front l n = .ok (l.take n) := if_pos h

/-- The difference of two unsigned numbers. -/
def difference (m n : Nat) : Except Fault Nat :=
  if n ≤ m then .ok (m - n) else .error .underflow

theorem difference_eq {m n : Nat} (h : n ≤ m) : difference m n = .ok (m - n) := if_pos h

end Fault

/-! ## Runs that record diagnostics -/

/-- A run from the diagnostics recorded so far, unless it faults. -/
abbrev Checked (α : Type) := StateT Diagnostics (Except Fault) α

namespace Checked

variable {α β : Type}

/-- What cannot fault records its diagnostics at once. -/
instance : MonadLift Logged Checked := ⟨fun a recorded => .ok (a.value, recorded ++ a.log)⟩

/-- The run gives the value of `a` and puts the diagnostics of `a` behind whatever is recorded. -/
def Gives (run : Checked α) (a : Logged α) : Prop :=
  ∀ recorded : Diagnostics, run recorded = .ok (a.value, recorded ++ a.log)

namespace Gives

theorem pure (a : α) : Gives (Pure.pure a) (Pure.pure a) := by
  intro recorded
  show Except.ok (a, recorded) = .ok (a, recorded ++ [])
  rw [List.append_nil]

theorem lift (a : Logged α) : Gives (liftM a) a := fun _ => rfl

theorem bind {run : Checked α} {a : Logged α} {f : α → Checked β} {g : α → Logged β}
    (hrun : run.Gives a) (hnext : (f a.value).Gives (g a.value)) : (run >>= f).Gives (a >>= g) := by
  intro recorded
  show (run recorded >>= fun result => f result.1 result.2) = _
  rw [hrun recorded]
  show f a.value (recorded ++ a.log) = .ok (_, recorded ++ (a.log ++ (g a.value).log))
  rw [hnext, List.append_assoc]
  rfl

/-- A step that records nothing leaves what comes after it. -/
theorem bind_lift {x : Except Fault α} {a : α} {f : α → Checked β} {b : Logged β}
    (hx : x = .ok a) (hnext : (f a).Gives b) : ((liftM x : Checked α) >>= f).Gives b := by
  subst hx
  exact hnext

end Gives

end Checked

/-! ## Runs on an environment -/

/-- A step of the analysis, unless the run faults. -/
abbrev CheckedAnalysis (α : Type) := StateT Env Checked α

namespace CheckedAnalysis

variable {α β : Type} {env : Env}

/-- What cannot fault. -/
instance : MonadLift Analysis CheckedAnalysis := ⟨fun step env => liftM (step env)⟩

/-- A step that only reads the symbol table. -/
def reading (f : SymbolTable → Checked α) : CheckedAnalysis α := fun env =>
  (f env.table) >>= fun a => pure (a, env)

theorem gives_reading {f : SymbolTable → Checked α} {g : SymbolTable → Logged α}
    (h : (f env.table).Gives (g env.table)) : (reading f env).Gives (Analysis.reading g env) :=
  h.bind (.pure _)

theorem gives_pure (a : α) : ((pure a : CheckedAnalysis α) env).Gives ((pure a : Analysis α) env) :=
  .pure (a, env)

theorem gives_lift (step : Analysis α) : ((liftM step : CheckedAnalysis α) env).Gives (step env) :=
  .lift (step env)

theorem gives_bind {step : CheckedAnalysis α} {next : α → CheckedAnalysis β} {step' : Analysis α}
    {next' : α → Analysis β} (h : (step env).Gives (step' env))
    (hnext : (next (step' env).value.1 (step' env).value.2).Gives
      (next' (step' env).value.1 (step' env).value.2)) :
    ((step >>= next) env).Gives ((step' >>= next') env) :=
  Checked.Gives.bind (f := fun result : α × Env => next result.1 result.2)
    (g := fun result : α × Env => next' result.1 result.2) h hnext

theorem gives_map {step : CheckedAnalysis α} {step' : Analysis α} (f : α → β)
    (h : (step env).Gives (step' env)) : ((f <$> step) env).Gives ((f <$> step') env) :=
  Checked.Gives.bind (f := fun result : α × Env => pure (f result.1, result.2))
    (g := fun result : α × Env => pure (f result.1, result.2)) h (.pure _)

end CheckedAnalysis

end Cqasm
