import Cqasm.Diagnostic.Basic

/-!
# Values with diagnostics

The analysis of a part of a program gives a value and the diagnostics found on the way. Doing one
thing after the other appends the diagnostics of the second to those of the first, so nothing is
ever dropped or reordered, and what is found in one part does not depend on what was found before.
-/

namespace Cqasm

/-- A value and the diagnostics found while it was computed. -/
structure Logged (α : Type) where
  value : α
  log : Diagnostics
deriving Inhabited

namespace Logged

variable {α β : Type}

instance : Monad Logged where
  pure value := ⟨value, []⟩
  bind x f :=
    let y := f x.value
    ⟨y.value, x.log ++ y.log⟩

/-- Records a diagnostic. -/
def report (d : Diagnostic) : Logged Unit := ⟨(), [d]⟩

@[ext] theorem ext {x y : Logged α} (hv : x.value = y.value) (hl : x.log = y.log) : x = y := by
  cases x
  cases y
  simp_all

@[simp] theorem value_pure (a : α) : (pure a : Logged α).value = a := rfl

@[simp] theorem log_pure (a : α) : (pure a : Logged α).log = [] := rfl

@[simp] theorem value_bind (x : Logged α) (f : α → Logged β) :
    (x >>= f).value = (f x.value).value := rfl

@[simp] theorem log_bind (x : Logged α) (f : α → Logged β) :
    (x >>= f).log = x.log ++ (f x.value).log := rfl

@[simp] theorem log_report (d : Diagnostic) : (report d).log = [d] := rfl

instance : LawfulMonad Logged :=
  LawfulMonad.mk' Logged
    (fun x => by ext <;> simp [Functor.map])
    (fun a f => by ext <;> simp)
    (fun x f g => by ext <;> simp)

end Logged

end Cqasm
