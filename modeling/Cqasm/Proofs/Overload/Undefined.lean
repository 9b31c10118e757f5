import Cqasm.Proofs.Overload.Winner

/-!
# Arguments without a type

An argument has no type if something is wrong with it that has been reported, and then it may be
passed for any parameter. This is as if it had a type that is not known yet: where all parameters have
types, an overload is applicable if and only if it is for some choice of the types that are missing
(`applicable_iff_exists_completes`). So there is no match if and only if there is none for any choice
(`resolve_eq_noMatch_iff_completes`).

* `Ty.Fills`, `Completes` : the choices of types for arguments that have none.
-/

namespace Cqasm

/-- The type `u` may be the type of an argument that is known to be of type `t`: any type if that is
undefined, and otherwise only `t` itself. -/
def Ty.Fills (t u : Ty) : Prop := u ≠ .undefined ∧ (t = .undefined ∨ u = t)

/-- The types `args'` are `args` with a type in each place where there is none. -/
def Completes (args args' : List Ty) : Prop := List.Forall₂ Ty.Fills args args'

variable {rules : Promotions} {args args' : List Ty} {set : OverloadSet} {name : String}

theorem Promotions.accepts_of_fills {arg arg' param : Ty} (hfills : arg.Fills arg')
    (h : rules.Accepts arg' param) : rules.Accepts arg param := by
  rcases hfills.2 with hundefined | rfl
  · exact Or.inl hundefined
  · exact h

/-- What may be passed for a parameter with a type may be passed with some type. -/
theorem Promotions.exists_fills_of_accepts {arg param : Ty} (hparam : param ≠ .undefined)
    (h : rules.Accepts arg param) : ∃ arg', arg.Fills arg' ∧ rules.Accepts arg' param := by
  by_cases harg : arg = .undefined
  · exact ⟨param, ⟨hparam, Or.inl harg⟩, rules.accepts_self param⟩
  · exact ⟨arg, ⟨harg, Or.inr rfl⟩, h⟩

namespace Overload

variable {o : Overload}

theorem applicable_of_completes (hcompletes : Completes args args')
    (h : o.Applicable rules args') : o.Applicable rules args := by
  unfold Applicable at h ⊢
  generalize o.params = params at h ⊢
  induction hcompletes generalizing params with
  | nil => exact h
  | cons hfills _ ih =>
    obtain ⟨param, params, harg, hargs, rfl⟩ := List.forall₂_cons_left_iff.mp h
    exact .cons (Promotions.accepts_of_fills hfills harg) (ih params hargs)

theorem exists_completes_of_applicable (hparams : ∀ t ∈ o.params, t ≠ .undefined)
    (h : o.Applicable rules args) : ∃ args', Completes args args' ∧ o.Applicable rules args' := by
  unfold Applicable at h ⊢
  generalize o.params = params at hparams h ⊢
  induction h with
  | nil => exact ⟨[], .nil, .nil⟩
  | cons harg _ ih =>
    obtain ⟨hparam, hparams⟩ := List.forall_mem_cons.mp hparams
    obtain ⟨arg', hfills, harg'⟩ := Promotions.exists_fills_of_accepts hparam harg
    obtain ⟨args', hcompletes, hargs'⟩ := ih hparams
    exact ⟨arg' :: args', .cons hfills hcompletes, .cons harg' hargs'⟩

/-- An overload is applicable if it is for some choice of types for the arguments that have none. -/
theorem applicable_iff_exists_completes (hparams : ∀ t ∈ o.params, t ≠ .undefined) :
    o.Applicable rules args ↔ ∃ args', Completes args args' ∧ o.Applicable rules args' :=
  ⟨exists_completes_of_applicable hparams,
    fun ⟨_, hcompletes, h⟩ => applicable_of_completes hcompletes h⟩

end Overload

/-- No overload is applicable if and only if none is for any choice of types. -/
theorem OverloadSet.forall_not_applicable_iff_completes
    (hset : ∀ o ∈ set.overloads, ∀ t ∈ o.params, t ≠ .undefined) :
    (∀ o ∈ set.overloads, ¬ o.Applicable rules args)
      ↔ ∀ args', Completes args args' → ∀ o ∈ set.overloads, ¬ o.Applicable rules args' := by
  constructor
  · intro h args' hcompletes o ho happlicable
    exact h o ho ((Overload.applicable_iff_exists_completes (hset o ho)).mpr
      ⟨args', hcompletes, happlicable⟩)
  · intro h o ho happlicable
    obtain ⟨args', hcompletes, happlicable'⟩ :=
      (Overload.applicable_iff_exists_completes (hset o ho)).mp happlicable
    exact h args' hcompletes o ho happlicable'

/-- There is no match if and only if there is none for any choice of types. -/
theorem resolve_eq_noMatch_iff_completes
    (hset : ∀ o ∈ set.overloads, ∀ t ∈ o.params, t ≠ .undefined) :
    resolve rules (some set) name args = .error (.noMatch name args)
      ↔ ∀ args', Completes args args' →
        resolve rules (some set) name args' = .error (.noMatch name args') := by
  simp only [resolve_eq_noMatch_iff, true_and]
  exact OverloadSet.forall_not_applicable_iff_completes hset

end Cqasm
