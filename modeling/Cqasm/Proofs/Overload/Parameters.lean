import Cqasm.Proofs.Overload.Ambiguity

/-!
# Costs and parameters

The number of promotion steps from a type determines where they lead. With fewer than 2^32 promotions
a rank is such a number, and so the costs of calling an overload with arguments that all have types
determine its parameters (`params_eq_of_costs_eq`). Three laws of resolution follow, whether or not the
promotions have cycles.

* An overload whose parameters are the types of the arguments undercuts all overloads with other
  parameters, so the call is decided between the overloads of that kind (`resolve_exact`).
* A call keeps its overload if the conversions of its arguments are written out (`resolve_params`).
* Between overloads with different parameters a call is ambiguous only if each of them is cheaper
  than the other in some position (`resolve_crossed`).

* `OverloadSet.exact` : the overloads whose parameters are the types of the arguments;
* `Overload.CheaperSomewhere` : an overload costs less than another in some position.
-/

namespace Cqasm

/-! ## Ranks -/

namespace Promotions

variable {rules : Promotions} {t goal goal' arg param param' : Ty} {limit n : Nat}

theorem stepsTo?_eq_zero_iff : rules.stepsTo? goal limit t = some 0 ↔ t = goal := by
  cases limit with
  | zero => simp [stepsTo?]
  | succ limit => by_cases h : t = goal <;> simp [stepsTo?, h, Option.bind_eq_some_iff]

theorem stepsTo?_eq_succ_iff : rules.stepsTo? goal limit t = some (n + 1) ↔
    t ≠ goal ∧ ∃ rest, limit = rest + 1
      ∧ ∃ u, rules.next? t = some u ∧ rules.stepsTo? goal rest u = some n := by
  cases limit with
  | zero => simp [stepsTo?]
  | succ limit => by_cases h : t = goal <;> simp [stepsTo?, h, Option.bind_eq_some_iff]

/-- As many steps from the same type lead to the same type. -/
theorem goal_eq_of_stepsTo? (h : rules.stepsTo? goal limit t = some n)
    (h' : rules.stepsTo? goal' limit t = some n) : goal = goal' := by
  induction n generalizing limit t with
  | zero => rw [← stepsTo?_eq_zero_iff.mp h, ← stepsTo?_eq_zero_iff.mp h']
  | succ n ih =>
    obtain ⟨-, rest, rfl, u, hnext, hrest⟩ := stepsTo?_eq_succ_iff.mp h
    obtain ⟨-, rest', hlimit, u', hnext', hrest'⟩ := stepsTo?_eq_succ_iff.mp h'
    obtain rfl : rest = rest' := Nat.succ.inj hlimit
    obtain rfl : u = u' := Option.some.inj (hnext.symm.trans hnext')
    exact ih hrest hrest'

/-- What has a type and is accepted has a rank, which is its cost. -/
theorem Accepts.rank?_eq (h : rules.Accepts arg param) (harg : arg ≠ .undefined) :
    rules.rank? arg param = some (rules.cost arg param) := by
  obtain ⟨n, hn⟩ := Option.isSome_iff_exists.mp (h.resolve_left harg)
  rw [cost, if_neg harg, hn, Option.getD_some]

/-- The cost of passing something with a type determines for which parameter it is passed. -/
theorem param_eq_of_cost_eq (hsize : rules.steps.length < UInt32.size) (harg : arg ≠ .undefined)
    (h : rules.Accepts arg param) (h' : rules.Accepts arg param')
    (hcost : rules.cost arg param = rules.cost arg param') : param = param' := by
  have hrank := h.rank?_eq harg
  have hrank' := h'.rank?_eq harg
  rw [rank?_eq_stepsTo? hsize] at hrank hrank'
  exact goal_eq_of_stepsTo? hrank (hcost ▸ hrank')

end Promotions

/-! ## Costs -/

variable {rules : Promotions} {args : List Ty} {set : OverloadSet} {name : String}

theorem eq_of_zipWith_cost_eq {params params' : List Ty}
    (hsize : rules.steps.length < UInt32.size) (hargs : ∀ t ∈ args, t ≠ .undefined)
    (h : List.Forall₂ rules.Accepts args params) (h' : List.Forall₂ rules.Accepts args params')
    (hcosts : List.zipWith rules.cost args params = List.zipWith rules.cost args params') :
    params = params' := by
  induction h generalizing params' with
  | nil => rw [List.forall₂_nil_left_iff.mp h']
  | @cons arg param args params harg _ ih =>
    obtain ⟨param', params', harg', hrest', rfl⟩ := List.forall₂_cons_left_iff.mp h'
    obtain ⟨hdefined, hargs⟩ := List.forall_mem_cons.mp hargs
    obtain ⟨hcost, hcosts⟩ := List.cons.inj hcosts
    rw [Promotions.param_eq_of_cost_eq hsize hdefined harg harg' hcost, ih hargs hrest' hcosts]

/-- Passing arguments for parameters of their own types costs nothing, and so nowhere more than for
other parameters. -/
theorem nowhereLarger_zipWith_cost_self {params : List Ty}
    (h : List.Forall₂ rules.Accepts args params) :
    NowhereLarger (List.zipWith rules.cost args args) (List.zipWith rules.cost args params) := by
  induction h with
  | nil => exact .nil
  | @cons arg param args params _ _ ih =>
    refine .cons ?_ ih
    rw [Promotions.cost_self]
    exact Nat.zero_le _

namespace Overload

variable {o other : Overload}

/-- Calling overloads with arguments that all have types costs the same only if the overloads have
the same parameters. -/
theorem params_eq_of_costs_eq (hsize : rules.steps.length < UInt32.size)
    (hargs : ∀ t ∈ args, t ≠ .undefined) (ho : o.Applicable rules args)
    (hother : other.Applicable rules args) (h : o.costs rules args = other.costs rules args) :
    o.params = other.params :=
  eq_of_zipWith_cost_eq hsize hargs ho hother h

theorem costs_eq_of_params_eq (h : o.params = other.params) :
    o.costs rules args = other.costs rules args := by
  unfold costs
  rw [h]

theorem Applicable.of_params_eq (ho : o.Applicable rules args) (h : o.params = other.params) :
    other.Applicable rules args := by
  unfold Applicable at ho ⊢
  rwa [← h]

theorem applicable_of_params_eq (h : o.params = args) : o.Applicable rules args := by
  subst h
  exact List.forall₂_same.mpr fun t _ => rules.accepts_self t

theorem nowhereLarger_of_params_eq (h : o.params = args) (hother : other.Applicable rules args) :
    NowhereLarger (o.costs rules args) (other.costs rules args) := by
  subst h
  exact nowhereLarger_zipWith_cost_self hother

/-- An overload whose parameters are the types of the arguments undercuts those with others. -/
theorem undercuts_of_params_eq (hsize : rules.steps.length < UInt32.size)
    (hargs : ∀ t ∈ args, t ≠ .undefined) (h : o.params = args)
    (hother : other.Applicable rules args) (hne : other.params ≠ args) :
    o.Undercuts rules args other := by
  refine ⟨nowhereLarger_of_params_eq h hother, fun hcosts => hne ?_⟩
  rw [← h]
  exact (params_eq_of_costs_eq hsize hargs (applicable_of_params_eq h) hother hcosts).symm

theorem not_undercuts_of_params_eq (h : o.params = args) (hother : other.Applicable rules args) :
    ¬ other.Undercuts rules args o :=
  fun hundercuts => hundercuts.2 (hundercuts.1.antisymm (nowhereLarger_of_params_eq h hother))

end Overload

/-! ## Exact matches -/

namespace OverloadSet

/-- The overloads whose parameters are the types of the arguments, in registration order. -/
def exact (args : List Ty) (set : OverloadSet) : List Overload :=
  set.overloads.filter (·.params = args)

theorem mem_exact {o : Overload} : o ∈ set.exact args ↔ o ∈ set.overloads ∧ o.params = args := by
  simp [exact]

/-- If there is an exact match then the exact matches are the contenders. -/
theorem contenders_eq_exact (hsize : rules.steps.length < UInt32.size)
    (hargs : ∀ t ∈ args, t ≠ .undefined) (h : set.exact args ≠ []) :
    set.contenders rules args = set.exact args := by
  obtain ⟨o, ho⟩ := List.exists_mem_of_ne_nil _ h
  obtain ⟨hin, hparams⟩ := mem_exact.mp ho
  refine List.filter_congr fun other _ => decide_eq_decide.mpr ⟨fun hleft => ?_, fun hother => ?_⟩
  · by_contra hne
    refine hleft.2 o hin (Overload.applicable_of_params_eq hparams) ?_
    exact Overload.undercuts_of_params_eq hsize hargs hparams hleft.1 hne
  · exact ⟨Overload.applicable_of_params_eq hother,
      fun third _ hthird => Overload.not_undercuts_of_params_eq hother hthird⟩

/-- Exact matches cost the same, so they are listed in registration order. -/
theorem listed_exact : Overload.listed rules args (set.exact args) = set.exact args := by
  refine List.mergeSort_of_pairwise (List.pairwise_of_forall_mem_list fun o ho other hother => ?_)
  have hparams : o.params = other.params := (mem_exact.mp ho).2.trans (mem_exact.mp hother).2.symm
  exact Overload.precedes_of_costs_eq (Overload.costs_eq_of_params_eq hparams)

end OverloadSet

/-- **Exact matches win.** If there are fewer than 2^32 promotions, the arguments all have types and
one overload has parameters of these types, then the call is resolved to it, whatever the other
overloads are and wherever it stands. If several have them then the call is ambiguous between these,
in registration order. -/
theorem resolve_exact (rules : Promotions) (set : OverloadSet) (name : String)
    (hsize : rules.steps.length < UInt32.size) (hargs : ∀ t ∈ args, t ≠ .undefined) :
    (∀ o, set.exact args = [o] → resolve rules (some set) name args = .ok o)
      ∧ (2 ≤ (set.exact args).length →
        resolve rules (some set) name args = .error (.ambiguous name (set.exact args))) := by
  constructor
  · intro o h
    rw [resolve_eq_outcome, OverloadSet.contenders_eq_exact hsize hargs (by simp [h]), h]
    rfl
  · intro h
    have hne : set.exact args ≠ [] := List.ne_nil_of_length_pos (by omega)
    rw [resolve_eq_outcome, OverloadSet.contenders_eq_exact hsize hargs hne, outcome_of_two_le h,
      OverloadSet.listed_exact]

/-- On a cycle of promotions every parameter can be reached, but the exact matches win, behind an
overload that takes a promotion. -/
theorem resolve_exact_cycle :
    let rules : Promotions := ⟨[(.int, .float), (.float, .int)]⟩
    let f (tag : String) (params : List Ty) : Overload := ⟨"f", params, .void, tag, none⟩
    let promoted := f "promoted" [.float, .int]
    let first := f "first" [.int, .int]
    let second := f "second" [.int, .int]
    rules.steps.length < UInt32.size ∧ (∀ t ∈ [Ty.int, .int], t ≠ .undefined)
      ∧ OverloadSet.exact [.int, .int] ⟨"f", [promoted, first]⟩ = [first]
      ∧ resolve rules (some ⟨"f", [promoted, first]⟩) "f" [.int, .int] = .ok first
      ∧ 2 ≤ (OverloadSet.exact [.int, .int] ⟨"f", [second, promoted, first]⟩).length
      ∧ resolve rules (some ⟨"f", [second, promoted, first]⟩) "f" [.int, .int]
        = .error (.ambiguous "f" [second, first]) := by
  intro rules f promoted first second
  have hsize : rules.steps.length < UInt32.size := by decide
  have hargs : ∀ t ∈ [Ty.int, .int], t ≠ .undefined := by decide
  have hone : OverloadSet.exact [.int, .int] ⟨"f", [promoted, first]⟩ = [first] := by decide
  have htwo : 2 ≤ (OverloadSet.exact [.int, .int] ⟨"f", [second, promoted, first]⟩).length := by
    decide
  exact ⟨hsize, hargs, hone, (resolve_exact rules _ "f" hsize hargs).1 first hone, htwo,
    (resolve_exact rules _ "f" hsize hargs).2 htwo⟩

/-! ## Conversions that are written out -/

/-- **Resolution is stable under the conversions.** If there are fewer than 2^32 promotions and a call
is resolved to an overload whose parameters all have types, then so is the call with arguments of
these types, although other overloads may cost less for them than before. -/
theorem resolve_params {set : Option OverloadSet} {o : Overload}
    (hsize : rules.steps.length < UInt32.size) (h : resolve rules set name args = .ok o)
    (hparams : ∀ t ∈ o.params, t ≠ .undefined) :
    resolve rules set name o.params = .ok o := by
  cases set with
  | none => cases h
  | some s =>
    rw [resolve_eq_ok_iff] at h ⊢
    obtain ⟨ho, before, after, hset, hbest⟩ := h
    refine ⟨Overload.applicable_of_params_eq rfl, before, after, hset, fun other hother hnew => ?_⟩
    refine Overload.undercuts_of_params_eq hsize hparams rfl hnew fun hsame => ?_
    -- another overload with the same parameters would have tied before
    have hundercuts := hbest other hother (ho.of_params_eq hsame.symm)
    exact hundercuts.2 (Overload.costs_eq_of_params_eq hsame.symm)

/-- One argument is promoted and the other one has no type. The overload that lost fits the converted
arguments only in the first position. -/
theorem resolve_params_promoted :
    let rules : Promotions := ⟨[(.int, .float), (.float, .complex)]⟩
    let near : Overload := ⟨"f", [.float, .bool], .void, "near", none⟩
    let far : Overload := ⟨"f", [.complex, .int], .void, "far", none⟩
    rules.steps.length < UInt32.size
      ∧ resolve rules (some ⟨"f", [far, near]⟩) "f" [.int, .undefined] = .ok near
      ∧ (∀ t ∈ near.params, t ≠ .undefined)
      ∧ resolve rules (some ⟨"f", [far, near]⟩) "f" [.float, .bool] = .ok near := by
  intro rules near far
  have hsize : rules.steps.length < UInt32.size := by decide
  have h : resolve rules (some ⟨"f", [far, near]⟩) "f" [.int, .undefined] = .ok near := by decide
  have hparams : ∀ t ∈ near.params, t ≠ .undefined := by decide
  exact ⟨hsize, h, hparams, resolve_params hsize h hparams⟩

/-! ## Crossed promotions -/

/-- In some position calling `o` costs less than calling `other`. -/
def Overload.CheaperSomewhere (rules : Promotions) (args : List Ty) (o other : Overload) : Prop :=
  ∃ pair ∈ (o.costs rules args).zip (other.costs rules args), pair.1 < pair.2

namespace Overload

variable {o other : Overload}

theorem cheaperSomewhere_of_not_undercuts (ho : o.Applicable rules args)
    (hother : other.Applicable rules args) (hne : other.costs rules args ≠ o.costs rules args)
    (h : ¬ other.Undercuts rules args o) : o.CheaperSomewhere rules args other :=
  exists_lt_of_not_nowhereLarger (ho.length_costs.trans hother.length_costs.symm)
    fun hle => h ⟨hle, hne⟩

/-- Of one argument one of two costs is not larger. -/
theorem CheaperSomewhere.not_symm (h : o.CheaperSomewhere rules args other)
    (ho : (o.costs rules args).length = 1) (hother : (other.costs rules args).length = 1) :
    ¬ other.CheaperSomewhere rules args o := by
  unfold CheaperSomewhere at h ⊢
  obtain ⟨m, hm⟩ := List.length_eq_one_iff.mp ho
  obtain ⟨n, hn⟩ := List.length_eq_one_iff.mp hother
  simp only [hm, hn, List.zip_cons_cons, List.zip_nil_left, List.mem_singleton, exists_eq_left] at h ⊢
  omega

end Overload

namespace OverloadSet

variable (hsize : rules.steps.length < UInt32.size)
  (hdistinct : set.overloads.Pairwise fun o other => o.params ≠ other.params)
  (hargs : ∀ t ∈ args, t ≠ .undefined)

include hsize hdistinct hargs

/-- Each of two contenders with different parameters is somewhere cheaper than the other. -/
theorem pairwise_contenders : (set.contenders rules args).Pairwise fun o other =>
    o.CheaperSomewhere rules args other ∧ other.CheaperSomewhere rules args o := by
  refine (hdistinct.filter _).imp_of_mem fun {o other} ho hother hparams => ?_
  have hin := (mem_contenders.mp ho).2.1
  have hin' := (mem_contenders.mp hother).2.1
  have hcosts : o.costs rules args ≠ other.costs rules args :=
    fun h => hparams (Overload.params_eq_of_costs_eq hsize hargs hin hin' h)
  exact ⟨Overload.cheaperSomewhere_of_not_undercuts hin hin' hcosts.symm
      (not_undercuts_of_mem_contenders hother ho),
    Overload.cheaperSomewhere_of_not_undercuts hin' hin hcosts
      (not_undercuts_of_mem_contenders ho hother)⟩

/-- Overloads with one parameter cannot be crossed, so there is at most one contender. -/
theorem length_contenders_le_one (hone : ∀ o ∈ set.overloads, o.arity = 1) :
    (set.contenders rules args).length ≤ 1 := by
  have hcrossed : (set.contenders rules args).Pairwise _ := pairwise_contenders hsize hdistinct hargs
  have hlength : ∀ o ∈ set.contenders rules args, (o.costs rules args).length = 1 := by
    intro o ho
    obtain ⟨hin, happlicable, -⟩ := mem_contenders.mp ho
    rw [happlicable.length_costs, happlicable.length_eq]
    exact hone o hin
  match hbest : set.contenders rules args with
  | [] => exact Nat.zero_le 1
  | [_] => exact le_rfl
  | o :: other :: rest =>
    rw [hbest] at hcrossed hlength
    obtain ⟨hfirst, hsecond⟩ := (List.pairwise_cons.mp hcrossed).1 other List.mem_cons_self
    exact absurd hsecond (hfirst.not_symm (hlength o (by simp)) (hlength other (by simp)))

end OverloadSet

/-- **Between different signatures only crossed promotions are ambiguous.** With fewer than 2^32
promotions, calling two overloads with arguments that all have types costs the same only if they have
the same parameters. So if no two overloads of a set have the same parameters, then each of any two
overloads between which a call is ambiguous is cheaper than the other in some position. In particular,
overloads with one parameter are never ambiguous. -/
theorem resolve_crossed (rules : Promotions) (set : OverloadSet) (name : String)
    (hsize : rules.steps.length < UInt32.size) (hargs : ∀ t ∈ args, t ≠ .undefined) :
    (∀ o other : Overload, o.Applicable rules args → other.Applicable rules args →
      o.costs rules args = other.costs rules args → o.params = other.params)
      ∧ (set.overloads.Pairwise (fun o other => o.params ≠ other.params) →
        (∀ name' candidates,
          resolve rules (some set) name args = .error (.ambiguous name' candidates) →
          candidates.Pairwise fun o other =>
            o.CheaperSomewhere rules args other ∧ other.CheaperSomewhere rules args o)
        ∧ ((∀ o ∈ set.overloads, o.arity = 1) → ∀ name' candidates,
          resolve rules (some set) name args ≠ .error (.ambiguous name' candidates))) := by
  refine ⟨fun o other => Overload.params_eq_of_costs_eq hsize hargs, fun hdistinct => ?_⟩
  simp only [resolve_eq_outcome, ne_eq, outcome_eq_ambiguous_iff]
  constructor
  · rintro name' candidates ⟨-, -, rfl⟩
    refine (Overload.listed_perm.pairwise_iff fun h => ⟨h.2, h.1⟩).mpr ?_
    exact OverloadSet.pairwise_contenders hsize hdistinct hargs
  · rintro hone name' candidates ⟨-, hseveral, -⟩
    have hle : (set.contenders rules args).length ≤ 1 :=
      OverloadSet.length_contenders_le_one hsize hdistinct hargs hone
    omega

/-- Two overloads that are crossed, and a set of overloads with one parameter on a cycle. -/
theorem resolve_crossed_pair :
    let rules : Promotions := ⟨[(.int, .float), (.float, .complex), (.complex, .int)]⟩
    let f (params : List Ty) : Overload := ⟨"f", params, .void, "", none⟩
    let left := f [.float, .complex]
    let right := f [.complex, .float]
    let pair : OverloadSet := ⟨"f", [left, right]⟩
    let single : OverloadSet := ⟨"f", [f [.complex], f [.float]]⟩
    rules.steps.length < UInt32.size
      ∧ pair.overloads.Pairwise (fun o other => o.params ≠ other.params)
      ∧ resolve rules (some pair) "f" [.int, .int] = .error (.ambiguous "f" [left, right])
      ∧ [left, right].Pairwise (fun o other => o.CheaperSomewhere rules [.int, .int] other
        ∧ other.CheaperSomewhere rules [.int, .int] o)
      ∧ single.overloads.Pairwise (fun o other => o.params ≠ other.params)
      ∧ (∀ o ∈ single.overloads, o.arity = 1)
      ∧ ∀ candidates, resolve rules (some single) "f" [.int] ≠ .error (.ambiguous "f" candidates) := by
  intro rules f left right pair single
  have hsize : rules.steps.length < UInt32.size := by decide
  have hpair : pair.overloads.Pairwise fun o other => o.params ≠ other.params := by decide
  have hambiguous : resolve rules (some pair) "f" [.int, .int]
      = .error (.ambiguous "f" [left, right]) := by
    have hcontenders : pair.contenders rules [.int, .int] = [left, right] := by decide
    rw [resolve_eq_outcome, hcontenders, outcome_of_two_le (by decide), Overload.listed,
      List.mergeSort_of_pairwise (by decide)]
  have hsingle : single.overloads.Pairwise fun o other => o.params ≠ other.params := by decide
  have hone : ∀ o ∈ single.overloads, o.arity = 1 := by decide
  refine ⟨hsize, hpair, hambiguous, ?_, hsingle, hone, ?_⟩
  · exact ((resolve_crossed rules pair "f" hsize (by decide)).2 hpair).1 "f" _ hambiguous
  · exact ((resolve_crossed rules single "f" hsize (by decide)).2 hsingle).2 hone "f"

end Cqasm
