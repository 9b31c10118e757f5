import Cqasm.Proofs.Analysis.Check
import Cqasm.Proofs.Dialect.Tables
import Cqasm.Proofs.Overload.Separation
import Mathlib.Data.List.Sections

/-!
# cQASM 1.x extends cQASM 3.0

In cQASM 1.x there are more promotions than in cQASM 3.0, more overloads compete for a call, and the
case of a name does not matter. None of this changes what cQASM 3.0 has decided: a conversion remains
one (`accepts_v1`), and a call that has an overload keeps it, whatever its arguments are
(`resolve_v1`). A call that is ambiguous has no argument with a type, and it remains ambiguous
(`isAmbiguous_v1`).

Only finitely many lists of types fit the parameters of an overload, so this is decided by going
through the tables.

* `Overload.fitting` : the lists of types that may fit an overload;
* `Dialect.Conserves` : what becomes of one call of cQASM 3.0.
-/

namespace Cqasm

/-! ## Arguments that fit -/

/-- The lists of types that may be passed for the parameters. Something without a type may be passed
for any of them. -/
def Overload.fitting (rules : Promotions) (o : Overload) : List (List Ty) :=
  (o.params.map fun param => Ty.undefined :: rules.origins param).sections

theorem Overload.mem_fitting {rules : Promotions} {o : Overload} {args : List Ty}
    (h : List.Forall₂ rules.Accepts args o.params) : args ∈ o.fitting rules := by
  rw [fitting, List.mem_sections, List.forall₂_map_right_iff]
  refine h.imp fun arg param haccepts => ?_
  rcases haccepts with rfl | hconvertible
  · exact List.mem_cons_self
  · obtain ⟨n, hn⟩ := Option.isSome_iff_exists.mp hconvertible
    exact List.mem_cons_of_mem _ (Promotions.mem_origins hn)

/-- Is a call ambiguous? -/
def isAmbiguous : Except ResolveError Overload → Bool
  | .error (.ambiguous _ _) => true
  | _ => false

/-- The arguments of an ambiguous call fit an overload of its set. -/
theorem fitting_of_isAmbiguous {rules : Promotions} {set : Option OverloadSet} {name : String}
    {args : List Ty} (h : isAmbiguous (resolve rules set name args) = true) :
    ∃ overloads, set = some overloads ∧ ∃ o ∈ overloads.overloads, args ∈ o.fitting rules := by
  cases set with
  | none => cases h
  | some overloads =>
    refine ⟨overloads, rfl, ?_⟩
    cases hbest : undominated (applicable rules overloads args) with
    | nil =>
      rw [resolve] at h
      simp only [hbest] at h
      cases h
    | cons c rest =>
      have hc : c ∈ undominated (applicable rules overloads args) := by
        rw [hbest]
        exact List.mem_cons_self
      obtain ⟨hmem, hcost⟩ := mem_applicable.mp (List.mem_filter.mp hc).1
      exact ⟨c.overload, hmem, Overload.mem_fitting (accepts_of_callCost? hcost)⟩

namespace Dialect

/-! ## The tables -/

/-- If the call has the overload `o` in cQASM 3.0 then it has the same one in cQASM 1.x, unless an
argument has no type. If it is ambiguous then no argument has a type, and it is so in cQASM 1.x. -/
@[mk_iff] structure Conserves (set : OverloadSet) (name : String) (o : Overload) (args : List Ty) : Prop where
  ok : resolve v3.promotions (some set) name args = .ok o → (∀ t ∈ args, t ≠ .undefined) →
    resolve v1.promotions (v1.functions.get? name) name args = .ok o
  ambiguous : isAmbiguous (resolve v3.promotions (some set) name args) = true →
    (∀ t ∈ args, t = .undefined)
      ∧ isAmbiguous (resolve v1.promotions (v1.functions.get? name) name args) = true

instance (set : OverloadSet) (name : String) (o : Overload) (args : List Ty) :
    Decidable (Conserves set name o args) :=
  decidable_of_iff (_ ∧ _) ⟨fun h => ⟨h.1, h.2⟩, fun h => ⟨h.ok, h.ambiguous⟩⟩

theorem conserves_entries : ∀ entry ∈ v3.functions.entries, ∀ o ∈ entry.2.overloads,
    ∀ args ∈ o.fitting v3.promotions, Conserves entry.2 entry.1 o args := by
  simp only [conserves_iff, functions_v1]
  decide +kernel

/-- A set of cQASM 3.0 is found under the name that it has in the table. -/
theorem conserves_of_get? {name : String} {set : OverloadSet}
    (h : v3.functions.get? name = some set) {o : Overload} (ho : o ∈ set.overloads)
    {args : List Ty} (hargs : args ∈ o.fitting v3.promotions) : Conserves set name o args := by
  obtain ⟨entry, hentry, rfl⟩ := Option.map_eq_some_iff.mp h
  have hrule : v3.functions.caseRule = .sensitive := OverloadTable.caseRule_ofList _ _
  have hname : entry.1 = name := by simpa [hrule, CaseRule.key] using List.find?_some hentry
  rw [← hname]
  exact conserves_entries entry (List.mem_of_find?_eq_some hentry) o ho args hargs

variable {name : String} {args : List Ty}

/-- A call that has an overload in cQASM 3.0 has the same one in cQASM 1.x. -/
theorem resolve_v1 {o : Overload} (hargs : ∀ t ∈ args, t ≠ .undefined)
    (h : resolve v3.promotions (v3.functions.get? name) name args = .ok o) :
    resolve v1.promotions (v1.functions.get? name) name args = .ok o := by
  obtain ⟨⟨set, hset, ho⟩, haccepts⟩ := accepts_of_resolve h
  rw [hset] at h
  exact (conserves_of_get? hset ho (Overload.mem_fitting haccepts)).ok h hargs

/-- A call that is ambiguous in cQASM 3.0 has no argument with a type, and is ambiguous in
cQASM 1.x. -/
theorem isAmbiguous_v1
    (h : isAmbiguous (resolve v3.promotions (v3.functions.get? name) name args) = true) :
    (∀ t ∈ args, t = .undefined)
      ∧ isAmbiguous (resolve v1.promotions (v1.functions.get? name) name args) = true := by
  obtain ⟨set, hset, o, ho, hfitting⟩ := fitting_of_isAmbiguous h
  rw [hset] at h
  exact (conserves_of_get? hset ho hfitting).ambiguous h

/-- A conversion of cQASM 3.0 is one of cQASM 1.x. -/
theorem accepts_v1 {found expected : Ty} (h : v3.promotions.Accepts found expected) :
    v1.promotions.Accepts found expected := by
  refine h.imp_right fun hconvertible => ?_
  obtain ⟨n, hn⟩ := Option.isSome_iff_exists.mp hconvertible
  have horigin : found = expected ∨ found = .int := by
    simpa [Promotions.origins, promotions] using Promotions.mem_origins hn
  rcases horigin with rfl | rfl
  · rw [Promotions.convertible, Promotions.rank?_self]
    rfl
  · have hexpected : expected = .int ∨ expected = .float := by
      by_contra hneither
      obtain ⟨hint, hfloat⟩ := not_or.mp hneither
      simp [Promotions.rank?, Promotions.stepsTo?, Promotions.next?, promotions, Ne.symm hint,
        Ne.symm hfloat] at hn
    rcases hexpected with rfl | rfl <;> decide

end Dialect

end Cqasm
