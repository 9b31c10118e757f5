import Cqasm.Proofs.Checked.Basic
import Mathlib.Data.List.DropRight

/-!
# Choosing and building a dialect

The version directive is stripped of its trailing zeros by their number, which is taken from the
number of its components. The dialect is then built: the types of every built-in instruction and
function are read from their letters, of which not every one stands for a type, and a type may be
promoted along only one edge.

* `Checked.significant`, `Checked.ofVersion?` : the dialect of a version directive;
* `Checked.letterTy`, `Checked.readOverload`, `Checked.build` : the tables of a dialect.
-/

namespace Cqasm.Checked

open Fault (difference difference_eq front front_eq)

/-! ## Letters -/

/-- The type that a letter stands for. -/
def letterTy : Char → Except Fault Ty
  | 'Q' => .ok (.qubit 1)
  | 'B' => .ok (.bit 1)
  | 'b' => .ok .bool
  | 'i' => .ok .int
  | 'f' => .ok .float
  | 'c' => .ok .complex
  | 'a' => .ok .axis
  | c => .error (.letter c)

/-- The types that have a letter. -/
def letterTys : List Ty := [.qubit 1, .bit 1, .bool, .int, .float, .complex, .axis]

/-- The letters of parameters. -/
def letters (params : List Ty) : List Char := params.flatMap fun t => (Builtin.letter t).toList

/-- The types that the letters stand for. -/
def readLetters (letters : List Char) : Except Fault (List Ty) := letters.mapM letterTy

/-- The overload with its types read from their letters. An instruction has no letter for its
result. -/
def readOverload (o : Overload) : Except Fault Overload := do
  let params ← readLetters (letters o.params)
  let results ← readLetters (letters [o.result])
  pure { o with params, result := results.getLast?.getD .void }

/-- All types of the overload have letters. -/
def Lettered (o : Overload) : Prop :=
  (∀ t ∈ o.params, t ∈ letterTys) ∧ (o.result = .void ∨ o.result ∈ letterTys)

instance (o : Overload) : Decidable (Lettered o) :=
  inferInstanceAs (Decidable ((∀ t ∈ o.params, t ∈ letterTys) ∧ _))

theorem exists_letter {t : Ty} (h : t ∈ letterTys) :
    ∃ c, letters [t] = [c] ∧ letterTy c = .ok t := by
  revert t
  unfold letterTys
  simp only [List.forall_mem_cons]
  exact ⟨⟨'Q', rfl, rfl⟩, ⟨'B', rfl, rfl⟩, ⟨'b', rfl, rfl⟩, ⟨'i', rfl, rfl⟩, ⟨'f', rfl, rfl⟩,
    ⟨'c', rfl, rfl⟩, ⟨'a', rfl, rfl⟩, fun _ hmem => absurd hmem List.not_mem_nil⟩

theorem letters_cons (t : Ty) (ts : List Ty) : letters (t :: ts) = letters [t] ++ letters ts := by
  simp [letters]

theorem readLetters_letters {ts : List Ty} (h : ∀ t ∈ ts, t ∈ letterTys) :
    readLetters (letters ts) = .ok ts := by
  induction ts with
  | nil => rfl
  | cons t ts ih =>
    obtain ⟨ht, hts⟩ := List.forall_mem_cons.mp h
    obtain ⟨c, hletters, hc⟩ := exists_letter ht
    rw [letters_cons, hletters, List.singleton_append, readLetters, List.mapM_cons]
    exact Fault.bind_eq hc (Fault.bind_eq (ih hts) rfl)

theorem readOverload_eq : {o : Overload} → Lettered o → readOverload o = .ok o
  | ⟨name, params, result, tag, replacement⟩, ⟨hparams, hresult⟩ => by
    refine Fault.bind_eq (readLetters_letters hparams) ?_
    rcases hresult with hvoid | hresult
    · cases hvoid
      rfl
    · exact Fault.bind_eq (readLetters_letters (List.forall_mem_singleton.mpr hresult)) rfl

/-! ## Tables -/

/-- The table of the given overloads. -/
def table (rule : CaseRule) (overloads : List Overload) : Except Fault OverloadTable := do
  let overloads ← overloads.mapM readOverload
  pure (.ofList rule overloads)

/-- The promotions along the given edges. -/
def promotions (edges : List (Ty × Ty)) : Except Fault Promotions :=
  if (edges.map (·.1)).Nodup then .ok ⟨edges⟩ else throw .promotions

/-- The promotions, the instructions and the functions of a dialect. -/
def build (dialect : Dialect) : Except Fault (Promotions × OverloadTable × OverloadTable) := do
  let rules ← promotions dialect.promotions.steps
  match dialect with
  | .v1 =>
    let instructions ← table .insensitive Builtin.instructions1
    let functions ← table .insensitive (Builtin.functions ++ Builtin.complexFunctions)
    pure (rules, instructions, functions)
  | .v3 =>
    let instructions ← table .sensitive Builtin.instructions3
    let functions ← table .sensitive Builtin.functions
    pure (rules, instructions, functions)

theorem mapM_readOverload {overloads : List Overload} (h : ∀ o ∈ overloads, Lettered o) :
    overloads.mapM readOverload = .ok overloads := by
  induction overloads with
  | nil => rfl
  | cons o overloads ih =>
    obtain ⟨ho, hrest⟩ := List.forall_mem_cons.mp h
    rw [List.mapM_cons]
    exact Fault.bind_eq (readOverload_eq ho) (Fault.bind_eq (ih hrest) rfl)

theorem table_eq (rule : CaseRule) {overloads : List Overload} (h : ∀ o ∈ overloads, Lettered o) :
    table rule overloads = .ok (.ofList rule overloads) :=
  Fault.bind_eq (mapM_readOverload h) rfl

theorem lettered_instructions1 : ∀ o ∈ Builtin.instructions1, Lettered o := by decide +kernel

theorem lettered_instructions3 : ∀ o ∈ Builtin.instructions3, Lettered o := by decide +kernel

theorem lettered_functions : ∀ o ∈ Builtin.functions, Lettered o := by decide +kernel

theorem lettered_complexFunctions : ∀ o ∈ Builtin.complexFunctions, Lettered o := by
  decide +kernel

/-- The tables of a dialect are those that the analysis uses. -/
theorem build_eq (dialect : Dialect) :
    build dialect = .ok (dialect.promotions, dialect.instructions, dialect.functions) := by
  have hrules : promotions dialect.promotions.steps = .ok dialect.promotions := by
    cases dialect <;> exact if_pos (by decide)
  refine Fault.bind_eq hrules ?_
  cases dialect with
  | v1 =>
    refine Fault.bind_eq (table_eq .insensitive lettered_instructions1) ?_
    exact Fault.bind_eq (table_eq .insensitive
      (List.forall_mem_append.mpr ⟨lettered_functions, lettered_complexFunctions⟩)) rfl
  | v3 =>
    refine Fault.bind_eq (table_eq .sensitive lettered_instructions3) ?_
    exact Fault.bind_eq (table_eq .sensitive lettered_functions) rfl

/-! ## Versions -/

/-- The components of a version without the zeros at its end. -/
def significant (version : List Int) : Except Fault (List Int) := do
  let zeros := version.reverse.takeWhile (· = 0)
  let count ← difference version.length zeros.length
  front version count

/-- A dialect whose tables have been built. -/
def built (dialect : Dialect) : Except Fault (Option Dialect) := do
  let _ ← build dialect
  pure (some dialect)

/-- The dialect of a version directive. -/
def ofVersion? (version : List Int) : Except Fault (Option Dialect) := do
  match ← significant version with
  | [1] | [1, 1] | [1, 2] => built .v1
  | [3] => built .v3
  | _ => .ok none

theorem significant_eq (version : List Int) :
    significant version = .ok (Dialect.significant version) := by
  have hsplit : Dialect.significant version ++ version.rtakeWhile (· = 0) = version :=
    List.rdropWhile_append_rtakeWhile
  have hzeros : (version.rtakeWhile (· = 0)).length
      = (version.reverse.takeWhile (· = 0)).length := List.length_reverse
  have hlength : version.length = (Dialect.significant version).length
      + (version.reverse.takeWhile (· = 0)).length := by
    rw [← hzeros, ← List.length_append, hsplit]
  refine Fault.bind_eq (difference_eq (by omega)) ?_
  rw [hlength, Nat.add_sub_cancel, front_eq (by omega)]
  have htake : (Dialect.significant version ++ version.rtakeWhile (· = 0)).take
      (Dialect.significant version).length = Dialect.significant version := List.take_left
  rw [hsplit] at htake
  rw [htake]

theorem built_eq (dialect : Dialect) : built dialect = .ok (some dialect) :=
  Fault.bind_eq (build_eq dialect) rfl

theorem ofVersion?_eq (version : List Int) :
    ofVersion? version = .ok (Dialect.ofVersion? version) := by
  refine Fault.bind_eq (significant_eq version) ?_
  rw [Dialect.ofVersion?]
  grind [built_eq]

end Cqasm.Checked
