import Cqasm.Proofs.Analysis.Gap
import Cqasm.Proofs.Analysis.Site

/-!
# Instructions do not influence each other

An instruction leaves the environment as it is, so what it is resolved to and what is found in it
depend on the place where it stands and on nothing that is written next to it. A bundle may be taken
apart into its instructions and two neighbours may be exchanged, without any trace elsewhere in the
program.
-/

namespace Cqasm.Tree

variable {dialect : Dialect}

namespace Stmt

/-! ## Several instructions -/

theorem analyzeInstructions_eq (env : Env) (is : List Instruction) :
    (analyzeInstructions is env).value.1 = is.map (fun i => (analyzeInstruction i env).value.1)
      ∧ (analyzeInstructions is env).log = is.flatMap fun i => (analyzeInstruction i env).log := by
  induction is with
  | nil => exact ⟨rfl, rfl⟩
  | cons i is ih =>
    rw [(analyzeInstructions_cons env i is).1, (analyzeInstructions_cons env i is).2, ih.1, ih.2]
    exact ⟨rfl, rfl⟩

theorem analyzeAll_instructions (env : Env) (is : List Instruction) :
    (analyzeAll (is.map .instruction) env).value
        = (is.map (fun i => ((instruction i).analyze env).value.1), env)
      ∧ (analyzeAll (is.map .instruction) env).log
        = is.flatMap fun i => ((instruction i).analyze env).log := by
  induction is with
  | nil => exact ⟨rfl, rfl⟩
  | cons i is ih =>
    have henv : ((instruction i).analyze env).value.2 = env :=
      congrArg Prod.snd (analyze_instruction env i).1
    rw [List.map_cons, (analyzeAll_cons env _ _).1, (analyzeAll_cons env _ _).2, henv, ih.1, ih.2]
    exact ⟨rfl, rfl⟩

/-- What is found in a bundle is what is found in its instructions, each on its own. -/
theorem analyzeAll_bundle (env : Env) (is : List Instruction) (loc : Location) :
    let calls := is.map fun i => (analyzeInstruction i env).value.1
    let valid := is.all fun i => ((instruction i).analyze env).value.1.valid
    (analyzeAll [bundle is loc] env).value = ([.bundle ⟨loc, valid⟩ calls], env)
      ∧ (analyzeAll [bundle is loc] env).log
        = is.flatMap fun i => ((instruction i).analyze env).log := by
  intro calls valid
  have hfound (i : Instruction) :
      ((instruction i).analyze env).log = (analyzeInstruction i env).log :=
    (analyze_instruction env i).2
  obtain ⟨hvalue, hlog⟩ := analyze_bundle env is loc
  obtain ⟨hcalls, hlogs⟩ := analyzeInstructions_eq env is
  have hvalid : (bundle is loc).markAt env = ⟨loc, valid⟩ := by
    simp only [markAt, hlog, hlogs, valid, valid_analyze, hfound, Diagnostics.anyErrors,
      List.any_flatMap, List.not_any_eq_all_not]
    rfl
  rw [(analyzeAll_cons env _ _).1, (analyzeAll_cons env _ _).2, hvalue, hlog, hcalls, hlogs, hvalid]
  simp only [hfound]
  exact ⟨rfl, List.append_nil _⟩

end Stmt

namespace Program

open Stmt

/-- The result for a supported version with the given statements, diagnostics and symbols. -/
def resultOf (version : Version) (dialect : Dialect) (stmts : List Typed.Stmt)
    (diagnostics : Diagnostics) (table : SymbolTable) : AnalysisResult :=
  ⟨⟨some version.items, some dialect, stmts⟩, diagnostics, some table⟩

/-- What stands around a gap in a program is the same for all statements in the gap that leave the
same environment and agree in whether there is an error among them. -/
theorem analyze_fill {version : Version} (h : Dialect.ofVersion? version.items = some dialect)
    (gap : Gap) (behind : Env) (errors : Bool) :
    ∃ around front back table, ∀ ss,
      (analyzeAll ss (gap.start (Env.new dialect))).value.2 = behind →
      (analyzeAll ss (gap.start (Env.new dialect))).log.anyErrors = errors →
        (Program.mk (some version) (gap.fill ss)).analyze
          = resultOf version dialect
            (Typed.Gap.fill (analyzeAll ss (gap.start (Env.new dialect))).value.1 around)
            (front ++ (analyzeAll ss (gap.start (Env.new dialect))).log ++ back) table := by
  obtain ⟨around, front, back, last, hframes⟩ := gap.frames (Env.new dialect) behind errors
  refine ⟨around, front, back, last.table, fun ss hbehind herrors => ?_⟩
  obtain ⟨hvalue, hlog⟩ := hframes ss hbehind herrors
  simp only at hvalue hlog
  have hdialect : (Program.mk (some version) (gap.fill ss)).dialect? = some dialect := h
  rw [analyze_eq hdialect, analyzeAs, hvalue, hlog]
  rfl

/-- A bundle may be replaced by its instructions, each as a statement of its own: the instructions
become the same, and everything else stays as it is. Two neighbouring instructions may be exchanged:
what they become and what is found in them is exchanged, and everything else stays as it is. -/
theorem analyze_independent (version : Version) (gap : Gap)
    (h : Dialect.ofVersion? version.items = some dialect) :
    let start := gap.start (Env.new dialect)
    let analyzed ss := (Program.mk (some version) (gap.fill ss)).analyze
    let call i := (analyzeInstruction i start).value.1
    let node i := ((instruction i).analyze start).value.1
    let found i := ((instruction i).analyze start).log
    (∀ i, node i = .instruction ⟨i.loc, !(found i).anyErrors⟩ (call i))
      ∧ (∀ is loc, ∃ around diagnostics table,
        analyzed [.bundle is loc] = resultOf version dialect
            (Typed.Gap.fill [.bundle ⟨loc, is.all fun i => (node i).valid⟩ (is.map call)] around)
            diagnostics table
          ∧ analyzed (is.map .instruction) = resultOf version dialect
            (Typed.Gap.fill (is.map node) around) diagnostics table)
      ∧ ∀ i j, ∃ around front back table,
        analyzed [.instruction i, .instruction j] = resultOf version dialect
            (Typed.Gap.fill [node i, node j] around) (front ++ (found i ++ found j) ++ back) table
          ∧ analyzed [.instruction j, .instruction i] = resultOf version dialect
            (Typed.Gap.fill [node j, node i] around) (front ++ (found j ++ found i) ++ back)
            table := by
  intro start analyzed call node found
  refine ⟨fun i => congrArg Prod.fst (analyze_instruction start i).1, fun is loc => ?_,
    fun i j => ?_⟩
  · obtain ⟨hbundle, hbundle'⟩ := analyzeAll_bundle start is loc
    obtain ⟨hsingle, hsingle'⟩ := analyzeAll_instructions start is
    obtain ⟨around, front, back, table, hfill⟩ :=
      analyze_fill h gap start (Diagnostics.anyErrors (is.flatMap found))
    have hfirst := hfill [.bundle is loc] (congrArg Prod.snd hbundle) (congrArg _ hbundle')
    have hsecond := hfill (is.map .instruction) (congrArg Prod.snd hsingle) (congrArg _ hsingle')
    rw [hbundle, hbundle'] at hfirst
    rw [hsingle, hsingle'] at hsecond
    exact ⟨around, _, table, hfirst, hsecond⟩
  · have hpair (i j : Instruction) := analyzeAll_instructions start [i, j]
    simp only [List.map_cons, List.map_nil, List.flatMap_cons, List.flatMap_nil,
      List.append_nil] at hpair
    obtain ⟨around, front, back, table, hfill⟩ :=
      analyze_fill h gap start (Diagnostics.anyErrors (found i ++ found j))
    have hswap : Diagnostics.anyErrors (found j ++ found i)
        = Diagnostics.anyErrors (found i ++ found j) := by
      rw [Diagnostics.anyErrors_append, Diagnostics.anyErrors_append, Bool.or_comm]
    have hfirst := hfill [.instruction i, .instruction j] (congrArg Prod.snd (hpair i j).1)
      (congrArg _ (hpair i j).2)
    have hsecond := hfill [.instruction j, .instruction i] (congrArg Prod.snd (hpair j i).1)
      ((congrArg _ (hpair j i).2).trans hswap)
    rw [(hpair i j).1, (hpair i j).2] at hfirst
    rw [(hpair j i).1, (hpair j i).2] at hsecond
    exact ⟨around, front, back, table, hfirst, hsecond⟩

/-- `qubit[2] q; while (true) { … }`, with a gap in the loop. -/
def loopGap : Gap :=
  let loc : Location := ⟨1, 1⟩
  .inside [.declare ⟨"q", loc⟩ (.register .qubit (some (.int loc 2))) none loc]
    (.whileLoop (.literal (.bool true) loc) loc) (.here [] []) []

/-- The instructions `H q[5]` and `h q[0]`, of which both are in error, as a bundle, one after the
other and the other way round. -/
theorem analyze_independent_loop :
    let loc : Location := ⟨1, 1⟩
    let version : Version := ⟨[3], loc⟩
    let analyzed ss := (Program.mk (some version) (loopGap.fill ss)).analyze
    let outside : Instruction := ⟨⟨"H", loc⟩, none, [.items loc "q" [5]], loc⟩
    let unknown : Instruction := ⟨⟨"h", loc⟩, none, [.items loc "q" [0]], loc⟩
    Dialect.ofVersion? version.items = some .v3
      ∧ (∃ around nodes table,
        (analyzed [.bundle [outside, unknown] loc]).program.stmts
            = Typed.Gap.fill [.bundle ⟨loc, false⟩ (nodes.flatMap Typed.Stmt.ownCalls)] around
          ∧ (analyzed [.instruction outside, .instruction unknown]).program.stmts
            = Typed.Gap.fill nodes around
          ∧ (analyzed [.bundle [outside, unknown] loc]).table = some table
          ∧ (analyzed [.instruction outside, .instruction unknown]).table = some table)
      ∧ (analyzed [.instruction outside, .instruction unknown]).diagnostics.map (·.cause)
        = [.indexOutOfRange "q" 5 2, .unknownInstruction "h"]
      ∧ (analyzed [.instruction unknown, .instruction outside]).diagnostics.map (·.cause)
        = [.unknownInstruction "h", .indexOutOfRange "q" 5 2] := by
  intro loc version analyzed outside unknown
  have hversion : Dialect.ofVersion? version.items = some .v3 := rfl
  refine ⟨hversion, ?_, by decide +kernel, by decide +kernel⟩
  obtain ⟨around, diagnostics, table, hbundle, hsingle⟩ :=
    (analyze_independent version loopGap hversion).2.1 [outside, unknown] loc
  refine ⟨around, _, table, ?_, congrArg (·.program.stmts) hsingle, congrArg (·.table) hbundle,
    congrArg (·.table) hsingle⟩
  exact congrArg (·.program.stmts) hbundle

end Program

end Cqasm.Tree
