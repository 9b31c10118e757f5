import Cqasm.Proofs.Analysis.Site

/-!
# Executable statements declare nothing

Instructions, bundles, assignments and loop controls only read the environment. Taking them out of a
program, at any depth, therefore changes nothing for the statements behind them: the symbol table at
the end is the same, and what is recorded is what the statements that are left recorded before
(`analyze_declarative`).

* `Tree.Stmt.isExecutable` : the statements that are taken out;
* `Tree.Program.declarative` : the program without them;
* `Logged.Thins` : a run that ends in the same environment and records a part of what another does.
-/

namespace Cqasm

/-! ## The program without executable statements -/

namespace Tree

namespace Stmt

/-- Is it an instruction, a bundle, an assignment or a loop control? -/
def isExecutable : Stmt → Bool
  | instruction _ | bundle _ _ | assign _ _ _ | loopControl _ _ => true
  | _ => false

mutual

/-- The statement without the executable statements nested in it. -/
def declarative : Stmt → Stmt
  | subcircuit name iterations body loc => subcircuit name iterations (declarativeAll body) loc
  | ifElse branches otherwise loc =>
    ifElse (declarativeBranches branches) (declarativeOtherwise otherwise) loc
  | whileLoop condition body loc => whileLoop condition (declarativeAll body) loc
  | repeatUntil body condition loc => repeatUntil (declarativeAll body) condition loc
  | foreach name first last body loc => foreach name first last (declarativeAll body) loc
  | s => s

/-- The block without the executable statements in it, at any depth. -/
def declarativeAll : List Stmt → List Stmt
  | [] => []
  | s :: ss => if s.isExecutable then declarativeAll ss else declarative s :: declarativeAll ss

/-- The branches of a conditional without the executable statements in them. -/
def declarativeBranches : List (Expr × List Stmt) → List (Expr × List Stmt)
  | [] => []
  | (condition, body) :: branches =>
    (condition, declarativeAll body) :: declarativeBranches branches

/-- The block without the executable statements in it, if there is a block. -/
def declarativeOtherwise : Option (List Stmt) → Option (List Stmt)
  | none => none
  | some body => some (declarativeAll body)

end

theorem nodes_of_isExecutable {s : Stmt} (h : s.isExecutable = true) : nodes s = [s] := by
  cases s with
  | instruction | bundle | assign | loopControl => rfl
  | qubits | declare | map | subcircuit | ifElse | whileLoop | repeatUntil | foreach => cases h

mutual

/-- The statements that are left are those that are not executable, in the same order. -/
theorem nodes_declarative : (s : Stmt) → s.isExecutable = false →
    nodes s.declarative = ((nodes s).filter (!·.isExecutable)).map declarative
  | .subcircuit name iterations body loc => fun _ => by
    rw [declarative, nodes, nodes, nodes_declarativeAll body,
      List.filter_cons_of_pos (by simp [isExecutable]), List.map_cons, declarative]
  | .ifElse branches otherwise loc => fun _ => by
    rw [declarative, nodes, nodes, nodes_declarativeBranches branches,
      nodes_declarativeOtherwise otherwise, List.filter_cons_of_pos (by simp [isExecutable]),
      List.map_cons, List.filter_append, List.map_append, declarative]
  | .whileLoop condition body loc => fun _ => by
    rw [declarative, nodes, nodes, nodes_declarativeAll body,
      List.filter_cons_of_pos (by simp [isExecutable]), List.map_cons, declarative]
  | .repeatUntil body condition loc => fun _ => by
    rw [declarative, nodes, nodes, nodes_declarativeAll body,
      List.filter_cons_of_pos (by simp [isExecutable]), List.map_cons, declarative]
  | .foreach name first last body loc => fun _ => by
    rw [declarative, nodes, nodes, nodes_declarativeAll body,
      List.filter_cons_of_pos (by simp [isExecutable]), List.map_cons, declarative]
  | .qubits _ _ => fun _ => rfl
  | .declare _ _ _ _ => fun _ => rfl
  | .map _ _ _ => fun _ => rfl
  | .instruction _ => fun h => by cases h
  | .bundle _ _ => fun h => by cases h
  | .assign _ _ _ => fun h => by cases h
  | .loopControl _ _ => fun h => by cases h

theorem nodes_declarativeAll : (ss : List Stmt) →
    nodesAll (declarativeAll ss) = ((nodesAll ss).filter (!·.isExecutable)).map declarative
  | [] => rfl
  | s :: ss => by
    rw [declarativeAll, nodesAll, List.filter_append, List.map_append, ← nodes_declarativeAll ss]
    cases h : s.isExecutable with
    | true =>
      have hdropped : [s].filter (!·.isExecutable) = [] :=
        List.filter_cons_of_neg (by simp [h])
      rw [if_pos rfl, nodes_of_isExecutable h, hdropped, List.map_nil, List.nil_append]
    | false => rw [if_neg Bool.false_ne_true, nodesAll, nodes_declarative s h]

theorem nodes_declarativeBranches : (branches : List (Expr × List Stmt)) →
    nodesBranches (declarativeBranches branches)
      = ((nodesBranches branches).filter (!·.isExecutable)).map declarative
  | [] => rfl
  | (condition, body) :: branches => by
    rw [declarativeBranches, nodesBranches, nodesBranches, List.filter_append, List.map_append,
      nodes_declarativeAll body, nodes_declarativeBranches branches]

theorem nodes_declarativeOtherwise : (otherwise : Option (List Stmt)) →
    nodesOtherwise (declarativeOtherwise otherwise)
      = ((nodesOtherwise otherwise).filter (!·.isExecutable)).map declarative
  | none => rfl
  | some body => by
    rw [declarativeOtherwise, nodesOtherwise, nodesOtherwise, nodes_declarativeAll body]

end

end Stmt

/-- The program without its executable statements, at any depth. -/
def Program.declarative (program : Program) : Program :=
  { program with stmts := Stmt.declarativeAll program.stmts }

end Tree

/-! ## Thinner runs -/

/-- The first run ends in the same environment as the second one and records a part of what that
one records, in the same order. -/
structure Logged.Thins {α β : Type} (x : Logged (α × Env)) (y : Logged (β × Env)) : Prop where
  env : x.value.2 = y.value.2
  log : List.Sublist x.log y.log

theorem Logged.Thins.refl {α : Type} (x : Logged (α × Env)) : x.Thins x := ⟨rfl, List.Sublist.refl _⟩

namespace Tree.Stmt

open Analysis

/-- An executable statement leaves the environment as it is. -/
theorem env_of_isExecutable {s : Stmt} (h : s.isExecutable = true) (env : Env) :
    (s.analyze env).value.2 = env := by
  cases s with
  | instruction i => rw [(analyze_instruction env i).1]
  | bundle is loc => rw [(analyze_bundle env is loc).1]
  | assign lhs rhs loc => rw [(analyze_assign env lhs rhs loc).1]
  | loopControl control loc => rw [(analyze_loopControl env control loc).1]
  | qubits | declare | map | subcircuit | ifElse | whileLoop | repeatUntil | foreach => cases h

mutual

theorem thins_declarative (env : Env) : (s : Stmt) →
    (s.declarative.analyze env).Thins (s.analyze env)
  | .subcircuit name iterations body loc => by
    have hbody := thins_declarativeAll ((nameSubcircuit name env).value.2.enter .subcircuit) body
    obtain ⟨hvalue, hlog⟩ := analyze_subcircuit env name iterations body loc
    obtain ⟨hvalue', hlog'⟩ := analyze_subcircuit env name iterations (declarativeAll body) loc
    rw [declarative]
    refine ⟨?_, ?_⟩
    · rw [hvalue, hvalue', hbody.env]
    · rw [hlog, hlog']
      exact hbody.log.append_left _
  | .ifElse branches otherwise loc => by
    have hbranches := thins_declarativeBranches env branches
    have hotherwise := thins_declarativeOtherwise (analyzeBranches branches env).value.2 otherwise
    obtain ⟨hvalue, hlog⟩ := analyze_ifElse env branches otherwise loc
    obtain ⟨hvalue', hlog'⟩ :=
      analyze_ifElse env (declarativeBranches branches) (declarativeOtherwise otherwise) loc
    rw [hbranches.env] at hvalue' hlog'
    rw [declarative]
    refine ⟨?_, ?_⟩
    · rw [hvalue, hvalue', hotherwise.env]
    · rw [hlog, hlog']
      exact hbranches.log.append hotherwise.log
  | .whileLoop cond body loc => by
    have hbody := thins_declarativeAll (env.enter .loop) body
    obtain ⟨hvalue, hlog⟩ := analyze_whileLoop env cond body loc
    obtain ⟨hvalue', hlog'⟩ := analyze_whileLoop env cond (declarativeAll body) loc
    rw [declarative]
    refine ⟨?_, ?_⟩
    · rw [hvalue, hvalue', hbody.env]
    · rw [hlog, hlog']
      exact hbody.log.append_left _
  | .repeatUntil body cond loc => by
    have hbody := thins_declarativeAll (env.enter .loop) body
    obtain ⟨hvalue, hlog⟩ := analyze_repeatUntil env body cond loc
    obtain ⟨hvalue', hlog'⟩ := analyze_repeatUntil env (declarativeAll body) cond loc
    -- the condition is resolved behind the body, where the environment is the same
    rw [hbody.env] at hvalue' hlog'
    rw [declarative]
    refine ⟨?_, ?_⟩
    · rw [hvalue, hvalue']
    · rw [hlog, hlog']
      exact hbody.log.append_right _
  | .foreach name first last body loc => by
    have hbody := thins_declarativeAll
      (declareSymbol ⟨name.name, .var, .int, name.loc⟩ (env.enter .loop)).value.2 body
    obtain ⟨hvalue, hlog⟩ := analyze_foreach env name first last body loc
    obtain ⟨hvalue', hlog'⟩ := analyze_foreach env name first last (declarativeAll body) loc
    rw [declarative]
    refine ⟨?_, ?_⟩
    · rw [hvalue, hvalue', hbody.env]
    · rw [hlog, hlog']
      exact hbody.log.append_left _
  | .qubits _ _ => .refl _
  | .declare _ _ _ _ => .refl _
  | .map _ _ _ => .refl _
  | .instruction _ => .refl _
  | .bundle _ _ => .refl _
  | .assign _ _ _ => .refl _
  | .loopControl _ _ => .refl _

theorem thins_declarativeAll (env : Env) : (ss : List Stmt) →
    (analyzeAll (declarativeAll ss) env).Thins (analyzeAll ss env)
  | [] => .refl _
  | s :: ss => by
    obtain ⟨hvalue, hlog⟩ := analyzeAll_cons env s ss
    have hrest := thins_declarativeAll (s.analyze env).value.2 ss
    rw [declarativeAll]
    cases h : s.isExecutable with
    | true =>
      -- the statement is taken out, and the ones behind it find the environment in front of it
      rw [env_of_isExecutable h] at hrest hvalue hlog
      rw [if_pos rfl]
      refine ⟨?_, ?_⟩
      · rw [hvalue, hrest.env]
      · rw [hlog]
        exact hrest.log.trans (List.sublist_append_right _ _)
    | false =>
      have hfirst := thins_declarative env s
      obtain ⟨hvalue', hlog'⟩ := analyzeAll_cons env s.declarative (declarativeAll ss)
      rw [hfirst.env] at hvalue' hlog'
      rw [if_neg Bool.false_ne_true]
      refine ⟨?_, ?_⟩
      · rw [hvalue, hvalue', hrest.env]
      · rw [hlog, hlog']
        exact hfirst.log.append hrest.log

theorem thins_declarativeBranches (env : Env) : (branches : List (Expr × List Stmt)) →
    (analyzeBranches (declarativeBranches branches) env).Thins (analyzeBranches branches env)
  | [] => .refl _
  | (cond, body) :: branches => by
    have hbody := thins_declarativeAll (env.enter .branch) body
    have hrest := thins_declarativeBranches
      (env.leave (analyzeAll body (env.enter .branch)).value.2) branches
    obtain ⟨hvalue, hlog⟩ := analyzeBranches_cons env cond body branches
    obtain ⟨hvalue', hlog'⟩ :=
      analyzeBranches_cons env cond (declarativeAll body) (declarativeBranches branches)
    rw [hbody.env] at hvalue' hlog'
    rw [declarativeBranches]
    refine ⟨?_, ?_⟩
    · rw [hvalue, hvalue', hrest.env]
    · rw [hlog, hlog']
      exact (hbody.log.append_left _).append hrest.log

theorem thins_declarativeOtherwise (env : Env) : (otherwise : Option (List Stmt)) →
    (analyzeOtherwise (declarativeOtherwise otherwise) env).Thins (analyzeOtherwise otherwise env)
  | none => .refl _
  | some body => by
    have hbody := thins_declarativeAll (env.enter .branch) body
    obtain ⟨hvalue, hlog⟩ := analyzeOtherwise_some env body
    obtain ⟨hvalue', hlog'⟩ := analyzeOtherwise_some env (declarativeAll body)
    rw [declarativeOtherwise]
    refine ⟨?_, ?_⟩
    · rw [hvalue, hvalue', hbody.env]
    · rw [hlog, hlog']
      exact hbody.log

end

end Tree.Stmt

/-! ## Programs -/

namespace Tree.Program

variable {program : Program} {dialect : Dialect}

/-- Without its executable statements a program has the same symbol table at the end, so the same
symbols, lookups and open scopes, and its diagnostics are a part of those it had before. -/
theorem analyze_declarative (h : program.dialect? = some dialect) :
    program.declarative.nodes = (program.nodes.filter (!·.isExecutable)).map Stmt.declarative
      ∧ (∃ table, program.analyze.table = some table
        ∧ program.declarative.analyze.table = some table)
      ∧ List.Sublist program.declarative.analyze.diagnostics program.analyze.diagnostics := by
  have h' : program.declarative.dialect? = some dialect := h
  have hthins := Stmt.thins_declarativeAll (Env.new dialect) program.stmts
  refine ⟨Stmt.nodes_declarativeAll program.stmts, ⟨program.finalTable dialect, ?_, ?_⟩, ?_⟩
  · exact table_analyze h
  · rw [table_analyze h']
    exact congrArg some (congrArg Env.table hthins.env)
  · rw [analyze_eq h, analyze_eq h']
    exact hthins.log

/-- `version 1; while (y) { break; int x; x = z; map x, x }; cnot x`. -/
def busy : Program :=
  let loc : Location := ⟨1, 1⟩
  let x : Ident := ⟨"x", loc⟩
  { version := some ⟨[1], loc⟩
    stmts :=
      [.whileLoop (.name ⟨"y", loc⟩)
          [.loopControl .breakLoop loc, .declare x (.scalar .int) none loc,
            .assign (.name x) (.name ⟨"z", loc⟩) loc, .map (.name x) x loc] loc,
        .instruction ⟨⟨"cnot", loc⟩, none, [.name x], loc⟩] }

/-- The undeclared condition and the second `x` of the block are still reported, the assignment and
the instruction are not. -/
theorem analyze_declarative_busy :
    busy.dialect? = some .v1
      ∧ busy.declarative.nodes.length = 3
      ∧ busy.declarative.analyze.diagnostics.map (·.cause)
        = [.undeclaredIdentifier "y", .duplicateDeclaration "x"]
      ∧ List.Sublist busy.declarative.analyze.diagnostics busy.analyze.diagnostics
      ∧ ∃ table, busy.analyze.table = some table ∧ busy.declarative.analyze.table = some table
        ∧ table.symbols.length = 1 := by
  have hdialect : busy.dialect? = some .v1 := rfl
  obtain ⟨-, ⟨table, htable, htable'⟩, hlog⟩ := analyze_declarative hdialect
  have hlength : busy.analyze.table.map (·.symbols.length) = some 1 := by decide +kernel
  rw [htable] at hlength
  exact ⟨hdialect, rfl, by decide +kernel, hlog, table, htable, htable', Option.some.inj hlength⟩

end Tree.Program

end Cqasm
