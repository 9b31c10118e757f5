import Cqasm.Proofs.Analysis.Check
import Cqasm.Proofs.Analysis.Site

/-!
# Which statement a diagnostic belongs to

The analysis of a statement records its diagnostics behind those that are there already. The
diagnostics of the statements nested in it are consecutive pieces of its own ones, so an error in a
nested statement is an error in every statement around it, and a program is free of errors if all its
statements are valid (`accounted_analyze`).

* `Pieces` : some lists stand in another one, in order and apart from each other;
* `Site.nested` : the statements directly in the blocks of a statement;
* `Site.Accounted` : the mark of a statement agrees with what is recorded in it.
-/

namespace Cqasm

/-! ## Pieces of a list -/

/-- The parts stand in the whole one after the other, in order and without overlap; anything may
stand in front of, between and behind them. -/
inductive Pieces {α : Type} : List (List α) → List α → Prop where
  | nil (whole : List α) : Pieces [] whole
  | cons (before part : List α) {parts : List (List α)} {rest : List α} (h : Pieces parts rest) :
      Pieces (part :: parts) (before ++ part ++ rest)

namespace Pieces

variable {α : Type} {parts parts' : List (List α)} {whole whole' : List α}

theorem skip (before : List α) (h : Pieces parts whole) : Pieces parts (before ++ whole) := by
  cases h with
  | nil => exact .nil _
  | cons before' part h =>
    rw [← List.append_assoc, ← List.append_assoc]
    exact .cons (before ++ before') part h

theorem append (h : Pieces parts whole) (h' : Pieces parts' whole') :
    Pieces (parts ++ parts') (whole ++ whole') := by
  induction h with
  | nil whole => exact h'.skip whole
  | cons before part _ ih =>
    rw [List.append_assoc]
    exact .cons before part ih

theorem flatten (parts : List (List α)) : Pieces parts parts.flatten := by
  induction parts with
  | nil => exact .nil _
  | cons part parts ih => exact .cons [] part ih

theorem infix_of_mem (h : Pieces parts whole) {part : List α} (hmem : part ∈ parts) :
    part <:+: whole := by
  induction h with
  | nil => exact absurd hmem List.not_mem_nil
  | cons before part' h ih =>
    rcases List.mem_cons.mp hmem with rfl | hmem
    · exact List.infix_append before part _
    · exact (ih hmem).trans (List.suffix_append _ _).isInfix

end Pieces

/-! ## Nested statements -/

namespace Tree.Stmt

open Analysis

/-- The sites of the statements of a block, without those nested in them. -/
def blockSites (inLoop : Bool) (env : Env) : List Stmt → List Site
  | [] => []
  | s :: ss => ⟨s, env, inLoop⟩ :: blockSites inLoop (s.analyze env).value.2 ss

/-- The sites of the statements of the branches of a conditional, without those nested in them. -/
def branchSites (inLoop : Bool) (env : Env) : List (Expr × List Stmt) → List Site
  | [] => []
  | (_, body) :: branches =>
    blockSites inLoop (env.enter .branch) body
      ++ branchSites inLoop (inBlock .branch (analyzeAll body) env).value.2 branches

/-- The sites of the statements of a block that may be missing. -/
def otherwiseSites (inLoop : Bool) (env : Env) : Option (List Stmt) → List Site
  | none => []
  | some body => blockSites inLoop (env.enter .branch) body

end Tree.Stmt

namespace Site

open Analysis Tree.Stmt

/-- What is recorded in the statement, at any depth. -/
def log (site : Site) : Diagnostics := (site.stmt.analyze site.env).log

/-- The sites of the statement and of the statements nested in it, at any depth. -/
def inside (site : Site) : List Site := sites site.inLoop site.env site.stmt

/-- The sites of the statements that stand directly in the blocks of the statement. -/
def nested (site : Site) : List Site :=
  match site.stmt with
  | .subcircuit name _ body _ =>
    blockSites site.inLoop ((nameSubcircuit name site.env).value.2.enter .subcircuit) body
  | .ifElse branches otherwise _ =>
    branchSites site.inLoop site.env branches
      ++ otherwiseSites site.inLoop (analyzeBranches branches site.env).value.2 otherwise
  | .whileLoop _ body _ => blockSites true (site.env.enter .loop) body
  | .repeatUntil body _ _ => blockSites true (site.env.enter .loop) body
  | .foreach name _ _ body _ =>
    blockSites true (declareSymbol ⟨name.name, .var, .int, name.loc⟩ (site.env.enter .loop)).value.2
      body
  | _ => []

end Site

namespace Tree.Stmt

open Analysis

variable {inLoop : Bool} {env : Env}

theorem sitesAll_eq (ss : List Stmt) :
    sitesAll inLoop env ss = (blockSites inLoop env ss).flatMap Site.inside := by
  induction ss generalizing env with
  | nil => rfl
  | cons s ss ih =>
    rw [sitesAll, blockSites, List.flatMap_cons, ih]
    rfl

theorem sitesBranches_eq (branches : List (Expr × List Stmt)) :
    sitesBranches inLoop env branches = (branchSites inLoop env branches).flatMap Site.inside := by
  induction branches generalizing env with
  | nil => rfl
  | cons branch branches ih =>
    obtain ⟨cond, body⟩ := branch
    rw [sitesBranches, branchSites, List.flatMap_append, ih, sitesAll_eq]

theorem sitesOtherwise_eq (otherwise : Option (List Stmt)) :
    sitesOtherwise inLoop env otherwise
      = (otherwiseSites inLoop env otherwise).flatMap Site.inside := by
  cases otherwise with
  | none => rfl
  | some body => rw [sitesOtherwise, otherwiseSites, sitesAll_eq]

/-! ## What is recorded in blocks -/

/-- A block records what its statements record, and nothing else. -/
theorem log_analyzeAll (inLoop : Bool) (env : Env) (ss : List Stmt) :
    (analyzeAll ss env).log = ((blockSites inLoop env ss).map Site.log).flatten := by
  induction ss generalizing env with
  | nil => rfl
  | cons s ss ih =>
    rw [(analyzeAll_cons env s ss).2, ih, blockSites, List.map_cons, List.flatten_cons]
    rfl

theorem nodes_blockSites (inLoop : Bool) (env : Env) (ss : List Stmt) :
    (blockSites inLoop env ss).map Site.node = (analyzeAll ss env).value.1 := by
  induction ss generalizing env with
  | nil => rfl
  | cons s ss ih =>
    rw [(analyzeAll_cons env s ss).1, blockSites, List.map_cons, ih]
    rfl

theorem pieces_analyzeAll (inLoop : Bool) (env : Env) (ss : List Stmt) :
    Pieces ((blockSites inLoop env ss).map Site.log) (analyzeAll ss env).log := by
  rw [log_analyzeAll inLoop]
  exact .flatten _

theorem pieces_analyzeBranches (inLoop : Bool) (env : Env) (branches : List (Expr × List Stmt)) :
    Pieces ((branchSites inLoop env branches).map Site.log) (analyzeBranches branches env).log := by
  induction branches generalizing env with
  | nil => exact .nil _
  | cons branch branches ih =>
    obtain ⟨cond, body⟩ := branch
    have hbody := pieces_analyzeAll inLoop (env.enter .branch) body
    have hrest := ih (inBlock .branch (analyzeAll body) env).value.2
    rw [(analyzeBranches_cons env cond body branches).2, branchSites, List.map_append]
    exact (hbody.skip _).append hrest

theorem pieces_analyzeOtherwise (inLoop : Bool) (env : Env) (otherwise : Option (List Stmt)) :
    Pieces ((otherwiseSites inLoop env otherwise).map Site.log)
      (analyzeOtherwise otherwise env).log := by
  cases otherwise with
  | none => exact .nil _
  | some body =>
    rw [(analyzeOtherwise_some env body).2]
    exact pieces_analyzeAll inLoop (env.enter .branch) body

end Tree.Stmt

/-! ## What is recorded in a statement -/

namespace Site

open Analysis Tree.Stmt

variable (site : Site)

theorem inside_eq : site.inside = site :: site.nested.flatMap Site.inside := by
  obtain ⟨s, env, inLoop⟩ := site
  unfold inside nested
  cases s with
  | ifElse branches otherwise loc =>
    rw [sites, List.flatMap_append, sitesBranches_eq, sitesOtherwise_eq]
    rfl
  | subcircuit | whileLoop | repeatUntil | foreach =>
    rw [sites, sitesAll_eq]
    rfl
  | _ => rfl

/-- The diagnostics of the nested statements are consecutive pieces of those of the statement: what
it records itself stands in front of, between and behind its blocks. -/
theorem pieces_log : Pieces (site.nested.map Site.log) site.log := by
  obtain ⟨s, env, inLoop⟩ := site
  unfold nested log
  cases s with
  | subcircuit name iterations body loc =>
    dsimp only
    rw [(analyze_subcircuit env name iterations body loc).2]
    exact (pieces_analyzeAll inLoop _ body).skip _
  | ifElse branches otherwise loc =>
    dsimp only
    rw [(analyze_ifElse env branches otherwise loc).2, List.map_append]
    exact (pieces_analyzeBranches inLoop env branches).append
      (pieces_analyzeOtherwise inLoop _ otherwise)
  | whileLoop cond body loc =>
    dsimp only
    rw [(analyze_whileLoop env cond body loc).2]
    exact (pieces_analyzeAll true _ body).skip _
  | repeatUntil body cond loc =>
    have hbody := pieces_analyzeAll true (env.enter .loop) body
    dsimp only
    rw [(analyze_repeatUntil env body cond loc).2, ← List.append_nil (List.map _ _)]
    exact hbody.append (.nil _)
  | foreach name first last body loc =>
    dsimp only
    rw [(analyze_foreach env name first last body loc).2]
    exact (pieces_analyzeAll true _ body).skip _
  | _ => exact .nil _

end Site

/-! ## Induction on the nesting of statements -/

namespace Tree.Stmt

theorem stmts_blockSites (inLoop : Bool) (env : Env) (ss : List Stmt) :
    (blockSites inLoop env ss).map Site.stmt = ss := by
  induction ss generalizing env with
  | nil => rfl
  | cons s ss ih => rw [blockSites, List.map_cons, ih]

theorem stmts_branchSites (inLoop : Bool) (env : Env) (branches : List (Expr × List Stmt)) :
    (branchSites inLoop env branches).map Site.stmt = branches.flatMap (·.2) := by
  induction branches generalizing env with
  | nil => rfl
  | cons branch branches ih =>
    rw [branchSites, List.map_append, stmts_blockSites, ih, List.flatMap_cons]

theorem stmts_otherwiseSites (inLoop : Bool) (env : Env) (otherwise : Option (List Stmt)) :
    (otherwiseSites inLoop env otherwise).map Site.stmt = otherwise.getD [] := by
  cases otherwise with
  | none => rfl
  | some body => exact stmts_blockSites inLoop _ body

end Tree.Stmt

namespace Site

open Tree.Stmt

theorem sizeOf_lt_of_mem_nested {site inner : Site} (h : inner ∈ site.nested) :
    sizeOf inner.stmt < sizeOf site.stmt := by
  obtain ⟨s, env, inLoop⟩ := site
  have hmem := List.mem_map_of_mem (f := Site.stmt) h
  unfold nested at hmem
  cases s with
  | ifElse branches otherwise loc =>
    dsimp only at hmem
    rw [List.map_append, stmts_branchSites, stmts_otherwiseSites] at hmem
    simp only [Tree.Stmt.ifElse.sizeOf_spec]
    rcases List.mem_append.mp hmem with hmem | hmem
    · obtain ⟨⟨cond, body⟩, hbranch, hmem⟩ := List.mem_flatMap.mp hmem
      have hbody := List.sizeOf_lt_of_mem hmem
      have hbranches := List.sizeOf_lt_of_mem hbranch
      simp only [Prod.mk.sizeOf_spec] at hbody hbranches
      omega
    · cases otherwise with
      | none => exact absurd hmem List.not_mem_nil
      | some body =>
        have hbody := List.sizeOf_lt_of_mem hmem
        simp only [Option.some.sizeOf_spec, Option.getD_some] at hbody ⊢
        omega
  | subcircuit | whileLoop | repeatUntil | foreach =>
    dsimp only at hmem
    rw [stmts_blockSites] at hmem
    have hbody := List.sizeOf_lt_of_mem hmem
    simp only [Tree.Stmt.subcircuit.sizeOf_spec, Tree.Stmt.whileLoop.sizeOf_spec,
      Tree.Stmt.repeatUntil.sizeOf_spec, Tree.Stmt.foreach.sizeOf_spec]
    omega
  | _ => exact absurd h List.not_mem_nil

/-- What holds of a site if it holds of the statements nested in it holds of every site. -/
theorem induct {p : Site → Prop} (h : ∀ site, (∀ inner ∈ site.nested, p inner) → p site)
    (site : Site) : p site :=
  h site fun inner _ => induct h inner
termination_by sizeOf site.stmt
decreasing_by exact sizeOf_lt_of_mem_nested ‹_›

/-- What is recorded in a nested statement, at any depth, is recorded in the statement. -/
theorem infix_log_of_mem_inside (site : Site) : ∀ inner ∈ site.inside, inner.log <:+: site.log := by
  induction site using induct with
  | h site ih =>
    intro inner hinner
    rw [inside_eq] at hinner
    rcases List.mem_cons.mp hinner with rfl | hinner
    · exact List.infix_rfl
    · obtain ⟨direct, hdirect, hinner⟩ := List.mem_flatMap.mp hinner
      have hpiece := site.pieces_log.infix_of_mem (List.mem_map_of_mem hdirect)
      exact (ih direct hdirect inner hinner).trans hpiece

/-! ## Marks -/

/-- A statement is valid if nothing but warnings is recorded in it. -/
theorem valid_iff (site : Site) :
    site.node.valid = true ↔ ∀ d ∈ site.log, d.severity ≠ .error := by
  rw [node, valid_analyze, Bool.not_eq_true', Diagnostics.anyErrors, List.any_eq_false]
  simp only [Diagnostic.isError, decide_eq_true_eq, log]

/-- A statement is valid if there are as many errors behind it as in front of it. -/
theorem valid_iff_errorCount (site : Site) (recorded : Diagnostics) :
    site.node.valid = true ↔ Diagnostics.errorCount (recorded ++ site.log) = recorded.errorCount := by
  rw [node, valid_analyze, Bool.not_eq_true']
  exact Diagnostics.errorCount_append_eq_iff.symm

/-- The mark of the statement agrees with what is recorded in it, and the diagnostics of the
statements nested in it are pieces of its own. -/
structure Accounted (site : Site) : Prop where
  /-- No error is recorded in a valid statement. -/
  valid_iff : site.node.valid = true ↔ ∀ d ∈ site.log, d.severity ≠ .error
  /-- Whatever was recorded before, a valid statement adds no error. -/
  count_iff : ∀ recorded : Diagnostics,
    site.node.valid = true ↔ Diagnostics.errorCount (recorded ++ site.log) = recorded.errorCount
  /-- The statements inside are the statement and those inside of the ones nested in it. -/
  inside_eq : site.inside = site :: site.nested.flatMap Site.inside
  nodes_eq : site.node.nodes = site.inside.map Site.node
  pieces : Pieces (site.nested.map Site.log) site.log
  /-- A statement around one that is not valid is not valid. -/
  around : ∀ inner ∈ site.inside, inner.node.valid = false → site.node.valid = false

theorem accounted (site : Site) : site.Accounted where
  valid_iff := site.valid_iff
  count_iff := site.valid_iff_errorCount
  inside_eq := site.inside_eq
  nodes_eq := nodes_analyze site.inLoop site.env site.stmt
  pieces := site.pieces_log
  around := by
    intro inner hinner hinvalid
    by_contra hvalid
    rw [Bool.not_eq_false, valid_iff] at hvalid
    have hsub := (site.infix_log_of_mem_inside inner hinner).subset
    have : inner.node.valid = true := inner.valid_iff.mpr fun d hd => hvalid d (hsub hd)
    rw [hinvalid] at this
    cases this

end Site

/-! ## Programs -/

namespace Tree.Program

open Stmt

variable {program : Program} {dialect : Dialect}

/-- The sites of the statements of a program that stand in no block. -/
def topSites (dialect : Dialect) (program : Program) : List Site :=
  blockSites false (Env.new dialect) program.stmts

theorem sites_eq_flatMap (dialect : Dialect) (program : Program) :
    program.sites dialect = (program.topSites dialect).flatMap Site.inside :=
  sitesAll_eq program.stmts

theorem diagnostics_analyze (h : program.dialect? = some dialect) :
    program.analyze.diagnostics = ((program.topSites dialect).map Site.log).flatten := by
  rw [analyze_eq h]
  exact log_analyzeAll false _ program.stmts

theorem state_eq_resolved_iff (program : Program) :
    program.analyze.state = .resolved ↔ ∀ d ∈ program.analyze.diagnostics, d.severity ≠ .error := by
  have hany : program.analyze.diagnostics.anyErrors = false
      ↔ ∀ d ∈ program.analyze.diagnostics, d.severity ≠ .error := by
    rw [Diagnostics.anyErrors, List.any_eq_false]
    simp only [Diagnostic.isError, decide_eq_true_eq]
  rw [← hany, AnalysisResult.state]
  split <;> simp_all

/-- A program is free of errors if all its statements are valid, at any depth. -/
theorem resolved_iff_forall_valid (h : program.dialect? = some dialect) :
    program.analyze.state = .resolved ↔ ∀ site ∈ program.sites dialect, site.node.valid = true := by
  rw [state_eq_resolved_iff, diagnostics_analyze h, sites_eq_flatMap]
  constructor
  · intro hclean site hsite
    obtain ⟨top, htop, hinside⟩ := List.mem_flatMap.mp hsite
    have hsub := (top.infix_log_of_mem_inside site hinside).subset
    refine site.valid_iff.mpr fun d hd => hclean d ?_
    exact List.mem_flatten.mpr ⟨top.log, List.mem_map_of_mem htop, hsub hd⟩
  · intro hvalid d hd
    obtain ⟨log, hlog, hd⟩ := List.mem_flatten.mp hd
    obtain ⟨top, htop, rfl⟩ := List.mem_map.mp hlog
    have hself : top ∈ top.inside := by
      rw [top.inside_eq]
      exact List.mem_cons_self
    exact top.valid_iff.mp (hvalid top (List.mem_flatMap.mpr ⟨top, htop, hself⟩)) d hd

/-- The diagnostics of a program are those of its statements one after the other, each statement is
marked as valid if no error is among its own, and the program is free of errors if all are valid. -/
theorem accounted_analyze (h : program.dialect? = some dialect) :
    program.analyze.diagnostics = ((program.topSites dialect).map Site.log).flatten
      ∧ program.analyze.program.stmts = (program.topSites dialect).map Site.node
      ∧ program.analyze.program.nodes = (program.sites dialect).map Site.node
      ∧ (∀ site ∈ program.sites dialect,
        site.Accounted ∧ site.log <:+: program.analyze.diagnostics)
      ∧ (program.analyze.state = .resolved
        ↔ ∀ node ∈ program.analyze.program.nodes, node.valid = true) := by
  refine ⟨diagnostics_analyze h, ?_, nodes_eq h, fun site hsite => ⟨site.accounted, ?_⟩, ?_⟩
  · rw [analyze_eq h]
    exact (nodes_blockSites false _ program.stmts).symm
  · rw [sites_eq_flatMap] at hsite
    obtain ⟨top, htop, hinside⟩ := List.mem_flatMap.mp hsite
    rw [diagnostics_analyze h]
    have hpiece := (Pieces.flatten _).infix_of_mem (List.mem_map_of_mem (f := Site.log) htop)
    exact (top.infix_log_of_mem_inside site hinside).trans hpiece
  · rw [resolved_iff_forall_valid h, nodes_eq h, List.forall_mem_map]

/-- `version 1; qubits 2; while (true) { prep q[0]; y = 1 }`: a deprecated instruction, which is a
warning, and an assignment to a name that is not declared. -/
def unprepared : Program :=
  let loc : Location := ⟨1, 1⟩
  { version := some ⟨[1], loc⟩
    stmts :=
      [.qubits (.int loc 2) loc,
        .whileLoop (.literal (.bool true) loc)
          [.instruction ⟨⟨"prep", loc⟩, none, [.items loc "q" [0]], loc⟩,
            .assign (.name ⟨"y", loc⟩) (.int loc 1) loc] loc] }

/-- The loop is not valid since the assignment in it is not; the warning does no harm. -/
theorem accounted_analyze_unprepared :
    unprepared.dialect? = some .v1
      ∧ unprepared.analyze.program.nodes.map (·.valid) = [true, false, true, false]
      ∧ unprepared.analyze.diagnostics.length = 2 ∧ unprepared.analyze.state ≠ .resolved := by
  have hdialect : unprepared.dialect? = some .v1 := rfl
  have hnodes : unprepared.analyze.program.nodes.map (·.valid) = [true, false, true, false] := by
    decide +kernel
  refine ⟨hdialect, hnodes, by decide +kernel, fun hresolved => ?_⟩
  have hvalid := (accounted_analyze hdialect).2.2.2.2.mp hresolved
  have hall : ∀ valid ∈ unprepared.analyze.program.nodes.map (·.valid), valid = true :=
    List.forall_mem_map.mpr hvalid
  rw [hnodes] at hall
  exact absurd (hall false (by simp)) (by simp)

end Tree.Program

end Cqasm
