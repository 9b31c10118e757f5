import Cqasm.Analysis.Program
import Cqasm.Proofs.Analysis.Run
import Cqasm.Proofs.Typed.Parts

/-!
# The sites of an analysis

The analysis of a program comes along every statement of it once, in program order, each time in
the environment that the statements before have left. A `Site` is such a statement with the
environment in front of it. The sites are the bridge between a typed program and its analysis: the
nodes of the typed program are what the sites give (`nodes_eq`), so a property of all nodes is
proved site by site, from what holds of the environment there and of the symbol table at the end
(`placed_of_mem_sites`).
-/

namespace Cqasm

/-- A statement of a program where the analysis comes along. -/
structure Site where
  stmt : Tree.Stmt
  /-- The environment in front of the statement. -/
  env : Env
  /-- Is the statement part of the body of a loop, at any depth? -/
  inLoop : Bool

namespace Site

/-- The typed statement of the statement there. -/
def node (site : Site) : Typed.Stmt := (site.stmt.analyze site.env).value.1

/-- The environment behind the statement. -/
def after (site : Site) : Env := (site.stmt.analyze site.env).value.2

end Site

namespace Tree.Stmt

open Analysis

mutual

/-- The sites in a statement that is analysed in `env`. -/
def sites (inLoop : Bool) (env : Env) : Stmt → List Site
  | subcircuit name iterations body loc =>
    ⟨subcircuit name iterations body loc, env, inLoop⟩
      :: sitesAll inLoop ((nameSubcircuit name env).value.2.enter .subcircuit) body
  | ifElse branches otherwise loc =>
    ⟨ifElse branches otherwise loc, env, inLoop⟩
      :: (sitesBranches inLoop env branches
        ++ sitesOtherwise inLoop (analyzeBranches branches env).value.2 otherwise)
  | whileLoop condition body loc =>
    ⟨whileLoop condition body loc, env, inLoop⟩ :: sitesAll true (env.enter .loop) body
  | repeatUntil body condition loc =>
    ⟨repeatUntil body condition loc, env, inLoop⟩ :: sitesAll true (env.enter .loop) body
  | foreach name first last body loc =>
    ⟨foreach name first last body loc, env, inLoop⟩
      :: sitesAll true
        (declareSymbol ⟨name.name, .var, .int, name.loc⟩ (env.enter .loop)).value.2 body
  | s => [⟨s, env, inLoop⟩]

/-- The sites in a block. -/
def sitesAll (inLoop : Bool) (env : Env) : List Stmt → List Site
  | [] => []
  | s :: ss => sites inLoop env s ++ sitesAll inLoop (s.analyze env).value.2 ss

/-- The sites in the branches of a conditional. -/
def sitesBranches (inLoop : Bool) (env : Env) : List (Expr × List Stmt) → List Site
  | [] => []
  | (_, body) :: branches =>
    sitesAll inLoop (env.enter .branch) body
      ++ sitesBranches inLoop (inBlock .branch (analyzeAll body) env).value.2 branches

/-- The sites in a block that may be missing. -/
def sitesOtherwise (inLoop : Bool) (env : Env) : Option (List Stmt) → List Site
  | none => []
  | some body => sitesAll inLoop (env.enter .branch) body

end

/-! ## Statements and nodes -/

mutual

theorem stmts_sites (inLoop : Bool) (env : Env) :
    (s : Stmt) → (sites inLoop env s).map Site.stmt = nodes s
  | .subcircuit .. => by rw [sites, nodes, List.map_cons, stmts_sitesAll]
  | .ifElse .. => by
    rw [sites, nodes, List.map_cons, List.map_append, stmts_sitesBranches, stmts_sitesOtherwise]
  | .whileLoop .. => by rw [sites, nodes, List.map_cons, stmts_sitesAll]
  | .repeatUntil .. => by rw [sites, nodes, List.map_cons, stmts_sitesAll]
  | .foreach .. => by rw [sites, nodes, List.map_cons, stmts_sitesAll]
  | .qubits .. => rfl
  | .declare .. => rfl
  | .map .. => rfl
  | .instruction .. => rfl
  | .bundle .. => rfl
  | .assign .. => rfl
  | .loopControl .. => rfl

theorem stmts_sitesAll (inLoop : Bool) (env : Env) :
    (ss : List Stmt) → (sitesAll inLoop env ss).map Site.stmt = nodesAll ss
  | [] => rfl
  | s :: ss => by rw [sitesAll, nodesAll, List.map_append, stmts_sites, stmts_sitesAll]

theorem stmts_sitesBranches (inLoop : Bool) (env : Env) : (branches : List (Expr × List Stmt)) →
    (sitesBranches inLoop env branches).map Site.stmt = nodesBranches branches
  | [] => rfl
  | (_, body) :: branches => by
    rw [sitesBranches, nodesBranches, List.map_append, stmts_sitesAll, stmts_sitesBranches]

theorem stmts_sitesOtherwise (inLoop : Bool) (env : Env) : (otherwise : Option (List Stmt)) →
    (sitesOtherwise inLoop env otherwise).map Site.stmt = nodesOtherwise otherwise
  | none => rfl
  | some body => by rw [sitesOtherwise, nodesOtherwise, stmts_sitesAll]

end

mutual

/-- The nodes of a typed statement are what the sites in the statement give. -/
theorem nodes_analyze (inLoop : Bool) (env : Env) :
    (s : Stmt) → (s.analyze env).value.1.nodes = (sites inLoop env s).map Site.node
  | .subcircuit name iterations body loc => by
    rw [sites, List.map_cons, Site.node, (analyze_subcircuit env name iterations body loc).1,
      Typed.Stmt.nodes, nodes_analyzeAll inLoop]
  | .ifElse branches otherwise loc => by
    rw [sites, List.map_cons, Site.node, (analyze_ifElse env branches otherwise loc).1,
      Typed.Stmt.nodes, nodes_analyzeBranches inLoop, nodes_analyzeOtherwise inLoop, List.map_append]
  | .whileLoop cond body loc => by
    rw [sites, List.map_cons, Site.node, (analyze_whileLoop env cond body loc).1,
      Typed.Stmt.nodes, nodes_analyzeAll true]
  | .repeatUntil body cond loc => by
    rw [sites, List.map_cons, Site.node, (analyze_repeatUntil env body cond loc).1,
      Typed.Stmt.nodes, nodes_analyzeAll true]
  | .foreach name first last body loc => by
    rw [sites, List.map_cons, Site.node, (analyze_foreach env name first last body loc).1,
      Typed.Stmt.nodes, nodes_analyzeAll true]
  | .qubits size loc => by
    show _ = [Site.node ⟨_, env, inLoop⟩]
    rw [Site.node, (analyze_qubits env size loc).1]
    rfl
  | .declare name type init loc => by
    show _ = [Site.node ⟨_, env, inLoop⟩]
    rw [Site.node, (analyze_declare env name type init loc).1]
    rfl
  | .map target name loc => by
    show _ = [Site.node ⟨_, env, inLoop⟩]
    rw [Site.node, (analyze_map env target name loc).1]
    rfl
  | .instruction i => by
    show _ = [Site.node ⟨_, env, inLoop⟩]
    rw [Site.node, (analyze_instruction env i).1]
    rfl
  | .bundle is loc => by
    show _ = [Site.node ⟨_, env, inLoop⟩]
    rw [Site.node, (analyze_bundle env is loc).1]
    rfl
  | .assign lhs rhs loc => by
    show _ = [Site.node ⟨_, env, inLoop⟩]
    rw [Site.node, (analyze_assign env lhs rhs loc).1]
    rfl
  | .loopControl control loc => by
    show _ = [Site.node ⟨_, env, inLoop⟩]
    rw [Site.node, (analyze_loopControl env control loc).1]
    rfl

theorem nodes_analyzeAll (inLoop : Bool) (env : Env) : (ss : List Stmt) →
    Typed.Stmt.nodesAll (analyzeAll ss env).value.1 = (sitesAll inLoop env ss).map Site.node
  | [] => rfl
  | s :: ss => by
    rw [sitesAll, List.map_append, (analyzeAll_cons env s ss).1, Typed.Stmt.nodesAll,
      nodes_analyze inLoop, nodes_analyzeAll inLoop]

theorem nodes_analyzeBranches (inLoop : Bool) (env : Env) :
    (branches : List (Expr × List Stmt)) →
    Typed.Stmt.nodesBranches (analyzeBranches branches env).value.1
      = (sitesBranches inLoop env branches).map Site.node
  | [] => rfl
  | (cond, body) :: branches => by
    rw [sitesBranches, List.map_append, (analyzeBranches_cons env cond body branches).1,
      Typed.Stmt.nodesBranches, nodes_analyzeAll inLoop, nodes_analyzeBranches inLoop]
    rfl

theorem nodes_analyzeOtherwise (inLoop : Bool) (env : Env) :
    (otherwise : Option (List Stmt)) →
    Typed.Stmt.nodesOtherwise (analyzeOtherwise otherwise env).value.1
      = (sitesOtherwise inLoop env otherwise).map Site.node
  | none => rfl
  | some body => by
    rw [sitesOtherwise, (analyzeOtherwise_some env body).1, Typed.Stmt.nodesOtherwise,
      nodes_analyzeAll inLoop]

end

end Tree.Stmt

/-! ## What holds at every site -/

namespace Site

variable {site : Site} {table table' : SymbolTable}

/-- The environment in front of the site is in order, and everything that is declared up to the site
is still there in the given table. -/
structure Placed (site : Site) (table : SymbolTable) : Prop where
  ready : site.env.Ready site.inLoop
  grows : site.after.table.Grows table

theorem Placed.mono (h : site.Placed table) (hgrows : table.Grows table') : site.Placed table' :=
  ⟨h.ready, h.grows.trans hgrows⟩

end Site

namespace Tree.Stmt

open Analysis

variable {inLoop : Bool} {env : Env}

theorem placed_self (h : env.Ready inLoop) (s : Stmt) :
    (Site.mk s env inLoop).Placed (s.analyze env).value.2.table := ⟨h, .refl _⟩

mutual

theorem placed_sites {inLoop : Bool} {env : Env} (h : env.Ready inLoop) :
    (s : Stmt) → ∀ site ∈ sites inLoop env s, site.Placed (s.analyze env).value.2.table
  | .subcircuit name iterations body loc => by
    rw [sites, List.forall_mem_cons]
    refine ⟨placed_self h _, fun site hsite => ?_⟩
    rw [(analyze_subcircuit env name iterations body loc).1]
    have hnamed := h.keeps fun hR => hR.nameSubcircuit name
    exact (placed_sitesAll (hnamed.enter .subcircuit) body site hsite).mono (.closeTo _ _)
  | .ifElse branches otherwise loc => by
    rw [sites, List.forall_mem_cons]
    refine ⟨placed_self h _, fun site hsite => ?_⟩
    rw [(analyze_ifElse env branches otherwise loc).1]
    rcases List.mem_append.mp hsite with hsite | hsite
    · exact (placed_sitesBranches h branches site hsite).mono
        (stable_grows.analyzeOtherwise otherwise _)
    · exact placed_sitesOtherwise (h.keeps fun hR => hR.analyzeBranches branches) otherwise site hsite
  | .whileLoop cond body loc => by
    rw [sites, List.forall_mem_cons]
    refine ⟨placed_self h _, fun site hsite => ?_⟩
    rw [(analyze_whileLoop env cond body loc).1]
    exact (placed_sitesAll (h.enter .loop) body site hsite).mono (.closeTo _ _)
  | .repeatUntil body cond loc => by
    rw [sites, List.forall_mem_cons]
    refine ⟨placed_self h _, fun site hsite => ?_⟩
    rw [(analyze_repeatUntil env body cond loc).1]
    exact (placed_sitesAll (h.enter .loop) body site hsite).mono (.closeTo _ _)
  | .foreach name first last body loc => by
    rw [sites, List.forall_mem_cons]
    refine ⟨placed_self h _, fun site hsite => ?_⟩
    rw [(analyze_foreach env name first last body loc).1]
    have hname := (h.enter .loop).keeps fun hR =>
      hR.declareSymbol (show (Symbol.mk name.name .var .int name.loc).Fits from rfl)
    exact (placed_sitesAll hname body site hsite).mono (.closeTo _ _)
  | .qubits size loc => List.forall_mem_singleton.mpr (placed_self h _)
  | .declare name type init loc => List.forall_mem_singleton.mpr (placed_self h _)
  | .map target name loc => List.forall_mem_singleton.mpr (placed_self h _)
  | .instruction i => List.forall_mem_singleton.mpr (placed_self h _)
  | .bundle is loc => List.forall_mem_singleton.mpr (placed_self h _)
  | .assign lhs rhs loc => List.forall_mem_singleton.mpr (placed_self h _)
  | .loopControl control loc => List.forall_mem_singleton.mpr (placed_self h _)

theorem placed_sitesAll {inLoop : Bool} {env : Env} (h : env.Ready inLoop) :
    (ss : List Stmt) →
    ∀ site ∈ sitesAll inLoop env ss, site.Placed (analyzeAll ss env).value.2.table
  | [] => fun _ hsite => absurd hsite List.not_mem_nil
  | s :: ss => fun site hsite => by
    rw [(analyzeAll_cons env s ss).1]
    rcases List.mem_append.mp hsite with hsite | hsite
    · exact (placed_sites h s site hsite).mono (stable_grows.analyzeAll ss _)
    · exact placed_sitesAll (h.analyze s) ss site hsite

theorem placed_sitesBranches {inLoop : Bool} {env : Env} (h : env.Ready inLoop) :
    (branches : List (Expr × List Stmt)) →
    ∀ site ∈ sitesBranches inLoop env branches,
      site.Placed (analyzeBranches branches env).value.2.table
  | [] => fun _ hsite => absurd hsite List.not_mem_nil
  | (cond, body) :: branches => fun site hsite => by
    rw [(analyzeBranches_cons env cond body branches).1]
    have hbehind := h.keeps fun hR => hR.inBlock .branch (hR.analyzeAll body)
    rcases List.mem_append.mp hsite with hsite | hsite
    · have hbody := placed_sitesAll (h.enter .branch) body site hsite
      exact (hbody.mono (.closeTo _ _)).mono (stable_grows.analyzeBranches branches (env.leave _))
    · exact placed_sitesBranches hbehind branches site hsite

theorem placed_sitesOtherwise {inLoop : Bool} {env : Env} (h : env.Ready inLoop) :
    (otherwise : Option (List Stmt)) →
    ∀ site ∈ sitesOtherwise inLoop env otherwise,
      site.Placed (analyzeOtherwise otherwise env).value.2.table
  | none => fun _ hsite => absurd hsite List.not_mem_nil
  | some body => fun site hsite => by
    rw [(analyzeOtherwise_some env body).1]
    exact (placed_sitesAll (h.enter .branch) body site hsite).mono (.closeTo _ _)

end

end Tree.Stmt

/-! ## Whole programs -/

namespace Tree.Program

variable {program : Program} {dialect : Dialect}

/-- The dialect that the version directive names, if it is supported. -/
def dialect? (program : Program) : Option Dialect := program.versionItems.bind Dialect.ofVersion?

/-- The sites in a program of the given dialect. -/
def sites (dialect : Dialect) (program : Program) : List Site :=
  Stmt.sitesAll false (Env.new dialect) program.stmts

theorem analyze_eq (h : program.dialect? = some dialect) :
    program.analyze = program.analyzeAs dialect := by
  unfold dialect? at h
  rw [analyze, h]

/-- The table at the end of the analysis of a program of the given dialect. -/
def finalTable (dialect : Dialect) (program : Program) : SymbolTable :=
  (Stmt.analyzeAll program.stmts (Env.new dialect)).value.2.table

theorem table_analyze (h : program.dialect? = some dialect) :
    program.analyze.table = some (program.finalTable dialect) := by
  rw [analyze_eq h]
  rfl

theorem dialect_finalTable (dialect : Dialect) (program : Program) :
    (program.finalTable dialect).dialect = dialect :=
  (stable_grows.analyzeAll program.stmts (Env.new dialect)).dialect

/-- The sites of a program come along its statements, at any depth. -/
theorem stmts_eq (dialect : Dialect) (program : Program) :
    (program.sites dialect).map Site.stmt = program.nodes :=
  Stmt.stmts_sitesAll false (Env.new dialect) program.stmts

/-- The statements of the typed program, at any depth, are what the sites of the program give. -/
theorem nodes_eq (h : program.dialect? = some dialect) :
    program.analyze.program.nodes = (program.sites dialect).map Site.node := by
  rw [analyze_eq h]
  exact Stmt.nodes_analyzeAll false _ program.stmts

theorem placed_of_mem_sites {site : Site} (h : site ∈ program.sites dialect) :
    site.Placed (program.finalTable dialect) :=
  Stmt.placed_sitesAll (Env.ready_new dialect) program.stmts site h

theorem dialect_of_mem_sites {site : Site} (h : site ∈ program.sites dialect) :
    site.env.table.dialect = dialect := by
  have hstep := (stable_grows.analyze site.stmt site.env).dialect
  have hgrows := (placed_of_mem_sites h).grows.dialect
  rw [dialect_finalTable] at hgrows
  exact hstep.symm.trans hgrows.symm

end Tree.Program

end Cqasm
