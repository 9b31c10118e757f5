import Cqasm.Proofs.Analysis.Version

/-!
# Diagnostics inside of statements

What is recorded while a statement is analysed stands somewhere in this statement: at the statement or
one nested in it, at a name, or at an expression or a part of one. A diagnostic never points out of the
statement that it is about, not even out of the innermost one, as the typed expressions that checks are
about keep the locations of the written ones. Without a supported version there is one diagnostic, and
it stands at the version directive or where it should be.

* `Tree.Stmt.locs` : the locations of a statement with everything inside of it.
-/

namespace Cqasm

/-! ## Statements -/

namespace Tree.Stmt

/-- The locations of the statement and of everything inside of it. -/
def locs (s : Stmt) : List Location := s.nodes.flatMap ownLocs

end Tree.Stmt

namespace Site

variable (site : Site)

theorem stmts_inside : site.inside.map Site.stmt = site.stmt.nodes :=
  Tree.Stmt.stmts_sites site.inLoop site.env site.stmt

theorem loc_mem_ownLocs : ∀ d ∈ site.ownLog, d.loc ∈ site.stmt.ownLocs :=
  fun d hd => (within_ownLog (List.Subset.refl _) d hd).2

/-- What is recorded in a statement stands in it: a nested statement has recorded it itself. -/
theorem loc_mem_locs : ∀ d ∈ site.log, d.loc ∈ site.stmt.locs := by
  intro d hd
  obtain ⟨inner, hinner, hown⟩ := List.mem_flatMap.mp (site.perm_inside.mem_iff.mp hd)
  have hnode : inner.stmt ∈ site.stmt.nodes := by
    rw [← stmts_inside]
    exact List.mem_map_of_mem hinner
  exact List.mem_flatMap.mpr ⟨inner.stmt, hnode, inner.loc_mem_ownLocs d hown⟩

end Site

/-! ## Programs -/

namespace Tree.Program

variable {program : Program} {dialect : Dialect}

/-- What is recorded in a statement is a piece of the diagnostics of the program. -/
theorem infix_diagnostics (h : program.dialect? = some dialect) :
    ∀ site ∈ program.sites dialect, site.log <:+: program.analyze.diagnostics := by
  intro site hsite
  rw [sites_eq_flatMap] at hsite
  obtain ⟨top, htop, hinside⟩ := List.mem_flatMap.mp hsite
  rw [diagnostics_analyze h]
  exact (top.infix_log_of_mem_inside site hinside).trans
    ((Pieces.flatten _).infix_of_mem (List.mem_map_of_mem htop))

theorem dialect?_of_covers {version : Version} (hversion : program.version = some version)
    (hcovers : dialect.Covers version.items) : program.dialect? = some dialect :=
  dialect?_eq_some_iff.mpr ⟨version.items, congrArg (Option.map _) hversion, hcovers⟩

theorem dialect?_of_not_covers {version : Version} (hversion : program.version = some version)
    (hcovers : ∀ dialect, ¬ Dialect.Covers dialect version.items) : program.dialect? = none :=
  dialect?_eq_none_iff.mpr (.inr ⟨version.items, congrArg (Option.map _) hversion, hcovers⟩)

theorem dialect?_of_missing (hversion : program.version = none) : program.dialect? = none :=
  dialect?_eq_none_iff.mpr (.inl (congrArg (Option.map _) hversion))

theorem locs_unsupported (h : program.dialect? = none) :
    program.analyze.diagnostics.map (·.loc) = [program.versionLoc] := by
  rw [analyze_eq_unsupported h]
  rfl

/-- Under a supported version the analysis comes along every statement, at any depth, and what is
recorded in each stands in it; what is recorded in the statement but in none that is nested in it stands
at its own names and expressions. Otherwise there is one diagnostic, and it stands at the version
directive, at the first statement if there is no directive, or at the beginning of the text. -/
theorem located_analyze (program : Program) :
    (∀ version dialect, program.version = some version → dialect.Covers version.items →
      (program.sites dialect).map Site.stmt = program.nodes
      ∧ program.analyze.diagnostics.Perm ((program.sites dialect).flatMap Site.ownLog)
      ∧ ∀ site ∈ program.sites dialect,
        site.log <:+: program.analyze.diagnostics
        ∧ (∀ d ∈ site.log, d.loc ∈ site.stmt.locs)
        ∧ ∀ d ∈ site.ownLog, d.loc ∈ site.stmt.ownLocs)
    ∧ (∀ version, program.version = some version →
      (∀ dialect, ¬ Dialect.Covers dialect version.items) →
      program.analyze.diagnostics.map (·.loc) = [version.loc])
    ∧ (program.version = none → ∀ s ss, program.stmts = s :: ss →
      program.analyze.diagnostics.map (·.loc) = [s.loc])
    ∧ (program.version = none → program.stmts = [] →
      program.analyze.diagnostics.map (·.loc) = [⟨1, 1⟩]) := by
  refine ⟨?_, ?_, ?_, ?_⟩
  · intro version dialect hversion hcovers
    have hdialect := dialect?_of_covers hversion hcovers
    exact ⟨stmts_eq dialect program, perm_diagnostics hdialect, fun site hsite =>
      ⟨infix_diagnostics hdialect site hsite, site.loc_mem_locs, site.loc_mem_ownLocs⟩⟩
  · intro version hversion hcovers
    rw [locs_unsupported (dialect?_of_not_covers hversion hcovers), versionLoc, hversion]
  · intro hversion s ss hstmts
    rw [locs_unsupported (dialect?_of_missing hversion), versionLoc, hversion, hstmts]
  · intro hversion hstmts
    rw [locs_unsupported (dialect?_of_missing hversion), versionLoc, hversion, hstmts]

/-- A conditional on a name that is not declared, with a `break` in its block although there is no
loop. -/
def adrift (version : Option Version) : Program :=
  { version, stmts := [.ifElse [(.name ⟨"x", ⟨2, 5⟩⟩, [.loopControl .breakLoop ⟨3, 3⟩])] none ⟨2, 1⟩] }

/-- The condition is in error where the name stands and the block where the `break` does. -/
theorem located_analyze_adrift :
    (adrift (some ⟨[3], ⟨1, 1⟩⟩)).analyze.diagnostics.map (·.loc) = [⟨2, 5⟩, ⟨3, 3⟩]
      ∧ (∀ site ∈ (adrift (some ⟨[3], ⟨1, 1⟩⟩)).sites .v3, ∀ d ∈ site.log, d.loc ∈ site.stmt.locs)
      ∧ (adrift (some ⟨[2], ⟨1, 1⟩⟩)).analyze.diagnostics.map (·.loc) = [⟨1, 1⟩]
      ∧ (adrift none).analyze.diagnostics.map (·.loc) = [⟨2, 1⟩]
      ∧ (Program.mk none []).analyze.diagnostics.map (·.loc) = [⟨1, 1⟩] := by
  obtain ⟨hruns, -, -, -⟩ := located_analyze (adrift (some ⟨[3], ⟨1, 1⟩⟩))
  obtain ⟨-, hunsupported, -, -⟩ := located_analyze (adrift (some ⟨[2], ⟨1, 1⟩⟩))
  obtain ⟨-, -, hmissing, -⟩ := located_analyze (adrift none)
  obtain ⟨-, -, -, hempty⟩ := located_analyze (Program.mk none [])
  obtain ⟨-, -, hsites⟩ := hruns _ .v3 rfl ⟨[3], by decide, 0, rfl⟩
  refine ⟨by decide +kernel, fun site hsite => (hsites site hsite).2.1,
    hunsupported _ rfl fun dialect => ?_, hmissing rfl _ _ rfl, hempty rfl rfl⟩
  rw [Dialect.covers_iff]
  cases dialect <;> decide

end Tree.Program

end Cqasm
