import Cqasm.Proofs.Analysis.Execution
import Mathlib.Data.List.Basic

/-!
# Loop controls outside of loops

Whether a loop control stands in a loop is found out from the kinds of the scopes that are open around
it. This is the same as asking for a loop among the statements around it in the tree, so exactly the
loop controls without one are reported, in the order of the program (`misplaced_analyze`).

* `Tree.Place` : a statement and the statements around it;
* `Tree.Program.places` : the places of the statements of a program, at any depth;
* `Tree.Program.misplaced` : the loop controls that stand in no loop.
-/

namespace Cqasm

open Analysis
open Diagnostics (select select_of_causes select_flatMap)

/-! ## Places -/

namespace Tree

namespace Stmt

/-- Is it a statement whose block is the body of a loop? -/
def isLoop : Stmt → Bool
  | whileLoop _ _ _ | repeatUntil _ _ _ | foreach _ _ _ _ _ => true
  | _ => false

end Stmt

/-- A statement and the statements around it, the innermost one first. -/
structure Place where
  stmt : Stmt
  around : List Stmt

/-- Is a statement around it a loop? -/
def Place.inLoop (place : Place) : Bool := place.around.any Stmt.isLoop

namespace Stmt

mutual

/-- The places in a statement with the given ones around it. -/
def places (around : List Stmt) : Stmt → List Place
  | subcircuit name iterations body loc =>
    ⟨subcircuit name iterations body loc, around⟩
      :: placesAll (subcircuit name iterations body loc :: around) body
  | ifElse branches otherwise loc =>
    ⟨ifElse branches otherwise loc, around⟩
      :: (placesBranches (ifElse branches otherwise loc :: around) branches
        ++ placesOtherwise (ifElse branches otherwise loc :: around) otherwise)
  | whileLoop condition body loc =>
    ⟨whileLoop condition body loc, around⟩
      :: placesAll (whileLoop condition body loc :: around) body
  | repeatUntil body condition loc =>
    ⟨repeatUntil body condition loc, around⟩
      :: placesAll (repeatUntil body condition loc :: around) body
  | foreach name first last body loc =>
    ⟨foreach name first last body loc, around⟩
      :: placesAll (foreach name first last body loc :: around) body
  | s => [⟨s, around⟩]
termination_by structural s => s

/-- The places in a block with the given statements around it. -/
def placesAll (around : List Stmt) : List Stmt → List Place
  | [] => []
  | s :: ss => places around s ++ placesAll around ss
termination_by structural ss => ss

/-- The places in the branches of a conditional. -/
def placesBranches (around : List Stmt) : List (Expr × List Stmt) → List Place
  | [] => []
  | (_, body) :: branches => placesAll around body ++ placesBranches around branches
termination_by structural branches => branches

/-- The places in a block that may be missing. -/
def placesOtherwise (around : List Stmt) : Option (List Stmt) → List Place
  | none => []
  | some body => placesAll around body
termination_by structural otherwise => otherwise

end

/-- The loop control that the statement is, if no loop is around it. -/
def misplaced? (inLoop : Bool) : Stmt → Option (LoopControl × Location)
  | loopControl control loc => if inLoop then none else some (control, loc)
  | _ => none

end Stmt

namespace Program

/-- The places of the statements of a program, at any depth and in program order. -/
def places (program : Program) : List Place := Stmt.placesAll [] program.stmts

/-- The loop controls of a program that stand in no loop, and where they are. -/
def misplaced (program : Program) : List (LoopControl × Location) :=
  program.places.filterMap fun place => place.stmt.misplaced? place.inLoop

end Program

/-! ## Places and sites -/

namespace Stmt

mutual

/-- The analysis comes along the places of a statement, and knows at each of them whether there is a
loop around it. -/
theorem places_sites (around : List Stmt) (env : Env) : (s : Stmt) →
    (sites (around.any isLoop) env s).map (fun site => (site.stmt, site.inLoop))
      = (places around s).map fun place => (place.stmt, place.inLoop)
  | .subcircuit name iterations body loc => by
    rw [sites, places, List.map_cons, List.map_cons]
    exact congrArg _ (places_sitesAll (subcircuit name iterations body loc :: around) _ body)
  | .ifElse branches otherwise loc => by
    rw [sites, places, List.map_cons, List.map_cons, List.map_append, List.map_append]
    have hbranches :=
      places_sitesBranches (ifElse branches otherwise loc :: around) env branches
    have hotherwise := places_sitesOtherwise (ifElse branches otherwise loc :: around)
      (analyzeBranches branches env).value.2 otherwise
    rw [← hbranches, ← hotherwise]
    rfl
  | .whileLoop condition body loc => by
    rw [sites, places, List.map_cons, List.map_cons]
    exact congrArg _ (places_sitesAll (whileLoop condition body loc :: around) _ body)
  | .repeatUntil body condition loc => by
    rw [sites, places, List.map_cons, List.map_cons]
    exact congrArg _ (places_sitesAll (repeatUntil body condition loc :: around) _ body)
  | .foreach name first last body loc => by
    rw [sites, places, List.map_cons, List.map_cons]
    exact congrArg _ (places_sitesAll (foreach name first last body loc :: around) _ body)
  | .qubits _ _ => rfl
  | .declare _ _ _ _ => rfl
  | .map _ _ _ => rfl
  | .instruction _ => rfl
  | .bundle _ _ => rfl
  | .assign _ _ _ => rfl
  | .loopControl _ _ => rfl

theorem places_sitesAll (around : List Stmt) (env : Env) : (ss : List Stmt) →
    (sitesAll (around.any isLoop) env ss).map (fun site => (site.stmt, site.inLoop))
      = (placesAll around ss).map fun place => (place.stmt, place.inLoop)
  | [] => rfl
  | s :: ss => by
    rw [sitesAll, placesAll, List.map_append, List.map_append, places_sites around env s,
      places_sitesAll around _ ss]

theorem places_sitesBranches (around : List Stmt) (env : Env) :
    (branches : List (Expr × List Stmt)) →
    (sitesBranches (around.any isLoop) env branches).map (fun site => (site.stmt, site.inLoop))
      = (placesBranches around branches).map fun place => (place.stmt, place.inLoop)
  | [] => rfl
  | (cond, body) :: branches => by
    rw [sitesBranches, placesBranches, List.map_append, List.map_append,
      places_sitesAll around _ body, places_sitesBranches around _ branches]

theorem places_sitesOtherwise (around : List Stmt) (env : Env) :
    (otherwise : Option (List Stmt)) →
    (sitesOtherwise (around.any isLoop) env otherwise).map (fun site => (site.stmt, site.inLoop))
      = (placesOtherwise around otherwise).map fun place => (place.stmt, place.inLoop)
  | none => rfl
  | some body => by rw [sitesOtherwise, placesOtherwise, places_sitesAll around _ body]

end

end Stmt

namespace Program

theorem places_eq (dialect : Dialect) (program : Program) :
    (program.sites dialect).map (fun site => (site.stmt, site.inLoop))
      = program.places.map fun place => (place.stmt, place.inLoop) :=
  Stmt.places_sitesAll [] (Env.new dialect) program.stmts

/-- Every statement of the program, at any depth, has one place. -/
theorem stmts_places (program : Program) : program.places.map Place.stmt = program.nodes := by
  -- the sites come along the places, under any dialect
  have hplaces := congrArg (List.map Prod.fst) (program.places_eq .v3)
  rw [List.map_map, List.map_map] at hplaces
  rw [← stmts_eq .v3]
  exact hplaces.symm

theorem misplaced_eq (dialect : Dialect) (program : Program) :
    program.misplaced
      = (program.sites dialect).filterMap fun site => site.stmt.misplaced? site.inLoop := by
  have hplaces := congrArg (List.filterMap fun at' => Stmt.misplaced? at'.2 at'.1)
    (program.places_eq dialect)
  rw [List.filterMap_map, List.filterMap_map] at hplaces
  exact hplaces.symm

end Program

end Tree

/-! ## Diagnostics -/

/-- Is it a loop control outside of a loop? -/
def Cause.isLoopControl : Cause → Bool
  | loopControlOutsideLoop _ => true
  | _ => false

theorem Cause.executed_isLoopControl : Executed isLoopControl where
  incompatibleTypes _ _ := rfl
  expectedConstInteger := rfl
  invalidRegisterSize _ := rfl
  invalidIterationCount _ := rfl
  notAssignable _ := rfl
  inExpr {_ cause} h := by
    cases cause with
    | loopControlOutsideLoop keyword => exact h.elim
    | _ => rfl
  duplicateDeclaration _ := rfl

namespace Site

open Tree.Stmt

/-- The report of a loop control that stands in no loop. -/
def misplacement (dialect : Dialect) (misplaced : Tree.LoopControl × Location) : Diagnostic :=
  ⟨.loopControlOutsideLoop misplaced.1.keyword, misplaced.2, some dialect⟩

theorem select_choices (site : Site) : select Cause.isLoopControl site.choices = [] := by
  rw [choices, select_flatMap, List.flatMap_eq_nil_iff]
  intro i _
  exact select_of_causes (SymbolTable.causes_resolveInstruction rfl (fun _ _ => rfl)
    (fun _ _ _ _ => rfl) fun _ => rfl)

/-- A loop control is reported if it stands in no loop, and nothing else is. -/
theorem executed_isLoopControl {site : Site} (hready : site.env.Ready site.inLoop) :
    site.executed Cause.isLoopControl
      = ((site.stmt.misplaced? site.inLoop).map (misplacement site.env.table.dialect)).toList := by
  rw [executed, select_choices, List.nil_append]
  obtain ⟨s, env, inLoop⟩ := site
  cases s with
  | loopControl control loc =>
    have hloop : env.table.inLoop = inLoop := hready.inLoop_eq
    cases inLoop with
    | true => simp [Site.control, checkLoopControl, misplaced?, hloop, select]
    | false =>
      simp [Site.control, checkLoopControl, misplaced?, hloop, select, misplacement, report,
        SymbolTable.report, Logged.report, Cause.isLoopControl]
  | _ => rfl

end Site

/-! ## Programs -/

namespace Tree.Program

variable {program : Program} {dialect : Dialect}

/-- The loop controls that are reported are those that stand in no loop, in program order, whatever
other blocks they stand in. -/
theorem misplaced_analyze (h : program.dialect? = some dialect) :
    program.places.map Place.stmt = program.nodes
      ∧ program.analyze.diagnostics.select Cause.isLoopControl
        = program.misplaced.map fun (control, loc) =>
          ⟨.loopControlOutsideLoop control.keyword, loc, some dialect⟩ := by
  refine ⟨program.stmts_places, ?_⟩
  have hsites : (program.sites dialect).flatMap (Site.executed Cause.isLoopControl)
      = (program.sites dialect).flatMap fun site =>
        ((site.stmt.misplaced? site.inLoop).map (Site.misplacement dialect)).toList := by
    refine List.flatMap_congr fun site hsite => ?_
    rw [Site.executed_isLoopControl (placed_of_mem_sites hsite).ready, dialect_of_mem_sites hsite]
  rw [select_analyze Cause.executed_isLoopControl h, hsites, ← List.filterMap_eq_flatMap_toList,
    misplaced_eq dialect, List.map_filterMap]
  rfl

/-- `version 3; while (true) { if (true) { .s { break } } } ; if (true) { .s { continue } }
else { foreach i = 0 .. 1 { continue } ; break }`, with one line for each loop control. -/
def fourControls : Program :=
  let loc : Location := ⟨1, 1⟩
  let yes : Expr := .literal (.bool true) loc
  let named (body : List Stmt) : Stmt := .subcircuit ⟨"s", loc⟩ none body loc
  { version := some ⟨[3], loc⟩
    stmts :=
      [.whileLoop yes [.ifElse [(yes, [named [.loopControl .breakLoop ⟨2, 1⟩]])] none loc] loc,
        .ifElse [(yes, [named [.loopControl .continueLoop ⟨3, 1⟩]])]
          (some
            [.foreach ⟨"i", loc⟩ (.int loc 0) (.int loc 1) [.loopControl .continueLoop ⟨4, 1⟩] loc,
              .loopControl .breakLoop ⟨5, 1⟩])
          loc] }

/-- The loop controls behind the loops are reported, those in the loops are not. -/
theorem misplaced_analyze_fourControls :
    fourControls.dialect? = some .v3
      ∧ fourControls.analyze.diagnostics.select Cause.isLoopControl
        = [⟨.loopControlOutsideLoop "continue", ⟨3, 1⟩, some .v3⟩,
          ⟨.loopControlOutsideLoop "break", ⟨5, 1⟩, some .v3⟩] := by
  have hdialect : fourControls.dialect? = some .v3 := rfl
  have hmisplaced : fourControls.misplaced
      = [(.continueLoop, ⟨3, 1⟩), (.breakLoop, ⟨5, 1⟩)] := by decide +kernel
  have hreported := (misplaced_analyze hdialect).2
  rw [hmisplaced] at hreported
  exact ⟨hdialect, hreported⟩

end Tree.Program

end Cqasm
