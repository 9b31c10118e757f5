import Cqasm.Proofs.Typed.Occurrences
import Cqasm.Typed.Resolution
import Mathlib.Data.List.Perm.Basic

/-!
# The outcomes of resolution, statement by statement

The walk that lists the outcomes of resolution in a program comes along every statement of it, at any
depth, and lists what the statement itself declares, calls and holds as expressions
(`Typed.Program.perm_resolutions`). The number of iterations of a subcircuit is not among it.

* `Typed.Stmt.ownResolutions` : the outcomes in a statement itself.
-/

namespace Cqasm.Typed

namespace Expr

theorem resolutionsAll_eq (es : List Expr) : resolutionsAll es = es.flatMap resolutions := by
  induction es with
  | nil => rfl
  | cons e es ih => rw [resolutionsAll, ih, List.flatMap_cons]

theorem resolutionsOpt_eq (e : Option Expr) : resolutionsOpt e = e.toList.flatMap resolutions := by
  cases e with
  | none => rfl
  | some e => exact (List.append_nil _).symm

end Expr

/-- The outcome of the choice of an overload for the instruction. -/
def GateCall.outcome (call : GateCall) : Resolution := .call call.name call.overload

/-- The expressions of the instruction. -/
def GateCall.exprs (call : GateCall) : List Expr := call.operands ++ call.condition.toList

theorem GateCall.perm_resolutions (call : GateCall) :
    call.resolutions.Perm (call.outcome :: call.exprs.flatMap Expr.resolutions) := by
  rw [resolutions, exprs, List.flatMap_append, ← Expr.resolutionsAll_eq, ← Expr.resolutionsOpt_eq]
  exact List.perm_append_comm.cons _

namespace Stmt

/-- The outcomes in the statement itself. -/
def ownResolutions (s : Stmt) : List Resolution :=
  s.ownSymbols.map .symbol ++ s.ownCalls.map GateCall.outcome ++ s.ownExprs.flatMap Expr.resolutions

theorem perm_bundle (calls : List GateCall) :
    (calls.flatMap GateCall.resolutions).Perm
      (calls.map GateCall.outcome ++ (calls.flatMap GateCall.exprs).flatMap Expr.resolutions) := by
  rw [List.map_eq_flatMap, List.flatMap_assoc]
  refine (List.Perm.flatMap_left _ fun call _ => call.perm_resolutions).trans ?_
  exact (List.flatMap_append_perm calls (fun call => [call.outcome])
    fun call => call.exprs.flatMap Expr.resolutions).symm

/-- A statement without blocks is its only node. -/
theorem perm_of_nodes_eq {s : Stmt} (hnodes : s.nodes = [s])
    (h : s.resolutions.Perm s.ownResolutions) :
    s.resolutions.Perm (s.nodes.flatMap ownResolutions) := by
  rw [hnodes, List.flatMap_singleton]
  exact h

mutual

theorem perm_resolutions : (s : Stmt) → s.resolutions.Perm (s.nodes.flatMap ownResolutions)
  | qubits mark q b size => by
    refine perm_of_nodes_eq rfl (.of_eq ?_)
    simp [resolutions, ownResolutions, ownSymbols, ownCalls, ownExprs]
  | declare mark symbol size init => by
    refine perm_of_nodes_eq rfl (.of_eq ?_)
    rw [resolutions, Expr.resolutionsOpt_eq, Expr.resolutionsOpt_eq, ← List.flatMap_append]
    rfl
  | map mark symbol target => by
    refine perm_of_nodes_eq rfl (.of_eq ?_)
    simp [resolutions, ownResolutions, ownSymbols, ownCalls, ownExprs]
  | instruction mark call => perm_of_nodes_eq rfl call.perm_resolutions
  | bundle mark calls => perm_of_nodes_eq rfl (perm_bundle calls)
  | subcircuit mark name iterations body => by
    rw [resolutions, nodes, List.flatMap_cons]
    exact perm_resolutionsAll body
  | assign mark lhs rhs => by
    refine perm_of_nodes_eq rfl (.of_eq ?_)
    simp [resolutions, ownResolutions, ownSymbols, ownCalls, ownExprs]
  | ifElse mark branches otherwise => by
    rw [resolutions, nodes, List.flatMap_cons, List.flatMap_append, ← List.append_assoc]
    exact (perm_resolutionsBranches branches).append (perm_resolutionsOtherwise otherwise)
  | whileLoop mark condition body => by
    rw [resolutions, nodes, List.flatMap_cons]
    refine ((perm_resolutionsAll body).append_left _).trans (.append_right _ (.of_eq ?_))
    simp [ownResolutions, ownSymbols, ownCalls, ownExprs]
  | repeatUntil mark body condition => by
    rw [resolutions, nodes, List.flatMap_cons]
    refine List.perm_append_comm.trans ?_
    refine ((perm_resolutionsAll body).append_left _).trans (.append_right _ (.of_eq ?_))
    simp [ownResolutions, ownSymbols, ownCalls, ownExprs]
  | foreach mark symbol first last body => by
    rw [resolutions, nodes, List.flatMap_cons, ← List.cons_append]
    refine ((perm_resolutionsAll body).append_left _).trans (.append_right _ (.of_eq ?_))
    simp [ownResolutions, ownSymbols, ownCalls, ownExprs]
  | loopControl mark control => .nil

theorem perm_resolutionsAll : (ss : List Stmt) →
    (resolutionsAll ss).Perm ((nodesAll ss).flatMap ownResolutions)
  | [] => .nil
  | s :: ss => by
    rw [resolutionsAll, nodesAll, List.flatMap_append]
    exact (perm_resolutions s).append (perm_resolutionsAll ss)

theorem perm_resolutionsBranches : (branches : List (Expr × List Stmt)) →
    (resolutionsBranches branches).Perm
      ((branches.map (·.1)).flatMap Expr.resolutions
        ++ (nodesBranches branches).flatMap ownResolutions)
  | [] => .nil
  | (condition, body) :: branches => by
    rw [resolutionsBranches, nodesBranches, List.map_cons, List.flatMap_cons, List.flatMap_append,
      List.append_assoc, List.append_assoc]
    refine List.Perm.append_left _ ?_
    -- the block comes before the conditions of the branches behind it
    have hbody := (perm_resolutionsAll body).append (perm_resolutionsBranches branches)
    exact hbody.trans (List.perm_append_comm_assoc _ _ _)

theorem perm_resolutionsOtherwise : (otherwise : Option (List Stmt)) →
    (resolutionsOtherwise otherwise).Perm ((nodesOtherwise otherwise).flatMap ownResolutions)
  | none => .nil
  | some body => perm_resolutionsAll body

end

end Stmt

/-- The outcomes of a program are those of its statements, at any depth. -/
theorem Program.perm_resolutions (program : Program) :
    program.resolutions.Perm (program.nodes.flatMap Stmt.ownResolutions) :=
  Stmt.perm_resolutionsAll program.stmts

end Cqasm.Typed
