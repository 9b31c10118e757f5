import Cqasm.Proofs.Analysis.Incremental

/-!
# Gaps in programs

A gap is a place in one of the blocks of a program, at any depth, where statements may stand. What
stands around a gap is analysed in the same way whatever is filled in, as long as the statements in
the gap leave the same environment and agree in whether there is an error among them (`Gap.frames`).
The diagnostics of the statements in the gap are one run in the middle of all others.

* `Tree.Shell`, `Typed.Shell` : a statement without one of its blocks;
* `Tree.Gap`, `Typed.Gap` : a block with a gap in it or in a block nested in it;
* `Tree.Frames` : a step of which only the middle depends on the statements in a gap.
-/

namespace Cqasm

/-! ## As written -/

namespace Tree

/-- A statement without one of its blocks. -/
inductive Shell where
  | subcircuit (name : Ident) (iterations : Option Expr) (loc : Location)
  /-- A conditional without the block of one of its branches. -/
  | branch (before : List (Expr × List Stmt)) (condition : Expr) (after : List (Expr × List Stmt))
    (otherwise : Option (List Stmt)) (loc : Location)
  /-- A conditional without the block that is executed if no condition holds. -/
  | elseBlock (branches : List (Expr × List Stmt)) (loc : Location)
  | whileLoop (condition : Expr) (loc : Location)
  | repeatUntil (condition : Expr) (loc : Location)
  | foreach (name : Ident) (first last : Expr) (loc : Location)

/-- The statement with the given block. -/
def Shell.fill (body : List Stmt) : Shell → Stmt
  | subcircuit name iterations loc => .subcircuit name iterations body loc
  | branch before condition after otherwise loc =>
    .ifElse (before ++ (condition, body) :: after) otherwise loc
  | elseBlock branches loc => .ifElse branches (some body) loc
  | whileLoop condition loc => .whileLoop condition body loc
  | repeatUntil condition loc => .repeatUntil body condition loc
  | foreach name first last loc => .foreach name first last body loc

/-- The location of the whole statement. -/
def Shell.loc : Shell → Location
  | subcircuit _ _ loc => loc
  | branch _ _ _ _ loc => loc
  | elseBlock _ loc => loc
  | whileLoop _ loc => loc
  | repeatUntil _ loc => loc
  | foreach _ _ _ loc => loc

theorem Shell.loc_fill (body : List Stmt) (shell : Shell) : (shell.fill body).loc = shell.loc := by
  cases shell <;> rfl

/-- A block with a gap. -/
inductive Gap where
  /-- The gap is between statements of the block. -/
  | here (before after : List Stmt)
  /-- The gap is in a block of one of the statements. -/
  | inside (before : List Stmt) (shell : Shell) (gap : Gap) (after : List Stmt)

/-- The block with the given statements in the gap. -/
def Gap.fill (ss : List Stmt) : Gap → List Stmt
  | here before after => before ++ (ss ++ after)
  | inside before shell gap after => before ++ shell.fill (gap.fill ss) :: after

end Tree

/-! ## After analysis -/

namespace Typed

/-- A typed statement without one of its blocks. -/
inductive Shell where
  | subcircuit (mark : Mark) (name : String) (iterations : Option Nat)
  | branch (mark : Mark) (before : List (Expr × List Stmt)) (condition : Expr)
    (after : List (Expr × List Stmt)) (otherwise : Option (List Stmt))
  | elseBlock (mark : Mark) (branches : List (Expr × List Stmt))
  | whileLoop (mark : Mark) (condition : Expr)
  | repeatUntil (mark : Mark) (condition : Expr)
  | foreach (mark : Mark) (symbol : SymbolRef) (first last : Expr)

/-- The statement with the given block. -/
def Shell.fill (body : List Stmt) : Shell → Stmt
  | subcircuit mark name iterations => .subcircuit mark name iterations body
  | branch mark before condition after otherwise =>
    .ifElse mark (before ++ (condition, body) :: after) otherwise
  | elseBlock mark branches => .ifElse mark branches (some body)
  | whileLoop mark condition => .whileLoop mark condition body
  | repeatUntil mark condition => .repeatUntil mark body condition
  | foreach mark symbol first last => .foreach mark symbol first last body

/-- A block of typed statements with a gap. -/
inductive Gap where
  | here (before after : List Stmt)
  | inside (before : List Stmt) (shell : Shell) (gap : Gap) (after : List Stmt)

/-- The block with the given statements in the gap. -/
def Gap.fill (ss : List Stmt) : Gap → List Stmt
  | here before after => before ++ (ss ++ after)
  | inside before shell gap after => before ++ shell.fill (gap.fill ss) :: after

end Typed

namespace Tree

open Analysis Stmt

/-! ## Around a gap -/

/-- The environment in which the block of a statement is analysed, the statement itself in `env`. -/
def Shell.start (env : Env) : Shell → Env
  | subcircuit name _ _ => (nameSubcircuit name env).value.2.enter .subcircuit
  | branch before _ _ _ _ => (analyzeBranches before env).value.2.enter .branch
  | elseBlock branches _ => (analyzeBranches branches env).value.2.enter .branch
  | whileLoop _ _ => env.enter .loop
  | repeatUntil _ _ => env.enter .loop
  | foreach name _ _ _ =>
    (declareSymbol ⟨name.name, .var, .int, name.loc⟩ (env.enter .loop)).value.2

/-- The environment in which the statements in a gap are analysed, the whole block in `env`. -/
def Gap.start (env : Env) : Gap → Env
  | here before _ => (analyzeAll before env).value.2
  | inside before shell gap _ => gap.start (shell.start (analyzeAll before env).value.2)

/-- A step on statements that are analysed in `start`. For all that leave `behind` and agree in
whether there is an error among them, what stands around them is the same. -/
def Frames {τ α : Type} (fill : List Typed.Stmt → τ → α) (start : Env)
    (step : List Stmt → Logged (α × Env)) : Prop :=
  ∀ (behind : Env) (errors : Bool), ∃ (around : τ) (front back : Diagnostics) (last : Env),
    ∀ ss, (analyzeAll ss start).value.2 = behind → (analyzeAll ss start).log.anyErrors = errors →
      (step ss).value = (fill (analyzeAll ss start).value.1 around, last)
        ∧ (step ss).log = front ++ (analyzeAll ss start).log ++ back

theorem analyzeBranches_append (env : Env) (branches more : List (Expr × List Stmt)) :
    let first := analyzeBranches branches env
    let rest := analyzeBranches more first.value.2
    (analyzeBranches (branches ++ more) env).value = (first.value.1 ++ rest.value.1, rest.value.2)
      ∧ (analyzeBranches (branches ++ more) env).log = first.log ++ rest.log := by
  intro first rest
  induction branches generalizing env with
  | nil => exact ⟨rfl, rfl⟩
  | cons branch branches ih =>
    obtain ⟨cond, body⟩ := branch
    obtain ⟨hvalue, hlog⟩ := ih (env.leave (analyzeAll body (env.enter .branch)).value.2)
    rw [List.cons_append, (analyzeBranches_cons env cond body (branches ++ more)).1,
      (analyzeBranches_cons env cond body (branches ++ more)).2, hvalue, hlog]
    simp [first, rest, (analyzeBranches_cons env cond body branches).1,
      (analyzeBranches_cons env cond body branches).2, List.append_assoc]

/-- Each kind of statement opens its block in an environment that does not depend on the block, and
goes on from the one that the block leaves. -/
theorem Shell.analyze_fill (shell : Shell) (env behind : Env) :
    ∃ (around : Typed.Mark → Typed.Shell) (front back : Diagnostics) (last : Env),
      ∀ body, (analyzeAll body (shell.start env)).value.2 = behind →
        ((shell.fill body).analyze env).value = ((around ((shell.fill body).markAt env)).fill
            (analyzeAll body (shell.start env)).value.1, last)
          ∧ ((shell.fill body).analyze env).log
            = front ++ (analyzeAll body (shell.start env)).log ++ back := by
  cases shell with
  | subcircuit name iterations loc =>
    let named := (nameSubcircuit name env).value.2
    let count := analyzeIterations iterations named
    refine ⟨(.subcircuit · name.name count.value.1), (nameSubcircuit name env).log ++ count.log, [],
      named.leave behind, fun body hbehind => ?_⟩
    obtain ⟨hvalue, hlog⟩ := analyze_subcircuit env name iterations body loc
    exact ⟨hbehind ▸ hvalue, hlog.trans (List.append_nil _).symm⟩
  | branch before condition after otherwise loc =>
    let first := analyzeBranches before env
    let cond := Analysis.condition condition first.value.2
    let rest := analyzeBranches after (first.value.2.leave behind)
    let last := analyzeOtherwise otherwise rest.value.2
    refine ⟨(.branch · first.value.1 cond.value.1 rest.value.1 last.value.1), first.log ++ cond.log,
      rest.log ++ last.log, last.value.2, fun body hbehind => ?_⟩
    obtain ⟨hvalue, hlog⟩ := analyze_ifElse env (before ++ (condition, body) :: after) otherwise loc
    obtain ⟨hbranches, hbranches'⟩ :=
      analyzeBranches_append env before ((condition, body) :: after)
    obtain ⟨hcons, hcons'⟩ := analyzeBranches_cons first.value.2 condition body after
    rw [hbranches, hcons] at hvalue
    rw [hbranches', hcons', hbranches, hcons] at hlog
    subst hbehind
    refine ⟨hvalue, hlog.trans ?_⟩
    simp only [List.append_assoc]
    rfl
  | elseBlock branches loc =>
    let first := analyzeBranches branches env
    refine ⟨(.elseBlock · first.value.1), first.log, [], first.value.2.leave behind,
      fun body hbehind => ?_⟩
    obtain ⟨hvalue, hlog⟩ := analyze_ifElse env branches (some body) loc
    obtain ⟨hblock, hblock'⟩ := analyzeOtherwise_some first.value.2 body
    rw [hblock] at hvalue
    rw [hblock'] at hlog
    exact ⟨hbehind ▸ hvalue, hlog.trans (List.append_nil _).symm⟩
  | whileLoop condition loc =>
    refine ⟨(.whileLoop · (condition.analyze env.table).value), (Analysis.condition condition env).log,
      [], env.leave behind, fun body hbehind => ?_⟩
    obtain ⟨hvalue, hlog⟩ := analyze_whileLoop env condition body loc
    exact ⟨hbehind ▸ hvalue, hlog.trans (List.append_nil _).symm⟩
  | repeatUntil condition loc =>
    refine ⟨(.repeatUntil · (condition.analyze (env.leave behind).table).value), [],
      (Analysis.condition condition (env.leave behind)).log, env.leave behind,
      fun body hbehind => ?_⟩
    subst hbehind
    exact analyze_repeatUntil env body condition loc
  | foreach name first last loc =>
    let symbol := declareSymbol ⟨name.name, .var, .int, name.loc⟩ (env.enter .loop)
    let front := (analyzeBound first env).log ++ (analyzeBound last env).log ++ symbol.log
    refine ⟨(.foreach · symbol.value.1 (first.analyze env.table).value
      (last.analyze env.table).value), front, [], env.leave behind, fun body hbehind => ?_⟩
    obtain ⟨hvalue, hlog⟩ := analyze_foreach env name first last body loc
    exact ⟨hbehind ▸ hvalue, hlog.trans (List.append_nil _).symm⟩

theorem Shell.frames (shell : Shell) (env : Env) :
    Frames Typed.Shell.fill (shell.start env) fun body => (shell.fill body).analyze env := by
  intro behind errors
  obtain ⟨around, front, back, last, h⟩ := shell.analyze_fill env behind
  -- Of the block, the mark of the statement depends only on whether there is an error in it.
  let mark : Typed.Mark := ⟨shell.loc, !(front.anyErrors || errors || back.anyErrors)⟩
  refine ⟨around mark, front, back, last, fun body hbehind herrors => ?_⟩
  obtain ⟨hvalue, hlog⟩ := h body hbehind
  have hmark : (shell.fill body).markAt env = mark := by
    rw [markAt, hlog, Diagnostics.anyErrors_append, Diagnostics.anyErrors_append, herrors,
      Shell.loc_fill]
  exact ⟨hmark ▸ hvalue, hlog⟩

/-- What stands around a gap depends on the statements in the gap only through the environment that
they leave and through whether there is an error among them. -/
theorem Gap.frames (gap : Gap) (env : Env) :
    Frames Typed.Gap.fill (gap.start env) fun ss => analyzeAll (gap.fill ss) env := by
  induction gap generalizing env with
  | here before after =>
    intro behind errors
    let first := analyzeAll before env
    let rest := analyzeAll after behind
    refine ⟨.here first.value.1 rest.value.1, first.log, rest.log, rest.value.2,
      fun ss hbehind herrors => ?_⟩
    subst hbehind
    obtain ⟨hvalue, hlog⟩ := analyzeAll_append env before (ss ++ after)
    obtain ⟨hvalue', hlog'⟩ := analyzeAll_append first.value.2 ss after
    rw [hvalue'] at hvalue
    rw [hlog'] at hlog
    exact ⟨hvalue, hlog.trans (List.append_assoc ..).symm⟩
  | inside before shell gap after ih =>
    intro behind errors
    let first := analyzeAll before env
    obtain ⟨around, front, back, behind', h⟩ := ih (shell.start first.value.2) behind errors
    -- Seen from the shell, the block with the gap is one that leaves the environment `behind'`.
    obtain ⟨around', front', back', behind'', h'⟩ := shell.frames first.value.2 behind'
      (front.anyErrors || errors || back.anyErrors)
    let rest := analyzeAll after behind''
    refine ⟨.inside first.value.1 around' around rest.value.1, first.log ++ (front' ++ front),
      back ++ (back' ++ rest.log), rest.value.2, fun ss hbehind herrors => ?_⟩
    obtain ⟨hvalue, hlog⟩ := h ss hbehind herrors
    simp only at hvalue hlog h'
    have herrors' : (analyzeAll (gap.fill ss) (shell.start first.value.2)).log.anyErrors
        = (front.anyErrors || errors || back.anyErrors) := by
      rw [hlog, Diagnostics.anyErrors_append, Diagnostics.anyErrors_append, ← herrors]
      rfl
    obtain ⟨hvalue', hlog'⟩ := h' (gap.fill ss) (congrArg Prod.snd hvalue) herrors'
    obtain ⟨hall, hall'⟩ := analyzeAll_append env before (shell.fill (gap.fill ss) :: after)
    obtain ⟨hcons, hcons'⟩ := analyzeAll_cons first.value.2 (shell.fill (gap.fill ss)) after
    rw [hcons, hvalue', hvalue] at hall
    rw [hcons', hvalue', hlog', hlog] at hall'
    refine ⟨hall, hall'.trans ?_⟩
    simp only [List.append_assoc]
    rfl

end Tree

end Cqasm
