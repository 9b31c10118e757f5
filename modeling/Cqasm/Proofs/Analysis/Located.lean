import Cqasm.Proofs.Analysis.Expr
import Cqasm.Proofs.Analysis.Logs
import Cqasm.Proofs.Analysis.Own

/-!
# Where diagnostics stand

Every diagnostic carries the dialect of the program and the location of something that it is about.
What a check records stands where the checked expression or name does; what is recorded in an
expression stands somewhere in it; and what a statement records itself stands at the statement, at
one of its names, or in one of its expressions or instructions (`within_ownLog`).

* `Diagnostics.Within` : diagnostics under a dialect at given locations;
* `Tree.Expr.locs` : the locations of an expression, of those inside of it and of its names;
* `Tree.Stmt.ownLocs` : the locations of a statement, without the statements nested in it.
-/

namespace Cqasm

/-! ## Locations -/

namespace Tree.Expr

mutual

/-- The locations of the expression, of those inside of it and of the names in it. -/
def locs : Expr → List Location
  | literal _ loc => [loc]
  | name ident => [ident.loc]
  | index target entries loc => loc :: target.loc :: locsEntries entries
  | unary _ operand loc => loc :: locs operand
  | binary _ lhs rhs loc => loc :: (locs lhs ++ locs rhs)
  | call function args loc => loc :: function.loc :: locsAll args
  | array elements loc => loc :: locsAll elements

/-- The locations in several expressions. -/
def locsAll : List Expr → List Location
  | [] => []
  | e :: es => locs e ++ locsAll es

/-- The locations in an entry of an index. -/
def locsEntry : IndexEntry Expr → List Location
  | .item e => locs e
  | .range first last => locs first ++ locs last

/-- The locations in the entries of an index. -/
def locsEntries : List (IndexEntry Expr) → List Location
  | [] => []
  | entry :: entries => locsEntry entry ++ locsEntries entries

end

theorem locsAll_append (es es' : List Expr) : locsAll (es ++ es') = locsAll es ++ locsAll es' := by
  induction es with
  | nil => rfl
  | cons e es ih => rw [List.cons_append, locsAll, ih, locsAll, List.append_assoc]

theorem locsAll_some (e : Expr) : locsAll (some e).toList = e.locs := List.append_nil _

end Tree.Expr

namespace Tree

/-- The locations of the instruction, of its name and of its expressions. -/
def Instruction.locs (i : Instruction) : List Location :=
  i.loc :: i.name.loc :: Expr.locsAll i.exprs

/-- The locations of the statement itself, of its names, expressions and instructions. -/
def Stmt.ownLocs : Stmt → List Location
  | qubits size loc => loc :: size.locs
  | declare name type init loc =>
    loc :: name.loc :: (Expr.locsAll type.size?.toList ++ Expr.locsAll init.toList)
  | map target name loc => loc :: name.loc :: target.locs
  | instruction i => i.locs
  | bundle is loc => loc :: is.flatMap Instruction.locs
  | subcircuit name iterations _ loc => loc :: name.loc :: Expr.locsAll iterations.toList
  | assign lhs rhs loc => loc :: (lhs.locs ++ rhs.locs)
  | ifElse branches _ loc => loc :: Expr.locsAll (branches.map (·.1))
  | whileLoop condition _ loc => loc :: condition.locs
  | repeatUntil _ condition loc => loc :: condition.locs
  | foreach name first last _ loc => loc :: name.loc :: (first.locs ++ last.locs)
  | loopControl _ loc => [loc]

end Tree

/-! ## Diagnostics -/

/-- All of it has been found under the dialect, at one of the locations. -/
def Diagnostics.Within (dialect : Dialect) (locs : List Location) (log : Diagnostics) : Prop :=
  ∀ d ∈ log, d.dialect = some dialect ∧ d.loc ∈ locs

namespace Diagnostics.Within

variable {dialect : Dialect} {locs : List Location} {log log' : Diagnostics}

theorem nil : Within dialect locs [] := fun _ h => absurd h List.not_mem_nil

theorem append (h : log.Within dialect locs) (h' : log'.Within dialect locs) :
    Within dialect locs (log ++ log') := List.forall_mem_append.mpr ⟨h, h'⟩

end Diagnostics.Within

open Diagnostics (Within)

/-- The bounds of an entry of an index stand at the locations. -/
def IndexSpan.At (locs : List Location) (span : IndexSpan) : Prop :=
  ∀ bound ∈ [span.first, span.last], bound.loc ∈ locs

variable {locs : List Location}

/-! ## Checks -/

namespace SymbolTable

variable (table : SymbolTable)

theorem within_resolveName (name : String) {loc : Location} (h : loc ∈ locs) :
    (table.resolveName name loc).log.Within table.dialect locs := forall_resolveName ⟨rfl, h⟩

theorem within_resolveInstruction (name : String) (args : List Ty) {loc : Location}
    (h : loc ∈ locs) : (table.resolveInstruction name args loc).log.Within table.dialect locs :=
  forall_resolveInstruction ⟨rfl, h⟩ (fun _ _ => ⟨rfl, h⟩) (fun _ _ _ _ => ⟨rfl, h⟩)
    fun _ => ⟨rfl, h⟩

theorem within_checkConversion {e : Typed.Expr} (h : e.loc ∈ locs) (ty : Ty) :
    (table.checkConversion e ty).log.Within table.dialect locs := forall_checkConversion ⟨rfl, h⟩

theorem within_constInteger {e : Typed.Expr} (h : e.loc ∈ locs) :
    (table.constInteger e).log.Within table.dialect locs := forall_constInteger ⟨rfl, h⟩

theorem within_registerSize {e : Typed.Expr} (h : e.loc ∈ locs) :
    (table.registerSize e).log.Within table.dialect locs :=
  registerSize_eq_natural table e ▸ forall_natural ⟨rfl, h⟩ fun _ => ⟨rfl, h⟩

theorem within_iterationCount {e : Typed.Expr} (h : e.loc ∈ locs) :
    (table.iterationCount e).log.Within table.dialect locs :=
  iterationCount_eq_natural table e ▸ forall_natural ⟨rfl, h⟩ fun _ => ⟨rfl, h⟩

theorem within_indexType (name : String) {loc : Location} (hloc : loc ∈ locs) (ty : Ty)
    {entries : List (Option IndexSpan)} (h : ∀ span, some span ∈ entries → span.At locs) :
    (table.indexType name loc ty entries).log.Within table.dialect locs :=
  forall_indexType ⟨rfl, hloc⟩ fun span hspan bound hbound _ => ⟨rfl, h span hspan bound hbound⟩

end SymbolTable

/-! ## Expressions -/

namespace Tree

variable (table : SymbolTable)

theorem within_typedCall (name : String) (args : List Typed.Expr) {loc : Location}
    (h : loc ∈ locs) : (typedCall table name args loc).log.Within table.dialect locs :=
  forall_typedCall ⟨rfl, h⟩ (fun _ _ => ⟨rfl, h⟩) fun _ _ _ _ => ⟨rfl, h⟩

theorem within_typedAxis {elements : List Typed.Expr} (helements : ∀ e ∈ elements, e.loc ∈ locs)
    {loc : Location} (h : loc ∈ locs) :
    (typedAxis table elements loc).log.Within table.dialect locs :=
  forall_typedAxis (fun _ => ⟨rfl, h⟩) fun e he => ⟨rfl, helements e he⟩

namespace Expr

theorem loc_mem_locs (e : Expr) : e.loc ∈ e.locs := by
  cases e <;> exact List.mem_cons_self

theorem loc_analyze_mem {e : Expr} (h : e.locs ⊆ locs) : (e.analyze table).value.loc ∈ locs := by
  rw [loc_analyze]
  exact h e.loc_mem_locs

theorem subset_of_locsAll {es : List Expr} (h : locsAll es ⊆ locs) :
    ∀ e ∈ es, e.locs ⊆ locs := by
  induction es with
  | nil => exact fun _ hmem => absurd hmem List.not_mem_nil
  | cons e es ih =>
    rw [locsAll, List.append_subset] at h
    exact List.forall_mem_cons.mpr ⟨h.1, ih h.2⟩

theorem loc_analyzeAll_mem {es : List Expr} (h : locsAll es ⊆ locs) :
    ∀ e ∈ (analyzeAll table es).value, e.loc ∈ locs := by
  rw [analyzeAll_eq_map, List.forall_mem_map]
  exact fun e he => loc_analyze_mem table (subset_of_locsAll h e he)

theorem at_analyzeEntry {entry : IndexEntry Expr} (h : locsEntry entry ⊆ locs) {span : IndexSpan}
    (hspan : (analyzeEntry table entry).value = some span) : span.At locs := by
  cases entry with
  | item e =>
    rw [locsEntry] at h
    rw [(analyzeEntry_item table e).1] at hspan
    obtain ⟨n, -, rfl⟩ := Option.map_eq_some_iff.mp hspan
    have hloc := loc_analyze_mem table h
    exact List.forall_mem_cons.mpr ⟨hloc, List.forall_mem_singleton.mpr hloc⟩
  | range first last =>
    rw [locsEntry, List.append_subset] at h
    rw [(analyzeEntry_range table first last).1] at hspan
    obtain ⟨m, -, hspan⟩ := Option.bind_eq_some_iff.mp hspan
    obtain ⟨n, -, rfl⟩ := Option.map_eq_some_iff.mp hspan
    have hfirst := loc_analyze_mem table h.1
    have hlast := loc_analyze_mem table h.2
    exact List.forall_mem_cons.mpr ⟨hfirst, List.forall_mem_singleton.mpr hlast⟩

theorem at_analyzeEntries {entries : List (IndexEntry Expr)} (h : locsEntries entries ⊆ locs) :
    ∀ span, some span ∈ (analyzeEntries table entries).value → span.At locs := by
  induction entries with
  | nil =>
    intro span hspan
    rw [analyzeEntries] at hspan
    exact absurd hspan List.not_mem_nil
  | cons entry entries ih =>
    rw [locsEntries, List.append_subset] at h
    intro span hspan
    rw [(analyzeEntries_cons table entry entries).1] at hspan
    rcases List.mem_cons.mp hspan with hspan | hspan
    · exact at_analyzeEntry table h.1 hspan.symm
    · exact ih h.2 span hspan

mutual

/-- What is recorded in an expression stands somewhere in it. -/
theorem within_analyze : (e : Expr) → e.locs ⊆ locs →
    (e.analyze table).log.Within table.dialect locs
  | .literal value loc, _ => by
    rw [analyze]
    exact .nil
  | .name ident, h => by
    rw [(analyze_name table ident).2]
    exact table.within_resolveName _ (h List.mem_cons_self)
  | .index target entries loc, h => by
    rw [Expr.locs, List.cons_subset, List.cons_subset] at h
    obtain ⟨-, htarget, hentries⟩ := h
    rw [(analyze_index table target entries loc).2]
    exact ((table.within_resolveName _ htarget).append (within_analyzeEntries entries hentries)).append
      (table.within_indexType _ htarget _ (at_analyzeEntries table hentries))
  | .unary op operand loc, h => by
    rw [Expr.locs, List.cons_subset] at h
    rw [(analyze_unary table op operand loc).2]
    exact (within_analyze operand h.2).append (within_typedCall table _ _ h.1)
  | .binary op lhs rhs loc, h => by
    rw [Expr.locs, List.cons_subset, List.append_subset] at h
    obtain ⟨hloc, hlhs, hrhs⟩ := h
    rw [(analyze_binary table op lhs rhs loc).2]
    exact ((within_analyze lhs hlhs).append (within_analyze rhs hrhs)).append
      (within_typedCall table _ _ hloc)
  | .call function args loc, h => by
    rw [Expr.locs, List.cons_subset, List.cons_subset] at h
    obtain ⟨hloc, -, hargs⟩ := h
    rw [(analyze_call table function args loc).2]
    exact (within_analyzeAll args hargs).append (within_typedCall table _ _ hloc)
  | .array elements loc, h => by
    rw [Expr.locs, List.cons_subset] at h
    rw [(analyze_array table elements loc).2]
    exact (within_analyzeAll elements h.2).append
      (within_typedAxis table (loc_analyzeAll_mem table h.2) h.1)

theorem within_analyzeAll : (es : List Expr) → locsAll es ⊆ locs →
    (analyzeAll table es).log.Within table.dialect locs
  | [], _ => by
    rw [analyzeAll]
    exact .nil
  | e :: es, h => by
    rw [locsAll, List.append_subset] at h
    rw [(analyzeAll_cons table e es).2]
    exact (within_analyze e h.1).append (within_analyzeAll es h.2)

theorem within_analyzeEntry : (entry : IndexEntry Expr) → locsEntry entry ⊆ locs →
    (analyzeEntry table entry).log.Within table.dialect locs
  | .item e, h => by
    rw [locsEntry] at h
    rw [(analyzeEntry_item table e).2]
    exact (within_analyze e h).append (table.within_constInteger (loc_analyze_mem table h))
  | .range first last, h => by
    rw [locsEntry, List.append_subset] at h
    obtain ⟨hfirst, hlast⟩ := h
    rw [(analyzeEntry_range table first last).2]
    exact (((within_analyze first hfirst).append (within_analyze last hlast)).append
      (table.within_constInteger (loc_analyze_mem table hfirst))).append
      (table.within_constInteger (loc_analyze_mem table hlast))

theorem within_analyzeEntries : (entries : List (IndexEntry Expr)) → locsEntries entries ⊆ locs →
    (analyzeEntries table entries).log.Within table.dialect locs
  | [], _ => by
    rw [analyzeEntries]
    exact .nil
  | entry :: entries, h => by
    rw [locsEntries, List.append_subset] at h
    rw [(analyzeEntries_cons table entry entries).2]
    exact (within_analyzeEntry entry h.1).append (within_analyzeEntries entries h.2)

end

end Expr

end Tree

/-! ## Parts of statements -/

namespace Analysis

theorem within_declareSymbol {symbol : Symbol} (h : symbol.loc ∈ locs) (env : Env) :
    (declareSymbol symbol env).log.Within env.table.dialect locs := forall_declareSymbol ⟨rfl, h⟩

theorem within_declareSymbol_second (first : Symbol) {symbol : Symbol} (h : symbol.loc ∈ locs)
    (env : Env) :
    (declareSymbol symbol (declareSymbol first env).value.2).log.Within env.table.dialect locs := by
  rw [← dialect_declareSymbol first env]
  exact within_declareSymbol h _

theorem within_nameSubcircuit {ident : Tree.Ident} (h : ident.loc ∈ locs) (env : Env) :
    (nameSubcircuit ident env).log.Within env.table.dialect locs := forall_nameSubcircuit ⟨rfl, h⟩

theorem within_condition {e : Tree.Expr} (h : e.locs ⊆ locs) (env : Env) :
    (condition e env).log.Within env.table.dialect locs := by
  rw [log_condition]
  exact (Tree.Expr.within_analyze _ e h).append
    (SymbolTable.within_checkConversion _ (Tree.Expr.loc_analyze_mem _ h) _)

end Analysis

namespace Tree.Stmt

open Analysis Tree.Expr

variable (env : Env)

theorem within_analyzeBound {e : Expr} (h : e.locs ⊆ locs) :
    (analyzeBound e env).log.Within env.table.dialect locs := by
  rw [log_analyzeBound]
  exact (within_analyze _ e h).append
    (SymbolTable.within_checkConversion _ (loc_analyze_mem _ h) _)

theorem within_analyzeType {type : TypeSpec} (h : locsAll type.size?.toList ⊆ locs) :
    (analyzeType type env).log.Within env.table.dialect locs := by
  cases type with
  | scalar kind => exact .nil
  | register kind size =>
    cases size with
    | none => exact .nil
    | some size =>
      rw [TypeSpec.size?, locsAll_some] at h
      rw [(analyzeType_some env kind size).2]
      exact (within_analyze _ size h).append
        (SymbolTable.within_registerSize _ (loc_analyze_mem _ h))

theorem within_analyzeInit (ty : Ty) {init : Option Expr} (h : locsAll init.toList ⊆ locs) :
    (analyzeInit ty init env).log.Within env.table.dialect locs := by
  cases init with
  | none => exact .nil
  | some e =>
    rw [locsAll_some] at h
    rw [(analyzeInit_some env ty e).2]
    exact (within_analyze _ e h).append
      (SymbolTable.within_checkConversion _ (loc_analyze_mem _ h) _)

theorem within_analyzeIterations {count : Option Expr} (h : locsAll count.toList ⊆ locs) :
    (analyzeIterations count env).log.Within env.table.dialect locs := by
  cases count with
  | none => exact .nil
  | some e =>
    rw [locsAll_some] at h
    rw [(analyzeIterations_some env e).2]
    exact (within_analyze _ e h).append
      (SymbolTable.within_iterationCount _ (loc_analyze_mem _ h))

theorem within_analyzeCondition {cond : Option Expr} (h : locsAll cond.toList ⊆ locs) :
    (analyzeCondition cond env).log.Within env.table.dialect locs := by
  cases cond with
  | none => exact .nil
  | some e =>
    rw [locsAll_some] at h
    rw [(analyzeCondition_some env e).2]
    exact within_condition h env

theorem within_analyzeInstruction {i : Instruction} (h : i.locs ⊆ locs) :
    (analyzeInstruction i env).log.Within env.table.dialect locs := by
  rw [Instruction.locs, Instruction.exprs, locsAll_append, List.cons_subset, List.cons_subset,
    List.append_subset] at h
  obtain ⟨hloc, -, hoperands, hcond⟩ := h
  rw [(analyzeInstruction_eq env i).2]
  exact ((within_analyzeAll _ i.operands hoperands).append (within_analyzeCondition env hcond)).append
    (env.table.within_resolveInstruction _ _ hloc)

theorem within_analyzeInstructions {is : List Instruction}
    (h : is.flatMap Instruction.locs ⊆ locs) :
    (analyzeInstructions is env).log.Within env.table.dialect locs := by
  induction is with
  | nil => exact .nil
  | cons i is ih =>
    rw [List.flatMap_cons, List.append_subset] at h
    rw [(analyzeInstructions_cons env i is).2]
    exact (within_analyzeInstruction env h.1).append (ih h.2)

theorem within_checkAssign {lhs rhs : Typed.Expr} (hlhs : lhs.loc ∈ locs) (hrhs : rhs.loc ∈ locs) :
    (checkAssign lhs rhs env).log.Within env.table.dialect locs :=
  forall_checkAssign (fun _ => ⟨rfl, hrhs⟩) fun _ => ⟨rfl, hlhs⟩

theorem within_checkLoopControl (control : LoopControl) {loc : Location} (h : loc ∈ locs) :
    (checkLoopControl control loc env).log.Within env.table.dialect locs :=
  forall_checkLoopControl ⟨rfl, h⟩

theorem dialect_inBlock (kind : BlockKind) (body : List Stmt) :
    (inBlock kind (analyzeAll body) env).value.2.table.dialect = env.table.dialect :=
  (stable_grows.inBlock kind (stable_grows.analyzeAll body) env).dialect

theorem within_conditionsLog {branches : List (Expr × List Stmt)}
    (h : locsAll (branches.map (·.1)) ⊆ locs) :
    (conditionsLog env branches).Within env.table.dialect locs := by
  induction branches generalizing env with
  | nil => exact .nil
  | cons branch branches ih =>
    obtain ⟨cond, body⟩ := branch
    rw [List.map_cons, locsAll, List.append_subset] at h
    have hbehind := ih (inBlock .branch (analyzeAll body) env).value.2 h.2
    rw [dialect_inBlock] at hbehind
    exact (within_condition h.1 env).append hbehind

end Tree.Stmt

/-! ## Statements -/

namespace Site

open Analysis Tree.Stmt Tree.Expr

/-- What a statement records itself stands at the statement, at one of its names, or in one of its
expressions or instructions. -/
theorem within_ownLog {site : Site} (h : site.stmt.ownLocs ⊆ locs) :
    site.ownLog.Within site.env.table.dialect locs := by
  obtain ⟨s, env, inLoop⟩ := site
  unfold ownLog
  cases s with
  | qubits size loc =>
    obtain ⟨hloc, hsize⟩ := List.cons_subset.mp h
    show ((qubits size loc).analyze env).log.Within _ _
    rw [(analyze_qubits env size loc).2]
    exact (((within_analyze _ size hsize).append
      (SymbolTable.within_registerSize _ (loc_analyze_mem _ hsize))).append
      (within_declareSymbol hloc env)).append (within_declareSymbol_second _ hloc env)
  | declare name type init loc =>
    rw [ownLocs, List.cons_subset, List.cons_subset, List.append_subset] at h
    obtain ⟨-, hname, htype, hinit⟩ := h
    show ((declare name type init loc).analyze env).log.Within _ _
    rw [(analyze_declare env name type init loc).2]
    exact ((within_analyzeType env htype).append (within_analyzeInit env _ hinit)).append
      (within_declareSymbol hname env)
  | map target name loc =>
    rw [ownLocs, List.cons_subset, List.cons_subset] at h
    obtain ⟨-, hname, htarget⟩ := h
    show ((map target name loc).analyze env).log.Within _ _
    rw [(analyze_map env target name loc).2]
    exact (within_analyze _ target htarget).append (within_declareSymbol hname env)
  | instruction i =>
    show ((instruction i).analyze env).log.Within _ _
    rw [(analyze_instruction env i).2]
    exact within_analyzeInstruction env h
  | bundle is loc =>
    show ((bundle is loc).analyze env).log.Within _ _
    rw [(analyze_bundle env is loc).2]
    exact within_analyzeInstructions env (List.cons_subset.mp h).2
  | subcircuit name iterations body loc =>
    rw [ownLocs, List.cons_subset, List.cons_subset] at h
    obtain ⟨-, hname, hcount⟩ := h
    exact (within_nameSubcircuit hname env).append (within_analyzeIterations env hcount)
  | assign lhs rhs loc =>
    rw [ownLocs, List.cons_subset, List.append_subset] at h
    obtain ⟨-, hlhs, hrhs⟩ := h
    show ((assign lhs rhs loc).analyze env).log.Within _ _
    rw [(analyze_assign env lhs rhs loc).2]
    exact ((within_analyze _ lhs hlhs).append (within_analyze _ rhs hrhs)).append
      (within_checkAssign env (loc_analyze_mem _ hlhs) (loc_analyze_mem _ hrhs))
  | ifElse branches otherwise loc => exact within_conditionsLog env (List.cons_subset.mp h).2
  | whileLoop cond body loc => exact within_condition (List.cons_subset.mp h).2 env
  | repeatUntil body cond loc =>
    have hcond := within_condition (List.cons_subset.mp h).2
      (inBlock .loop (analyzeAll body) env).value.2
    rw [dialect_inBlock] at hcond
    exact hcond
  | foreach name first last body loc =>
    rw [ownLocs, List.cons_subset, List.cons_subset, List.append_subset] at h
    obtain ⟨-, hname, hfirst, hlast⟩ := h
    exact ((within_analyzeBound env hfirst).append (within_analyzeBound env hlast)).append
      (within_declareSymbol hname (env.enter .loop))
  | loopControl control loc =>
    show ((loopControl control loc).analyze env).log.Within _ _
    rw [(analyze_loopControl env control loc).2]
    exact within_checkLoopControl env control (List.cons_subset.mp h).1

end Site

/-- Every diagnostic of a program carries its dialect. -/
theorem Tree.Program.dialect_of_mem_diagnostics {program : Program} {dialect : Dialect}
    (h : program.dialect? = some dialect) :
    ∀ d ∈ program.analyze.diagnostics, d.dialect = some dialect := by
  intro d hd
  obtain ⟨site, hsite, hd⟩ := List.mem_flatMap.mp ((perm_diagnostics h).mem_iff.mp hd)
  rw [← dialect_of_mem_sites hsite]
  exact (Site.within_ownLog (List.Subset.refl _) d hd).1

end Cqasm
