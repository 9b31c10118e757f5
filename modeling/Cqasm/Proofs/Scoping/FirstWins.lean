import Cqasm.Proofs.Scoping.Blocks
import Mathlib.Data.List.Perm.Basic

/-!
# The first declaration of a name in a block wins

A declaration fails if and only if there is an earlier one of the same name in the same block
(`Tree.Program.firstWins_blocks`). What the blocks around it or inside of it declare does not matter;
the variable of a loop over integers is the first one that the block of the loop declares.

* `Tree.Stmt.blocks`, `Typed.Stmt.blocks` : what is declared in each block of a statement, as written
  and after analysis;
* `FirstWins` : the declarations of a block that fail are those behind one of the same name;
* `Env.Rejects` : the declarations made in the current scope that fail are those of names it binds.
-/

namespace Cqasm

/-! ## Blocks -/

namespace Tree

namespace Stmt

mutual

/-- What is declared in each of the blocks of the statement, at any depth. -/
def blocks : Stmt → List (List Declaration)
  | subcircuit _ _ body _ => body.flatMap blockDeclarations :: blocksAll body
  | ifElse branches otherwise _ => blocksBranches branches ++ blocksOtherwise otherwise
  | whileLoop _ body _ => body.flatMap blockDeclarations :: blocksAll body
  | repeatUntil body _ _ => body.flatMap blockDeclarations :: blocksAll body
  | foreach name _ _ body _ =>
    (⟨name.name, .var, name.loc⟩ :: body.flatMap blockDeclarations) :: blocksAll body
  | _ => []

/-- What is declared in each of the blocks of several statements. -/
def blocksAll : List Stmt → List (List Declaration)
  | [] => []
  | s :: ss => blocks s ++ blocksAll ss

/-- What is declared in each of the blocks of the branches of a conditional. -/
def blocksBranches : List (Expr × List Stmt) → List (List Declaration)
  | [] => []
  | (_, body) :: branches =>
    (body.flatMap blockDeclarations :: blocksAll body) ++ blocksBranches branches

/-- What is declared in each of the blocks of a block that may be missing. -/
def blocksOtherwise : Option (List Stmt) → List (List Declaration)
  | none => []
  | some body => body.flatMap blockDeclarations :: blocksAll body

end

end Stmt

/-- What is declared in each of the blocks of a program, in the global one first. -/
def Program.blocks (program : Program) : List (List Declaration) :=
  program.stmts.flatMap Stmt.blockDeclarations :: Stmt.blocksAll program.stmts

end Tree

namespace Typed

namespace Stmt

mutual

/-- The symbols that are declared in each of the blocks of the statement, at any depth. -/
def blocks : Stmt → List (List SymbolRef)
  | subcircuit _ _ _ body => body.flatMap blockSymbols :: blocksAll body
  | ifElse _ branches otherwise => blocksBranches branches ++ blocksOtherwise otherwise
  | whileLoop _ _ body => body.flatMap blockSymbols :: blocksAll body
  | repeatUntil _ body _ => body.flatMap blockSymbols :: blocksAll body
  | foreach _ symbol _ _ body => (symbol :: body.flatMap blockSymbols) :: blocksAll body
  | _ => []

/-- The symbols that are declared in each of the blocks of several statements. -/
def blocksAll : List Stmt → List (List SymbolRef)
  | [] => []
  | s :: ss => blocks s ++ blocksAll ss

/-- The symbols that are declared in each of the blocks of the branches of a conditional. -/
def blocksBranches : List (Expr × List Stmt) → List (List SymbolRef)
  | [] => []
  | (_, body) :: branches =>
    (body.flatMap blockSymbols :: blocksAll body) ++ blocksBranches branches

/-- The symbols that are declared in each of the blocks of a block that may be missing. -/
def blocksOtherwise : Option (List Stmt) → List (List SymbolRef)
  | none => []
  | some body => body.flatMap blockSymbols :: blocksAll body

end

end Stmt

/-- The symbols that are declared in each of the blocks of a program, in the global one first. -/
def Program.blocks (program : Program) : List (List SymbolRef) :=
  program.stmts.flatMap Stmt.blockSymbols :: Stmt.blocksAll program.stmts

end Typed

/-! ## Every declaration is in a block -/

theorem perm_append_interchange {α : Type} (a b c d : List α) :
    ((a ++ b) ++ (c ++ d)).Perm ((a ++ c) ++ (b ++ d)) := by
  rw [List.append_assoc, List.append_assoc]
  exact (List.perm_append_comm_assoc b c d).append_left a

namespace Tree.Stmt

mutual

theorem perm_blocks : (s : Stmt) →
    (s.blockDeclarations ++ s.blocks.flatten).Perm (s.nodes.flatMap declarations)
  | subcircuit name iterations body loc => by
    rw [nodes, blocks, List.flatMap_cons]
    exact perm_blocksAll body
  | ifElse branches otherwise loc => by
    rw [nodes, blocks, List.flatMap_cons, List.flatMap_append, List.flatten_append]
    exact (perm_blocksBranches branches).append (perm_blocksOtherwise otherwise)
  | whileLoop condition body loc => by
    rw [nodes, blocks, List.flatMap_cons]
    exact perm_blocksAll body
  | repeatUntil body condition loc => by
    rw [nodes, blocks, List.flatMap_cons]
    exact perm_blocksAll body
  | foreach name first last body loc => by
    rw [nodes, blocks, List.flatMap_cons]
    exact (perm_blocksAll body).append_left [⟨name.name, .var, name.loc⟩]
  | qubits .. | declare .. | map .. | instruction .. | bundle .. | assign .. | loopControl .. =>
    .refl _

theorem perm_blocksAll : (ss : List Stmt) →
    (ss.flatMap blockDeclarations ++ (blocksAll ss).flatten).Perm ((nodesAll ss).flatMap declarations)
  | [] => .nil
  | s :: ss => by
    rw [nodesAll, blocksAll, List.flatMap_cons, List.flatMap_append, List.flatten_append]
    exact (perm_append_interchange _ _ _ _).trans ((perm_blocks s).append (perm_blocksAll ss))

theorem perm_blocksBranches : (branches : List (Expr × List Stmt)) →
    (blocksBranches branches).flatten.Perm ((nodesBranches branches).flatMap declarations)
  | [] => .nil
  | (_, body) :: branches => by
    rw [nodesBranches, blocksBranches, List.flatten_append, List.flatMap_append]
    exact (perm_blocksAll body).append (perm_blocksBranches branches)

theorem perm_blocksOtherwise : (otherwise : Option (List Stmt)) →
    (blocksOtherwise otherwise).flatten.Perm ((nodesOtherwise otherwise).flatMap declarations)
  | none => .nil
  | some body => perm_blocksAll body

end

end Tree.Stmt

namespace Typed.Stmt

mutual

theorem perm_blocks : (s : Stmt) →
    (s.blockSymbols ++ s.blocks.flatten).Perm (s.nodes.flatMap ownSymbols)
  | subcircuit mark name iterations body => by
    rw [nodes, blocks, List.flatMap_cons]
    exact perm_blocksAll body
  | ifElse mark branches otherwise => by
    rw [nodes, blocks, List.flatMap_cons, List.flatMap_append, List.flatten_append]
    exact (perm_blocksBranches branches).append (perm_blocksOtherwise otherwise)
  | whileLoop mark condition body => by
    rw [nodes, blocks, List.flatMap_cons]
    exact perm_blocksAll body
  | repeatUntil mark body condition => by
    rw [nodes, blocks, List.flatMap_cons]
    exact perm_blocksAll body
  | foreach mark symbol first last body => by
    rw [nodes, blocks, List.flatMap_cons]
    exact (perm_blocksAll body).append_left [symbol]
  | qubits .. | declare .. | map .. | instruction .. | bundle .. | assign .. | loopControl .. =>
    .refl _

theorem perm_blocksAll : (ss : List Stmt) →
    (ss.flatMap blockSymbols ++ (blocksAll ss).flatten).Perm ((nodesAll ss).flatMap ownSymbols)
  | [] => .nil
  | s :: ss => by
    rw [nodesAll, blocksAll, List.flatMap_cons, List.flatMap_append, List.flatten_append]
    exact (perm_append_interchange _ _ _ _).trans ((perm_blocks s).append (perm_blocksAll ss))

theorem perm_blocksBranches : (branches : List (Expr × List Stmt)) →
    (blocksBranches branches).flatten.Perm ((nodesBranches branches).flatMap ownSymbols)
  | [] => .nil
  | (_, body) :: branches => by
    rw [nodesBranches, blocksBranches, List.flatten_append, List.flatMap_append]
    exact (perm_blocksAll body).append (perm_blocksBranches branches)

theorem perm_blocksOtherwise : (otherwise : Option (List Stmt)) →
    (blocksOtherwise otherwise).flatten.Perm ((nodesOtherwise otherwise).flatMap ownSymbols)
  | none => .nil
  | some body => perm_blocksAll body

end

end Typed.Stmt

/-! ## What fails in a scope -/

theorem Scope.binds_bindAll (scope : Scope) (bindings : List (String × SymbolId)) (name : String) :
    (scope.bindAll bindings).binds name
      = (scope.binds name || (bindings.find? (·.1 = name)).isSome) := by
  rw [binds, find?_bindAll, Option.isSome_or, Option.isSome_map, binds]

namespace Env

variable {env env₁ env₂ : Env} {declared declared' : List (Declaration × SymbolRef)}

/-- The current scope binds the names it did bind and those that are declared, whether or not a
declaration fails. -/
theorem Gains.binds_iff (h : env₁.Gains declared env₂) (name : String) :
    env₂.table.current.binds name = true ↔ env₁.table.current.binds name = true
      ∨ ∃ entry ∈ declared, entry.1.name = name := by
  rw [h.current, Scope.binds_bindAll, Bool.or_eq_true]
  refine or_congr_right' fun hunbound => ?_
  have hnew : env₁.table.current.find? name = none := by
    rw [Scope.binds, Bool.not_eq_true, Option.isSome_eq_false_iff, Option.isNone_iff_eq_none]
      at hunbound
    exact hunbound
  cases hfirst : declared.find? (·.1.name = name) with
  | none =>
    rw [find?_bound_of_none hfirst]
    refine iff_of_false Bool.false_ne_true ?_
    rintro ⟨entry, hentry, hname⟩
    exact List.find?_eq_none.mp hfirst entry hentry (decide_eq_true hname)
  | some entry =>
    obtain ⟨declaration, ref⟩ := entry
    obtain ⟨id, rfl⟩ : ∃ id, ref = .ok id := h.first name _ hnew hfirst
    rw [find?_bound_of_some hfirst]
    refine iff_of_true rfl ⟨_, List.mem_of_find?_eq_some hfirst, ?_⟩
    simpa using List.find?_some hfirst

/-- Of the declarations that are made in the current scope one after the other, those fail whose name
the scope binds or an earlier one of them declares. -/
def Rejects (env : Env) (declared : List (Declaration × SymbolRef)) : Prop :=
  ∀ i entry, declared[i]? = some entry →
    (entry.2 = .error .alreadyBound ↔ env.table.current.binds entry.1.name = true
      ∨ ∃ earlier ∈ declared.take i, earlier.1.name = entry.1.name)

theorem Rejects.nil (env : Env) : env.Rejects [] := fun _ _ hentry => by cases hentry

theorem Rejects.append (h : env₁.Rejects declared) (hgains : env₁.Gains declared env₂)
    (h' : env₂.Rejects declared') : env₁.Rejects (declared ++ declared') := by
  intro i entry hentry
  rw [List.getElem?_append] at hentry
  rw [List.take_append]
  split at hentry
  · next hlt =>
    rw [Nat.sub_eq_zero_of_le (Nat.le_of_lt hlt), List.take_zero, List.append_nil]
    exact h i entry hentry
  · next hge =>
    rw [h' _ entry hentry, hgains.binds_iff, List.take_of_length_le (Nat.le_of_not_lt hge), or_assoc]
    simp only [List.mem_append, or_and_right, exists_or]

theorem rejects_declareSymbol (symbol : Symbol) (env : Env) :
    env.Rejects [(symbol.declaration, (Analysis.declareSymbol symbol env).value.1)] := by
  intro i entry hentry
  cases i with
  | succ i => cases hentry
  | zero =>
    cases hentry
    simp only [List.take_zero, List.not_mem_nil, false_and, exists_false, or_false]
    show _ ↔ env.table.current.binds symbol.name = true
    cases hbinds : env.table.current.binds symbol.name with
    | true =>
      rw [(Analysis.declareSymbol_of_binds hbinds).1]
      exact iff_of_true rfl rfl
    | false =>
      rw [(Analysis.declareSymbol_of_not_binds hbinds).1]
      exact iff_of_false (fun h => by cases h) Bool.false_ne_true

end Env

/-! ## Statements -/

namespace Tree.Stmt

open Analysis

variable {env : Env}

theorem rejects_analyze (h : env.table.Formed) (s : Stmt) : env.Rejects (s.declared env) := by
  unfold declared
  cases s with
  | qubits size loc =>
    rw [(analyze_qubits env size loc).1]
    exact (Env.rejects_declareSymbol ⟨"q", .qubitRegister, _, loc⟩ env).append
      (gains_declareSymbol h _) (Env.rejects_declareSymbol ⟨"b", .bitRegister, _, loc⟩ _)
  | declare name type init loc =>
    rw [(analyze_declare env name type init loc).1]
    show env.Rejects [(⟨name.name, type.symbolKind, name.loc⟩, _)]
    rw [← symbolKind_analyzeType type env]
    exact Env.rejects_declareSymbol ⟨name.name, _, _, name.loc⟩ env
  | map target name loc =>
    rw [(analyze_map env target name loc).1]
    exact Env.rejects_declareSymbol ⟨name.name, .mapping, _, name.loc⟩ env
  | _ => exact Env.Rejects.nil env

theorem rejects_analyzeAll (h : env.table.Formed) (ss : List Stmt) :
    env.Rejects ((ss.flatMap blockDeclarations).zip
      ((analyzeAll ss env).value.1.flatMap Typed.Stmt.blockSymbols)) := by
  induction ss generalizing env with
  | nil => exact .nil env
  | cons s ss ih =>
    have hrest := ih (stable_formed.analyze s env h)
    rw [(analyzeAll_cons env s ss).1, List.flatMap_cons, List.flatMap_cons,
      List.zip_append (length_blockSymbols s env).symm]
    exact (rejects_analyze h s).append (gains_analyze h s) hrest

theorem length_analyzeAll (env : Env) (ss : List Stmt) :
    ((analyzeAll ss env).value.1.flatMap Typed.Stmt.blockSymbols).length
      = (ss.flatMap blockDeclarations).length := by
  induction ss generalizing env with
  | nil => rfl
  | cons s ss ih =>
    rw [(analyzeAll_cons env s ss).1, List.flatMap_cons, List.flatMap_cons, List.length_append,
      List.length_append, ih, length_blockSymbols]

end Tree.Stmt

/-! ## Blocks of programs -/

/-- A declaration of the block fails if and only if there is an earlier one of the same name. -/
structure FirstWins (declarations : List Declaration) (symbols : List SymbolRef) : Prop where
  length_eq : symbols.length = declarations.length
  fails_iff : ∀ i declaration, declarations[i]? = some declaration →
    (symbols[i]? = some (.error .alreadyBound)
      ↔ ∃ earlier ∈ declarations.take i, earlier.name = declaration.name)

/-- Declarations that are made in a scope without bindings. -/
theorem firstWins_of_rejects {env : Env} {declarations : List Declaration}
    {symbols : List SymbolRef} (hlength : symbols.length = declarations.length)
    (hempty : ∀ name, env.table.current.binds name = false)
    (h : env.Rejects (declarations.zip symbols)) : FirstWins declarations symbols where
  length_eq := hlength
  fails_iff := by
    intro i declaration hdeclaration
    have hlt : i < symbols.length := by
      rw [hlength]
      exact (List.getElem?_eq_some_iff.mp hdeclaration).1
    have hsymbol : symbols[i]? = some symbols[i] := List.getElem?_eq_getElem hlt
    have hentry : (declarations.zip symbols)[i]? = some (declaration, symbols[i]) :=
      List.getElem?_zip_eq_some.mpr ⟨hdeclaration, hsymbol⟩
    have hfst : ((declarations.zip symbols).take i).map Prod.fst = declarations.take i := by
      rw [List.map_take, List.map_fst_zip (Nat.le_of_eq hlength.symm)]
    have hearlier : (∃ earlier ∈ (declarations.zip symbols).take i,
        earlier.1.name = declaration.name)
        ↔ ∃ earlier ∈ declarations.take i, earlier.name = declaration.name := by
      rw [← hfst]
      constructor
      · exact fun ⟨earlier, hmem, hname⟩ => ⟨earlier.1, List.mem_map_of_mem hmem, hname⟩
      · rintro ⟨written, hmem, hname⟩
        obtain ⟨earlier, hearlier, rfl⟩ := List.mem_map.mp hmem
        exact ⟨earlier, hearlier, hname⟩
    rw [hsymbol, Option.some_inj, h i _ hentry, hempty, hearlier]
    exact or_iff_right Bool.false_ne_true

namespace Tree.Stmt

open Analysis

variable {env : Env}

theorem firstWins_analyzeAll (h : env.table.Formed)
    (hempty : ∀ name, env.table.current.binds name = false) (ss : List Stmt) :
    FirstWins (ss.flatMap blockDeclarations)
      ((analyzeAll ss env).value.1.flatMap Typed.Stmt.blockSymbols) :=
  firstWins_of_rejects (length_analyzeAll env ss) hempty (rejects_analyzeAll h ss)

theorem binds_enter (h : env.table.Formed) (kind : BlockKind) (name : String) :
    (env.enter kind).table.current.binds name = false := by
  have hframes := SymbolTable.frames_enter h kind
  rw [SymbolTable.frames_eq] at hframes
  rw [Env.enter, (List.cons.inj hframes).1]
  rfl

/-- The body of a loop over integers declares the variable of the loop first. -/
theorem firstWins_foreach (h : env.table.Formed) (name : Ident) (body : List Stmt) :
    let symbol := declareSymbol ⟨name.name, .var, .int, name.loc⟩ (env.enter .loop)
    FirstWins (⟨name.name, .var, name.loc⟩ :: body.flatMap blockDeclarations)
      (symbol.value.1 :: (analyzeAll body symbol.value.2).value.1.flatMap Typed.Stmt.blockSymbols) := by
  intro symbol
  have hfits : (Symbol.mk name.name .var .int name.loc).Fits := rfl
  have hformed := stable_formed.declareSymbol hfits (env.enter .loop) (h.enter .loop)
  refine firstWins_of_rejects ?_ (binds_enter h .loop) ?_
  · rw [List.length_cons, List.length_cons, length_analyzeAll]
  · exact (Env.rejects_declareSymbol ⟨name.name, .var, .int, name.loc⟩ _).append
      (gains_declareSymbol (h.enter .loop) _) (rejects_analyzeAll hformed body)

mutual

theorem firstWins_blocks {env : Env} (h : env.table.Formed) : (s : Stmt) →
    List.Forall₂ FirstWins s.blocks (s.analyze env).value.1.blocks
  | .subcircuit name iterations body loc => by
    have hnamed : (nameSubcircuit name env).value.2.table.Formed := by
      rwa [table_nameSubcircuit]
    rw [(analyze_subcircuit env name iterations body loc).1, blocks, Typed.Stmt.blocks]
    exact .cons (firstWins_analyzeAll (hnamed.enter _) (binds_enter hnamed _) body)
      (firstWins_blocksAll (hnamed.enter _) body)
  | .ifElse branches otherwise loc => by
    have hbehind := stable_formed.analyzeBranches branches env h
    rw [(analyze_ifElse env branches otherwise loc).1, blocks, Typed.Stmt.blocks]
    exact List.rel_append (firstWins_blocksBranches h branches)
      (firstWins_blocksOtherwise hbehind otherwise)
  | .whileLoop cond body loc => by
    rw [(analyze_whileLoop env cond body loc).1, blocks, Typed.Stmt.blocks]
    exact .cons (firstWins_analyzeAll (h.enter _) (binds_enter h _) body)
      (firstWins_blocksAll (h.enter _) body)
  | .repeatUntil body cond loc => by
    rw [(analyze_repeatUntil env body cond loc).1, blocks, Typed.Stmt.blocks]
    exact .cons (firstWins_analyzeAll (h.enter _) (binds_enter h _) body)
      (firstWins_blocksAll (h.enter _) body)
  | .foreach name first last body loc => by
    have hfits : (Symbol.mk name.name .var .int name.loc).Fits := rfl
    have hformed := stable_formed.declareSymbol hfits (env.enter .loop) (h.enter .loop)
    rw [(analyze_foreach env name first last body loc).1, blocks, Typed.Stmt.blocks]
    exact .cons (firstWins_foreach h name body) (firstWins_blocksAll hformed body)
  | .qubits size loc => by
    rw [(analyze_qubits env size loc).1]
    exact .nil
  | .declare name type init loc => by
    rw [(analyze_declare env name type init loc).1]
    exact .nil
  | .map target name loc => by
    rw [(analyze_map env target name loc).1]
    exact .nil
  | .instruction i => by
    rw [(analyze_instruction env i).1]
    exact .nil
  | .bundle is loc => by
    rw [(analyze_bundle env is loc).1]
    exact .nil
  | .assign lhs rhs loc => by
    rw [(analyze_assign env lhs rhs loc).1]
    exact .nil
  | .loopControl control loc => by
    rw [(analyze_loopControl env control loc).1]
    exact .nil

theorem firstWins_blocksAll {env : Env} (h : env.table.Formed) : (ss : List Stmt) →
    List.Forall₂ FirstWins (blocksAll ss) (Typed.Stmt.blocksAll (analyzeAll ss env).value.1)
  | [] => .nil
  | s :: ss => by
    rw [(analyzeAll_cons env s ss).1, blocksAll, Typed.Stmt.blocksAll]
    exact List.rel_append (firstWins_blocks h s)
      (firstWins_blocksAll (stable_formed.analyze s env h) ss)

theorem firstWins_blocksBranches {env : Env} (h : env.table.Formed) :
    (branches : List (Expr × List Stmt)) →
    List.Forall₂ FirstWins (blocksBranches branches)
      (Typed.Stmt.blocksBranches (analyzeBranches branches env).value.1)
  | [] => .nil
  | (cond, body) :: branches => by
    have hbehind := stable_formed.inBlock .branch (stable_formed.analyzeAll body) env h
    rw [(analyzeBranches_cons env cond body branches).1, blocksBranches, Typed.Stmt.blocksBranches]
    exact List.rel_append (.cons (firstWins_analyzeAll (h.enter _) (binds_enter h _) body)
      (firstWins_blocksAll (h.enter _) body)) (firstWins_blocksBranches hbehind branches)

theorem firstWins_blocksOtherwise {env : Env} (h : env.table.Formed) :
    (otherwise : Option (List Stmt)) →
    List.Forall₂ FirstWins (blocksOtherwise otherwise)
      (Typed.Stmt.blocksOtherwise (analyzeOtherwise otherwise env).value.1)
  | none => .nil
  | some body => by
    rw [(analyzeOtherwise_some env body).1, blocksOtherwise, Typed.Stmt.blocksOtherwise]
    exact .cons (firstWins_analyzeAll (h.enter _) (binds_enter h _) body)
      (firstWins_blocksAll (h.enter _) body)

end

end Tree.Stmt

/-- In each block of a program the declarations that fail are those behind one of the same name. -/
theorem Tree.Program.firstWins_blocks {program : Program} {dialect : Dialect}
    (h : program.dialect? = some dialect) :
    List.Forall₂ FirstWins program.blocks program.analyze.program.blocks := by
  have hnew : (Env.new dialect).table.Formed := SymbolTable.formed_new dialect
  rw [analyze_eq h]
  exact .cons (Stmt.firstWins_analyzeAll hnew (fun _ => rfl) program.stmts)
    (Stmt.firstWins_blocksAll hnew program.stmts)

end Cqasm
