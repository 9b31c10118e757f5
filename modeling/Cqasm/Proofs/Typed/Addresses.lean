import Cqasm.Typed.Resolution
import Mathlib.Data.Set.Card

/-!
# Where the outcomes of resolution are stored

A typed program is a tree of components: blocks, statements, instructions, expressions, and in them the
references and overloads. Here it is taken as it is stored, whatever walks through it. The children of a
component are all that its fields hold (`Component.children`), and a component at any depth is found by
the numbers of the children on the way to it, its address (`Component.at?`).

The outcomes that the walk through a program lists are those at all addresses that have one, each
address once and in the order of the addresses (`Program.enumerated`). So the numbers of errors are
numbers of addresses, and a program is fully resolved if and only if no address has an error.

* `Component`, `Component.children`, `Component.at?` : the components of a program and where they are;
* `Component.outcomeAt?`, `Program.outcomeAt?` : the outcome that is stored at an address;
* `Enumeration` : a list of outcomes lists what is stored.
-/

namespace Cqasm.Typed

/-! ## Components -/

/-- The numbers of the children on the way to a component. -/
abbrev Address := List Nat

/-- Something that is stored in a program. -/
inductive Component where
  | block (body : List Stmt)
  | stmt (s : Stmt)
  /-- A branch of a conditional. -/
  | branch (condition : Expr) (body : List Stmt)
  | gate (call : GateCall)
  | expr (e : Expr)
  /-- What an instruction, function or operator is called by, and the overload chosen for it. -/
  | call (name : String) (overload : Option Overload)
  | symbol (ref : SymbolRef)

namespace Component

/-- What the fields of a statement hold. -/
def ofStmt : Stmt → List Component
  | .qubits _ q b size => [symbol q, symbol b, expr size]
  | .declare _ ref size init => symbol ref :: (size.toList.map expr ++ init.toList.map expr)
  | .map _ ref target => [symbol ref, expr target]
  | .instruction _ called => [gate called]
  | .bundle _ calls => calls.map gate
  | .subcircuit _ _ _ body => [block body]
  | .assign _ lhs rhs => [expr lhs, expr rhs]
  | .ifElse _ branches otherwise =>
    branches.map (fun each => branch each.1 each.2) ++ otherwise.toList.map block
  | .whileLoop _ condition body => [expr condition, block body]
  | .repeatUntil _ body condition => [block body, expr condition]
  | .foreach _ ref first last body => [symbol ref, expr first, expr last, block body]
  | .loopControl _ _ => []

/-- What the fields of an expression hold. -/
def ofExpr : Expr → List Component
  | .literal _ _ => []
  | .name _ ref => [symbol ref]
  | .index _ target _ => [symbol target]
  | .call _ function overload args => .call function overload :: args.map expr
  | .axis _ elements => elements.map expr

/-- What the fields of a component hold, in program order. -/
def children : Component → List Component
  | block body => body.map stmt
  | stmt s => ofStmt s
  | branch condition body => [expr condition, block body]
  | gate instruction =>
    call instruction.name instruction.overload
      :: (instruction.condition.toList.map expr ++ instruction.operands.map expr)
  | expr e => ofExpr e
  | call _ _ => []
  | symbol _ => []

/-- The outcome of resolution that the component is, if it is one. -/
def outcome? : Component → Option Resolution
  | expr e => some (.expr e)
  | call name overload => some (.call name overload)
  | symbol ref => some (.symbol ref)
  | block _ | stmt _ | branch _ _ | gate _ => none

/-- The component at an address in a component. -/
def at? (component : Component) : Address → Option Component
  | [] => some component
  | i :: address => component.children[i]?.bind (·.at? address)

/-- The outcome at an address in a component. -/
def outcomeAt? (component : Component) (address : Address) : Option Resolution :=
  (component.at? address).bind outcome?

/-- The outcome at an address that starts with the number of one of the components. -/
def outcomeIn? (components : List Component) : Address → Option Resolution
  | [] => none
  | i :: address => components[i]?.bind (·.outcomeAt? address)

theorem outcomeAt?_cons (component : Component) (i : Nat) (address : Address) :
    component.outcomeAt? (i :: address) = outcomeIn? component.children (i :: address) := by
  rw [outcomeAt?, at?, Option.bind_assoc]
  rfl

theorem exists_cons_of_outcomeIn? {components : List Component} {address : Address}
    (h : outcomeIn? components address ≠ none) :
    ∃ i rest, address = i :: rest ∧ i < components.length := by
  cases address with
  | nil => exact absurd rfl h
  | cons i rest =>
    refine ⟨i, rest, rfl, ?_⟩
    by_contra hle
    exact h (by rw [outcomeIn?, List.getElem?_eq_none (not_lt.mp hle), Option.bind_none])

/-- The address of a component if others come before it. -/
def shift (before : Nat) : Address → Address
  | [] => []
  | i :: address => (before + i) :: address

theorem outcomeIn?_append_left (components behind : List Component) {address : Address}
    (h : outcomeIn? components address ≠ none) :
    outcomeIn? (components ++ behind) address = outcomeIn? components address := by
  obtain ⟨i, rest, rfl, hlt⟩ := exists_cons_of_outcomeIn? h
  rw [outcomeIn?, outcomeIn?, List.getElem?_append_left hlt]

theorem outcomeIn?_append_shift (before components : List Component) (address : Address) :
    outcomeIn? (before ++ components) (shift before.length address)
      = outcomeIn? components address := by
  cases address with
  | nil => rfl
  | cons i rest =>
    rw [shift, outcomeIn?, outcomeIn?, List.getElem?_append_right (Nat.le_add_right _ _),
      Nat.add_sub_cancel_left]

theorem shift_lt_shift (before : Nat) {address other : Address} (h : address < other) :
    shift before address < shift before other := by
  cases other with
  | nil => exact absurd h (List.not_lt_nil _)
  | cons j rest =>
    cases address with
    | nil => exact List.nil_lt_cons _ _
    | cons i others =>
      rw [List.cons_lt_cons_iff] at h
      rw [shift, shift, List.cons_lt_cons_iff]
      exact h.imp (Nat.add_lt_add_left · before) fun ⟨heq, hlt⟩ => ⟨congrArg _ heq, hlt⟩

end Component

/-! ## Enumerations -/

/-- The outcomes are those at the addresses, which come in order and are all that have an outcome. -/
structure Enumeration (outcome? : Address → Option Resolution) (addresses : List Address)
    (rs : List Resolution) : Prop where
  ordered : addresses.Pairwise (· < ·)
  outcomes : addresses.map outcome? = rs.map some
  complete : ∀ address, outcome? address ≠ none → address ∈ addresses

namespace Enumeration

open Component

variable {outcome? : Address → Option Resolution} {addresses : List Address}
  {rs : List Resolution}

theorem ne_none (h : Enumeration outcome? addresses rs) {address : Address}
    (hmem : address ∈ addresses) : outcome? address ≠ none := by
  have hmap := List.mem_map_of_mem (f := outcome?) hmem
  rw [h.outcomes] at hmap
  obtain ⟨r, -, hr⟩ := List.mem_map.mp hmap
  rw [← hr]
  exact Option.some_ne_none r

/-- As many outcomes of a sort are listed as are stored. -/
theorem countP_eq (h : Enumeration outcome? addresses rs) (p : Resolution → Bool) :
    (rs.countP p : ℕ∞) = {address | ∃ r, outcome? address = some r ∧ p r = true}.encard := by
  have hset : {address | ∃ r, outcome? address = some r ∧ p r = true}
      = ((addresses.filter fun address => (outcome? address).any p).toFinset : Set Address) := by
    ext address
    simp only [Set.mem_ofPred_eq, List.coe_toFinset, List.mem_filter, Option.any_eq_true]
    exact ⟨fun ⟨r, hr, hp⟩ => ⟨h.complete address (hr ▸ Option.some_ne_none r), r, hr, hp⟩,
      fun ⟨_, hany⟩ => hany⟩
  -- no address is listed twice, so outcomes can be counted by their addresses
  have hnodup : addresses.Nodup := h.ordered.imp ne_of_lt
  have hcount : rs.countP p = addresses.countP fun address => (outcome? address).any p := by
    have hany : rs.countP p = (rs.map some).countP (·.any p) := by
      rw [List.countP_map]
      rfl
    rw [hany, ← h.outcomes, List.countP_map]
    rfl
  rw [hset, Set.encard_coe_eq_coe_finsetCard, List.toFinset_card_of_nodup (hnodup.filter _), hcount,
    List.countP_eq_length_filter]

/-! ### From the children to the component -/

theorem nil : Enumeration (outcomeIn? []) [] [] where
  ordered := .nil
  outcomes := rfl
  complete _ h := by
    obtain ⟨i, _, _, hlt⟩ := exists_cons_of_outcomeIn? h
    exact absurd hlt i.not_lt_zero

theorem singleton {component : Component} (h : Enumeration component.outcomeAt? addresses rs) :
    Enumeration (outcomeIn? [component]) (addresses.map (0 :: ·)) rs where
  ordered := List.pairwise_map.mpr
    (h.ordered.imp fun hlt => List.cons_lt_cons_iff.mpr (.inr ⟨rfl, hlt⟩))
  outcomes := by
    rw [List.map_map]
    exact h.outcomes
  complete address hne := by
    obtain ⟨i, rest, rfl, hlt⟩ := exists_cons_of_outcomeIn? hne
    obtain rfl := Nat.lt_one_iff.mp hlt
    exact List.mem_map_of_mem (h.complete rest hne)

theorem append {components components' : List Component} {addresses' : List Address}
    {rs' : List Resolution}
    (h : Enumeration (outcomeIn? components) addresses rs)
    (h' : Enumeration (outcomeIn? components') addresses' rs') :
    Enumeration (outcomeIn? (components ++ components'))
      (addresses ++ addresses'.map (shift components.length)) (rs ++ rs') where
  ordered := by
    refine List.pairwise_append.mpr
      ⟨h.ordered, List.pairwise_map.mpr (h'.ordered.imp (shift_lt_shift _)), ?_⟩
    -- an address in front starts with a smaller number than any that is shifted
    intro address hmem _ hmem'
    obtain ⟨address', hbehind, rfl⟩ := List.mem_map.mp hmem'
    obtain ⟨i, _, rfl, hlt⟩ := exists_cons_of_outcomeIn? (h.ne_none hmem)
    obtain ⟨j, _, rfl, _⟩ := exists_cons_of_outcomeIn? (h'.ne_none hbehind)
    exact List.cons_lt_cons_iff.mpr (.inl (Nat.lt_add_right j hlt))
  outcomes := by
    rw [List.map_append, List.map_append, List.map_map, ← h.outcomes, ← h'.outcomes]
    refine congrArg₂ _ (List.map_congr_left fun address hmem => ?_)
      (List.map_congr_left fun address _ => outcomeIn?_append_shift components components' address)
    exact outcomeIn?_append_left components components' (h.ne_none hmem)
  complete address hne := by
    obtain ⟨i, rest, rfl, -⟩ := exists_cons_of_outcomeIn? hne
    rw [List.mem_append]
    by_cases hlt : i < components.length
    · left
      apply h.complete
      rwa [outcomeIn?, List.getElem?_append_left hlt] at hne
    · right
      have haddress : i :: rest = shift components.length ((i - components.length) :: rest) := by
        rw [shift, Nat.add_sub_cancel' (not_lt.mp hlt)]
      rw [haddress, outcomeIn?_append_shift] at hne
      rw [haddress]
      exact List.mem_map_of_mem (h'.complete _ hne)

end Enumeration

namespace Component

/-- The outcomes are those in the component. -/
def Lists (component : Component) (rs : List Resolution) : Prop :=
  ∃ addresses, Enumeration component.outcomeAt? addresses rs

/-- The outcomes are those in the components. -/
def ListsAll (components : List Component) (rs : List Resolution) : Prop :=
  ∃ addresses, Enumeration (outcomeIn? components) addresses rs

variable {component : Component} {components behind : List Component} {rs rs' : List Resolution}

theorem ListsAll.nil : ListsAll [] [] := ⟨[], .nil⟩

theorem ListsAll.append : ListsAll components rs → ListsAll behind rs' →
    ListsAll (components ++ behind) (rs ++ rs')
  | ⟨_, h⟩, ⟨_, h'⟩ => ⟨_, h.append h'⟩

theorem Lists.singleton : component.Lists rs → ListsAll [component] rs
  | ⟨_, h⟩ => ⟨_, h.singleton⟩

theorem Lists.cons (h : component.Lists rs) (hbehind : ListsAll behind rs') :
    ListsAll (component :: behind) (rs ++ rs') := h.singleton.append hbehind

/-- A component that is an outcome comes before its children. -/
theorem lists_node (component : Component) (h : ListsAll component.children rs) :
    component.Lists (component.outcome?.toList ++ rs) := by
  obtain ⟨addresses, h⟩ := h
  -- the empty address is that of the component, and any other one goes on in a child
  have hcons {address : Address} (hne : outcomeIn? component.children address ≠ none) :
      component.outcomeAt? address = outcomeIn? component.children address := by
    obtain ⟨i, rest, rfl, -⟩ := exists_cons_of_outcomeIn? hne
    exact outcomeAt?_cons component i rest
  have hlisted : addresses.map component.outcomeAt? = rs.map some :=
    (List.map_congr_left fun address hmem => hcons (h.ne_none hmem)).trans h.outcomes
  have hcomplete {i : Nat} {rest : Address} (hne : component.outcomeAt? (i :: rest) ≠ none) :
      i :: rest ∈ addresses := h.complete _ (outcomeAt?_cons component i rest ▸ hne)
  cases houtcome : component.outcome? with
  | none =>
    refine ⟨addresses, h.ordered, hlisted, fun address hne => ?_⟩
    cases address with
    | nil => exact absurd houtcome hne
    | cons i rest => exact hcomplete hne
  | some r =>
    refine ⟨[] :: addresses, List.pairwise_cons.mpr ⟨fun address hmem => ?_, h.ordered⟩,
      congrArg₂ List.cons houtcome hlisted, fun address hne => ?_⟩
    · obtain ⟨i, rest, rfl, -⟩ := exists_cons_of_outcomeIn? (h.ne_none hmem)
      exact List.nil_lt_cons i rest
    · cases address with
      | nil => exact List.mem_cons_self
      | cons i rest => exact List.mem_cons_of_mem _ (hcomplete hne)

/-! ## The walk -/

theorem lists_symbol (ref : SymbolRef) : (symbol ref).Lists [.symbol ref] :=
  (symbol ref).lists_node .nil

theorem lists_call (name : String) (overload : Option Overload) :
    (call name overload).Lists [.call name overload] :=
  (call name overload).lists_node .nil

mutual

theorem lists_expr : (e : Expr) → (expr e).Lists e.resolutions
  | .literal _ _ => lists_node (expr (.literal _ _)) .nil
  | .name _ ref => lists_node _ (lists_symbol ref).singleton
  | .index _ target _ => lists_node _ (lists_symbol target).singleton
  | .call _ function overload args =>
    lists_node _ ((lists_call function overload).cons (lists_exprs args))
  | .axis _ elements => lists_node _ (lists_exprs elements)

theorem lists_exprs : (es : List Expr) → ListsAll (es.map expr) (Expr.resolutionsAll es)
  | [] => .nil
  | e :: es => (lists_expr e).cons (lists_exprs es)

end

theorem lists_expr? (e : Option Expr) : ListsAll (e.toList.map expr) (Expr.resolutionsOpt e) := by
  cases e with
  | none => exact .nil
  | some e => exact (lists_expr e).singleton

theorem lists_gate (called : GateCall) : (gate called).Lists called.resolutions :=
  lists_node _ ((lists_call called.name called.overload).cons
    ((lists_expr? called.condition).append (lists_exprs called.operands)))

theorem lists_gates (calls : List GateCall) :
    ListsAll (calls.map gate) (calls.flatMap GateCall.resolutions) := by
  induction calls with
  | nil => exact .nil
  | cons called calls ih => exact (lists_gate called).cons ih

mutual

theorem lists_stmt : (s : Stmt) → (stmt s).Lists s.resolutions
  | .qubits _ q b size =>
    lists_node _ ((lists_symbol q).cons ((lists_symbol b).cons (lists_expr size).singleton))
  | .declare _ ref size init =>
    lists_node _ ((lists_symbol ref).cons ((lists_expr? size).append (lists_expr? init)))
  | .map _ ref target => lists_node _ ((lists_symbol ref).cons (lists_expr target).singleton)
  | .instruction _ called => lists_node _ (lists_gate called).singleton
  | .bundle _ calls => lists_node _ (lists_gates calls)
  | .subcircuit _ _ _ body => lists_node _ (lists_block body).singleton
  | .assign _ lhs rhs => lists_node _ ((lists_expr lhs).cons (lists_expr rhs).singleton)
  | .ifElse _ branches otherwise =>
    lists_node _ ((lists_branches branches).append (lists_otherwise otherwise))
  | .whileLoop _ condition body =>
    lists_node _ ((lists_expr condition).cons (lists_block body).singleton)
  | .repeatUntil _ body condition =>
    lists_node _ ((lists_block body).cons (lists_expr condition).singleton)
  | .foreach _ ref first last body => by
    have hbounds := (lists_expr first).cons ((lists_expr last).cons (lists_block body).singleton)
    rw [← List.append_assoc] at hbounds
    exact lists_node _ ((lists_symbol ref).cons hbounds)
  | .loopControl _ _ => lists_node (stmt (.loopControl _ _)) .nil

theorem lists_stmts : (ss : List Stmt) → ListsAll (ss.map stmt) (Stmt.resolutionsAll ss)
  | [] => .nil
  | s :: ss => (lists_stmt s).cons (lists_stmts ss)

theorem lists_block (body : List Stmt) : (block body).Lists (Stmt.resolutionsAll body) :=
  lists_node _ (lists_stmts body)

theorem lists_branches : (branches : List (Expr × List Stmt)) →
    ListsAll (branches.map fun each => branch each.1 each.2) (Stmt.resolutionsBranches branches)
  | [] => .nil
  | (condition, body) :: branches =>
    (lists_branch condition body).cons (lists_branches branches)

theorem lists_branch (condition : Expr) (body : List Stmt) :
    (branch condition body).Lists (condition.resolutions ++ Stmt.resolutionsAll body) := by
  have hparts := (lists_expr condition).cons (lists_block body).singleton
  exact lists_node _ hparts

theorem lists_otherwise : (otherwise : Option (List Stmt)) →
    ListsAll (otherwise.toList.map block) (Stmt.resolutionsOtherwise otherwise)
  | none => .nil
  | some body => (lists_block body).singleton

end

end Component

/-! ## Errors -/

namespace Resolution

/-- A reference or declaration without a symbol. -/
def SymbolError (r : Resolution) : Prop := ∃ error, r = .symbol (.error error)

/-- A call without an overload. -/
def UnresolvedCall (r : Resolution) : Prop := ∃ name, r = .call name none

/-- An expression without a type. -/
def UndefinedType (r : Resolution) : Prop := ∃ e, r = .expr e ∧ e.ty = .undefined

theorem isSymbolError_iff (r : Resolution) : r.isSymbolError = true ↔ r.SymbolError := by
  obtain (error | id) | _ | _ := r <;> simp [isSymbolError, SymbolError]

theorem isUnresolvedCall_iff (r : Resolution) : r.isUnresolvedCall = true ↔ r.UnresolvedCall := by
  obtain _ | ⟨name, _ | overload⟩ | _ := r <;> simp [isUnresolvedCall, UnresolvedCall]

theorem isUndefinedType_iff (r : Resolution) : r.isUndefinedType = true ↔ r.UndefinedType := by
  cases r <;> simp [isUndefinedType, UndefinedType]

/-- Is it in error in one of the three ways? -/
def isError (r : Resolution) : Bool :=
  r.isSymbolError || r.isUnresolvedCall || r.isUndefinedType

theorem isError_iff (r : Resolution) :
    r.isError = true ↔ r.SymbolError ∨ r.UnresolvedCall ∨ r.UndefinedType := by
  rw [isError, Bool.or_eq_true, Bool.or_eq_true, or_assoc, r.isSymbolError_iff,
    r.isUnresolvedCall_iff, r.isUndefinedType_iff]

end Resolution

namespace Program

/-- The outcome at an address in a program. -/
def outcomeAt? (program : Program) (address : Address) : Option Resolution :=
  (Component.block program.stmts).outcomeAt? address

/-- The addresses of the outcomes with a property. -/
def addressesWhere (program : Program) (P : Resolution → Prop) : Set Address :=
  {address | ∃ r, program.outcomeAt? address = some r ∧ P r}

theorem enumerated (program : Program) :
    ∃ addresses, Enumeration program.outcomeAt? addresses program.resolutions :=
  Component.lists_block program.stmts

theorem countP_eq_encard (program : Program) {p : Resolution → Bool} {P : Resolution → Prop}
    (hp : ∀ r, p r = true ↔ P r) :
    (program.resolutions.countP p : ℕ∞) = (program.addressesWhere P).encard := by
  obtain ⟨addresses, h⟩ := program.enumerated
  rw [h.countP_eq]
  simp only [hp, addressesWhere]

theorem isFullyResolved_iff_countP (program : Program) :
    program.isFullyResolved = true ↔ program.resolutions.countP (·.isError) = 0 := by
  simp only [isFullyResolved, symbolErrors, unresolvedCalls, undefinedTypes, Bool.and_eq_true,
    beq_iff_eq, List.countP_eq_zero, Resolution.isError, Bool.or_eq_true, not_or, forall_and]

/-- The walk lists every reference, every call and every typed expression in a program, wherever it
is stored, exactly once. The three counts are the numbers of those in error, and a program is fully
resolved if and only if it has none of them at any address. -/
theorem walk_exhaustive (program : Program) :
    (∃ addresses, Enumeration program.outcomeAt? addresses program.resolutions)
    ∧ (program.symbolErrors : ℕ∞) = (program.addressesWhere Resolution.SymbolError).encard
    ∧ (program.unresolvedCalls : ℕ∞) = (program.addressesWhere Resolution.UnresolvedCall).encard
    ∧ (program.undefinedTypes : ℕ∞) = (program.addressesWhere Resolution.UndefinedType).encard
    ∧ (program.isFullyResolved = true ↔
      program.addressesWhere (fun r => r.SymbolError ∨ r.UnresolvedCall ∨ r.UndefinedType) = ∅) := by
  have hsymbol := program.countP_eq_encard Resolution.isSymbolError_iff
  have hcall := program.countP_eq_encard Resolution.isUnresolvedCall_iff
  have hty := program.countP_eq_encard Resolution.isUndefinedType_iff
  refine ⟨program.enumerated, hsymbol, hcall, hty, ?_⟩
  rw [program.isFullyResolved_iff_countP, ← Nat.cast_eq_zero (R := ℕ∞),
    program.countP_eq_encard Resolution.isError_iff, Set.encard_eq_zero]

end Program

end Cqasm.Typed
