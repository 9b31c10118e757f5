import Cqasm.Symbol.Script
import Mathlib.Data.List.Nodup
import Mathlib.Logic.Function.Iterate

/-!
# Stacks of frames

What a symbol table means, without its scopes that are closed and without links between them: a stack
of frames that is never empty, and all symbols so far. A name is looked up from the topmost frame
downwards. Closing a scope takes its frame away for good.

* `Frame` : a map from names to symbols, in order, and the kind of block it belongs to;
* `ScopeStack` : the frames and the symbols; no frame has the number of a symbol that is not there;
* `ScopeStack.push?`, `ScopeStack.pop`, `ScopeStack.popTo`, `ScopeStack.declare`,
  `ScopeStack.lookup` : the operations;
* `ScopeStack.perform`, `ScopeStack.performAll` : running a script.
-/

namespace Cqasm

/-- The names of a block and their symbols, in order of declaration. No name occurs twice. -/
structure Frame where
  kind : ScopeKind
  names : List (String × SymbolId)
  nodup : (names.map Prod.fst).Nodup

namespace Frame

/-- The frame of a block without declarations. -/
def empty (kind : ScopeKind) : Frame := ⟨kind, [], List.nodup_nil⟩

/-- The symbol of `name`. -/
def id? (frame : Frame) (name : String) : Option SymbolId := frame.names.lookup name

theorem not_mem_of_id? {frame : Frame} {name : String} (h : frame.id? name = none) :
    name ∉ frame.names.map Prod.fst := by
  intro hmem
  obtain ⟨entry, hentry, rfl⟩ := List.mem_map.mp hmem
  have hne := List.lookup_eq_none_iff.mp h entry hentry
  simp at hne

theorem mem_of_id? {frame : Frame} {name : String} {id : SymbolId} (h : frame.id? name = some id) :
    (name, id) ∈ frame.names := by
  obtain ⟨before, after, heq, -⟩ := List.lookup_eq_some_iff.mp h
  rw [heq]
  exact List.mem_append_right before List.mem_cons_self

/-- The frame with one more name, which it did not have. -/
def insert (frame : Frame) (name : String) (id : SymbolId) (h : frame.id? name = none) : Frame where
  kind := frame.kind
  names := frame.names ++ [(name, id)]
  nodup := by
    rw [List.map_append, List.map_singleton, ← List.concat_eq_append]
    exact frame.nodup.concat (not_mem_of_id? h)

/-- All numbers of symbols are below `n`. -/
def Below (n : Nat) (frame : Frame) : Prop := ∀ entry ∈ frame.names, entry.2 < n

theorem Below.mono {frame : Frame} {m n : Nat} (h : frame.Below m) (hle : m ≤ n) : frame.Below n :=
  fun entry hentry => Nat.lt_of_lt_of_le (h entry hentry) hle

theorem below_empty (n : Nat) (kind : ScopeKind) : (empty kind).Below n :=
  fun _ hentry => absurd hentry List.not_mem_nil

theorem Below.insert {frame : Frame} {name : String} {n : Nat} (h : frame.Below n)
    (hname : frame.id? name = none) : (frame.insert name n hname).Below (n + 1) := by
  intro entry hentry
  rcases List.mem_append.mp hentry with hentry | hentry
  · exact Nat.lt_succ_of_lt (h entry hentry)
  · rw [List.mem_singleton.mp hentry]
    exact Nat.lt_succ_self n

end Frame

/-- Frames one upon the other, the one of the innermost open block on top, and all symbols in order
of declaration. -/
structure ScopeStack where
  dialect : Dialect
  top : Frame
  below : List Frame
  symbols : List Symbol
  bound : ∀ frame ∈ top :: below, frame.Below symbols.length

namespace ScopeStack

/-- The stack with the frame of the whole program and no symbol. -/
def new (dialect : Dialect) : ScopeStack where
  dialect
  top := .empty .global
  below := []
  symbols := []
  bound := by
    intro frame hframe
    rw [List.mem_singleton.mp hframe]
    exact Frame.below_empty 0 .global

/-! ## Opening and closing -/

/-- The number of frames. -/
def depth (stack : ScopeStack) : Nat := stack.below.length + 1

/-- The stack with an empty frame on top. -/
def push (kind : BlockKind) (stack : ScopeStack) : ScopeStack where
  dialect := stack.dialect
  top := .empty (.block kind)
  below := stack.top :: stack.below
  symbols := stack.symbols
  bound := List.forall_mem_cons.mpr ⟨Frame.below_empty _ _, stack.bound⟩

/-- The stack with an empty frame of the given kind on top. A second global one is refused. -/
def push? (kind : ScopeKind) (stack : ScopeStack) : Except ScopeError ScopeStack :=
  match kind with
  | .global => .error .secondGlobal
  | .block kind => .ok (stack.push kind)

/-- The stack without its topmost frame, unless there is no other. -/
def pop (stack : ScopeStack) : ScopeStack :=
  match h : stack.below with
  | [] => stack
  | frame :: below =>
    { dialect := stack.dialect
      top := frame
      below := below
      symbols := stack.symbols
      bound := fun frame' hframe => stack.bound frame' (List.mem_cons_of_mem _ (h ▸ hframe)) }

/-- The stack without the frames that are on top of the lowest `depth` ones. -/
def popTo (depth : Nat) (stack : ScopeStack) : ScopeStack := pop^[stack.depth - depth] stack

/-! ## Symbols -/

/-- The stack with one more symbol, whose name the topmost frame did not have. -/
def bindTop (symbol : Symbol) (stack : ScopeStack) (h : stack.top.id? symbol.name = none) :
    ScopeStack where
  dialect := stack.dialect
  top := stack.top.insert symbol.name stack.symbols.length h
  below := stack.below
  symbols := stack.symbols ++ [symbol]
  bound := by
    obtain ⟨htop, hbelow⟩ := List.forall_mem_cons.mp stack.bound
    rw [List.length_append, List.length_singleton]
    refine List.forall_mem_cons.mpr ⟨htop.insert h, fun frame hframe => ?_⟩
    exact (hbelow frame hframe).mono (Nat.le_succ _)

/-- Numbers the symbol and gives its name to it in the topmost frame, unless that one has the name
already. -/
def declare (symbol : Symbol) (stack : ScopeStack) : Except SymbolError (SymbolId × ScopeStack) :=
  if h : stack.top.id? symbol.name = none then
    .ok (stack.symbols.length, stack.bindTop symbol h)
  else
    .error .alreadyBound

/-- The symbol of `name` in the topmost of the frames that has the name, and the number of frames
below that one. -/
def find? (name : String) : List Frame → Option (SymbolId × Nat)
  | [] => none
  | frame :: below =>
    match frame.id? name with
    | some id => some (id, below.length)
    | none => find? name below

theorem lt_of_find? {name : String} {frames : List Frame} {n : Nat}
    (hbound : ∀ frame ∈ frames, frame.Below n) {id level : Nat}
    (h : find? name frames = some (id, level)) : id < n := by
  induction frames with
  | nil => cases h
  | cons frame below ih =>
    obtain ⟨hframe, hbelow⟩ := List.forall_mem_cons.mp hbound
    rw [find?] at h
    cases hid : frame.id? name with
    | some id' =>
      rw [hid] at h
      cases h
      exact hframe (name, id) (Frame.mem_of_id? hid)
    | none =>
      rw [hid] at h
      exact ih hbelow h

/-- The symbol of `name` in the topmost frame that has the name. -/
def lookup (stack : ScopeStack) (name : String) : Except SymbolError SymbolRecord :=
  match h : find? name (stack.top :: stack.below) with
  | none => .error .missingBinding
  | some (id, level) =>
    .ok { symbol := stack.symbols.get ⟨id, lt_of_find? stack.bound h⟩, id, level }

theorem lookup_of_find?_none {stack : ScopeStack} {name : String}
    (h : find? name (stack.top :: stack.below) = none) :
    stack.lookup name = .error .missingBinding := by
  unfold lookup
  split <;> simp_all

theorem lookup_of_find?_some {stack : ScopeStack} {name : String} {id level : Nat} {symbol : Symbol}
    (h : find? name (stack.top :: stack.below) = some (id, level))
    (hget : stack.symbols[id]? = some symbol) :
    stack.lookup name = .ok { symbol, id, level } := by
  obtain ⟨hlt, rfl⟩ := List.getElem?_eq_some_iff.mp hget
  unfold lookup
  split <;> simp_all

/-! ## Scripts -/

/-- What can be seen of the frames. -/
def state (stack : ScopeStack) : ScopeState :=
  { depth := stack.depth, bindings := stack.top.names.length, kind := stack.top.kind,
    inLoop := (stack.top :: stack.below).any fun frame => frame.kind = .block .loop }

mutual

/-- Runs one operation. An operation that fails leaves the stack as it was. -/
def perform : Step → ScopeStack → Outcome × ScopeStack
  | .enter kind, stack =>
    match stack.push? kind with
    | .ok stack' => (.done, stack')
    | .error error => (.refused error, stack)
  | .exit, stack => (.done, stack.pop)
  | .guarded kind steps, stack =>
    match stack.push? kind with
    | .ok stack' =>
      let (outcomes, stack'') := performAll steps stack'
      (.guarded stack'.state outcomes, stack''.popTo stack.depth)
    | .error error => (.refused error, stack)
  | .declare symbol, stack =>
    match stack.declare symbol with
    | .ok (id, stack') => (.declared (.ok id), stack')
    | .error error => (.declared (.error error), stack)
  | .lookup name, stack => (.found (stack.lookup name), stack)
  | .get id, stack => (.symbol stack.symbols[id]?, stack)
  | .symbols, stack => (.symbols stack.symbols, stack)
  | .instruction name, stack => (.overloads (stack.dialect.instructions.get? name), stack)
  | .function name, stack => (.overloads (stack.dialect.functions.get? name), stack)

/-- Runs the operations of a script and shows the frames after each. -/
def performAll : List Step → ScopeStack → List (Outcome × ScopeState) × ScopeStack
  | [], stack => ([], stack)
  | step :: steps, stack =>
    let (outcome, stack') := perform step stack
    let (outcomes, stack'') := performAll steps stack'
    ((outcome, stack'.state) :: outcomes, stack'')

end

end ScopeStack

end Cqasm
