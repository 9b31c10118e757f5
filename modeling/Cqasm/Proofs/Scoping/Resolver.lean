import Cqasm.Symbol.Basic
import Cqasm.Tree.Stmt
import Cqasm.Typed.Resolution
import Mathlib.Data.Finmap

/-!
# Lexical scoping

What the names of a program refer to, told without a symbol table. Every block has a frame, a finite
map from names to symbols; a reference looks through the frames of the blocks around it, innermost
first. A statement is resolved in the frames `outer` of the blocks around its own block, which it
cannot change, and in the frame of its own block, which its declarations extend. The frame of a block
is dropped at its end; only the number of the next symbol is carried on.

* `Frame`, `Bindings` : the environment;
* `reference`, `Bindings.declare` : what a reference and a declaration of a name give;
* `resolveStmt` : the outcomes in a statement, the names without a binding and the bindings behind it;
* `Names` : the outcomes in the shape of the program; `Typed.Stmt.names` reads them off a typed one.
-/

namespace Cqasm

namespace Scoping

/-- The names that one block has bound so far, with the symbols they stand for. -/
abbrev Frame := Finmap fun _ : String => SymbolId

/-- The frame of the innermost block and the number of the next symbol of the program. -/
structure Bindings where
  frame : Frame
  next : SymbolId

/-- The outcomes of name resolution in a part of a program, in the shape of that part: those of the
part itself and then those of the parts inside of it. -/
inductive Names where
  | node (refs : List SymbolRef) (parts : List Names)

/-- A part that may be missing. -/
def Names.optional (part : Option Names) : Names := .node [] part.toList

/-! ## References and declarations -/

/-- A reference stands for the symbol that the innermost frame with the name binds it to. -/
def reference (frames : List Frame) (name : String) : SymbolRef :=
  match frames.findSome? (·.lookup name) with
  | some id => .ok id
  | none => .error .missingBinding

/-- The identifiers whose name no frame binds. -/
def unbound (frames : List Frame) (idents : List Tree.Ident) : List Tree.Ident :=
  idents.filter fun ident => frames.all fun frame => frame.lookup ident.name = none

namespace Bindings

/-- A declaration binds the name to the next symbol, unless the frame has the name already. -/
def declare (name : String) (bindings : Bindings) : SymbolRef × Bindings :=
  match bindings.frame.lookup name with
  | some _ => (.error .alreadyBound, bindings)
  | none => (.ok bindings.next, ⟨bindings.frame.insert name bindings.next, bindings.next + 1⟩)

/-- The bindings at the start of a block. -/
def block (bindings : Bindings) : Bindings := ⟨∅, bindings.next⟩

/-- The bindings behind a block that ends with `inner`. -/
def leave (bindings inner : Bindings) : Bindings := ⟨bindings.frame, inner.next⟩

end Bindings

/-! ## Expressions -/

mutual

/-- The outcomes in an expression. Of an index only the target has one. -/
def resolveExpr (frames : List Frame) : Tree.Expr → Names
  | .literal _ _ => .node [] []
  | .name ident => .node [reference frames ident.name] []
  | .index target _ _ => .node [reference frames target.name] []
  | .unary _ operand _ => .node [] [resolveExpr frames operand]
  | .binary _ lhs rhs _ => .node [] [resolveExpr frames lhs, resolveExpr frames rhs]
  | .call _ args _ => .node [] (resolveExprs frames args)
  | .array elements _ => .node [] (resolveExprs frames elements)

/-- The outcomes in several expressions. -/
def resolveExprs (frames : List Frame) : List Tree.Expr → List Names
  | [] => []
  | e :: es => resolveExpr frames e :: resolveExprs frames es

end

mutual

/-- The identifiers that an expression refers to, those in the entries of an index included. -/
def references : Tree.Expr → List Tree.Ident
  | .literal _ _ => []
  | .name ident => [ident]
  | .index target entries _ => target :: referencesEntries entries
  | .unary _ operand _ => references operand
  | .binary _ lhs rhs _ => references lhs ++ references rhs
  | .call _ args _ => referencesAll args
  | .array elements _ => referencesAll elements

/-- The identifiers that several expressions refer to. -/
def referencesAll : List Tree.Expr → List Tree.Ident
  | [] => []
  | e :: es => references e ++ referencesAll es

/-- The identifiers that an entry of an index refers to. -/
def referencesEntry : Tree.IndexEntry Tree.Expr → List Tree.Ident
  | .item e => references e
  | .range first last => references first ++ references last

/-- The identifiers that the entries of an index refer to. -/
def referencesEntries : List (Tree.IndexEntry Tree.Expr) → List Tree.Ident
  | [] => []
  | entry :: entries => referencesEntry entry ++ referencesEntries entries

end

/-! ## Statements -/

/-- What is found in statements: the outcomes, the identifiers that are referred to but not bound,
and the bindings behind the statements. -/
structure Found (α : Type) where
  names : α
  undeclared : List Tree.Ident
  bindings : Bindings

/-- The outcomes in an expression that may be missing. -/
def resolveOption (frames : List Frame) (e : Option Tree.Expr) : Names :=
  .optional (e.map (resolveExpr frames))

/-- The outcomes in an instruction. -/
def resolveInstruction (frames : List Frame) (i : Tree.Instruction) : Names :=
  .node [] [resolveOption frames i.condition, .node [] (resolveExprs frames i.operands)]

/-- The identifiers that an instruction refers to. -/
def referencesInstruction (i : Tree.Instruction) : List Tree.Ident :=
  referencesAll i.operands ++ referencesAll i.condition.toList

/-- The written size in a type. -/
def sizeOf : Tree.TypeSpec → Option Tree.Expr
  | .register _ size => size
  | .scalar _ => none

mutual

/-- What is found in a statement of a block with the given bindings inside the given frames. -/
def resolveStmt (outer : List Frame) (bindings : Bindings) : Tree.Stmt → Found Names
  | .qubits size _ =>
    let frames := bindings.frame :: outer
    let q := bindings.declare "q"
    let b := q.2.declare "b"
    ⟨.node [q.1, b.1] [resolveExpr frames size], unbound frames (references size), b.2⟩
  | .declare name type init _ =>
    let frames := bindings.frame :: outer
    let symbol := bindings.declare name.name
    ⟨.node [symbol.1] [resolveOption frames (sizeOf type), resolveOption frames init],
      unbound frames (referencesAll (sizeOf type).toList ++ referencesAll init.toList), symbol.2⟩
  | .map target name _ =>
    let frames := bindings.frame :: outer
    let symbol := bindings.declare name.name
    ⟨.node [symbol.1] [resolveExpr frames target], unbound frames (references target), symbol.2⟩
  | .instruction i =>
    let frames := bindings.frame :: outer
    ⟨resolveInstruction frames i, unbound frames (referencesInstruction i), bindings⟩
  | .bundle is _ =>
    let frames := bindings.frame :: outer
    ⟨.node [] (is.map (resolveInstruction frames)),
      unbound frames (is.flatMap referencesInstruction), bindings⟩
  | .subcircuit _ iterations body _ =>
    let frames := bindings.frame :: outer
    let body := resolveStmts frames bindings.block body
    ⟨.node [] body.names, unbound frames (referencesAll iterations.toList) ++ body.undeclared,
      bindings.leave body.bindings⟩
  | .assign lhs rhs _ =>
    let frames := bindings.frame :: outer
    ⟨.node [] [resolveExpr frames lhs, resolveExpr frames rhs],
      unbound frames (references lhs ++ references rhs), bindings⟩
  | .ifElse branches otherwise _ =>
    let branches := resolveBranches outer bindings branches
    let otherwise := resolveOtherwise outer branches.bindings otherwise
    ⟨.node [] (otherwise.names :: branches.names), branches.undeclared ++ otherwise.undeclared,
      otherwise.bindings⟩
  | .whileLoop condition body _ =>
    let frames := bindings.frame :: outer
    let body := resolveStmts frames bindings.block body
    ⟨.node [] (resolveExpr frames condition :: body.names),
      unbound frames (references condition) ++ body.undeclared, bindings.leave body.bindings⟩
  | .repeatUntil body condition _ =>
    let frames := bindings.frame :: outer
    let body := resolveStmts frames bindings.block body
    ⟨.node [] (resolveExpr frames condition :: body.names),
      body.undeclared ++ unbound frames (references condition), bindings.leave body.bindings⟩
  | .foreach name first last body _ =>
    let frames := bindings.frame :: outer
    let symbol := bindings.block.declare name.name
    let body := resolveStmts frames symbol.2 body
    ⟨.node [symbol.1] (resolveExpr frames first :: resolveExpr frames last :: body.names),
      unbound frames (references first ++ references last) ++ body.undeclared,
      bindings.leave body.bindings⟩
  | .loopControl _ _ => ⟨.node [] [], [], bindings⟩

/-- What is found in the statements of a block. -/
def resolveStmts (outer : List Frame) (bindings : Bindings) : List Tree.Stmt → Found (List Names)
  | [] => ⟨[], [], bindings⟩
  | s :: ss =>
    let first := resolveStmt outer bindings s
    let rest := resolveStmts outer first.bindings ss
    ⟨first.names :: rest.names, first.undeclared ++ rest.undeclared, rest.bindings⟩

/-- What is found in the branches of a conditional. -/
def resolveBranches (outer : List Frame) (bindings : Bindings) :
    List (Tree.Expr × List Tree.Stmt) → Found (List Names)
  | [] => ⟨[], [], bindings⟩
  | (condition, body) :: branches =>
    let frames := bindings.frame :: outer
    let body := resolveStmts frames bindings.block body
    let rest := resolveBranches outer (bindings.leave body.bindings) branches
    ⟨.node [] (resolveExpr frames condition :: body.names) :: rest.names,
      unbound frames (references condition) ++ body.undeclared ++ rest.undeclared, rest.bindings⟩

/-- What is found in the block of a conditional that is executed if no condition holds. -/
def resolveOtherwise (outer : List Frame) (bindings : Bindings) :
    Option (List Tree.Stmt) → Found Names
  | none => ⟨.optional none, [], bindings⟩
  | some body =>
    let body := resolveStmts (bindings.frame :: outer) bindings.block body
    ⟨.optional (some (.node [] body.names)), body.undeclared, bindings.leave body.bindings⟩

end

/-- What is found in a program. -/
def resolveProgram (program : Tree.Program) : Found (List Names) :=
  resolveStmts [] ⟨∅, 0⟩ program.stmts

end Scoping

/-! ## The outcomes in a typed program -/

namespace Typed

open Scoping (Names)

namespace Expr

mutual

/-- The outcomes in a typed expression. -/
def names : Expr → Names
  | literal _ _ => .node [] []
  | name _ symbol => .node [symbol] []
  | index _ target _ => .node [target] []
  | call _ _ _ args => .node [] (namesAll args)
  | axis _ elements => .node [] (namesAll elements)

/-- The outcomes in several typed expressions. -/
def namesAll : List Expr → List Names
  | [] => []
  | e :: es => names e :: namesAll es

end

/-- The outcomes in a typed expression that may be missing. -/
def namesOption (e : Option Expr) : Names := .optional (e.map names)

end Expr

/-- The outcomes in an instruction. -/
def GateCall.names (call : GateCall) : Names :=
  .node [] [Expr.namesOption call.condition, .node [] (Expr.namesAll call.operands)]

namespace Stmt

mutual

/-- The outcomes in a typed statement. -/
def names : Stmt → Names
  | qubits _ q b size => .node [q, b] [size.names]
  | declare _ symbol size init => .node [symbol] [Expr.namesOption size, Expr.namesOption init]
  | map _ symbol target => .node [symbol] [target.names]
  | instruction _ call => call.names
  | bundle _ calls => .node [] (calls.map GateCall.names)
  | subcircuit _ _ _ body => .node [] (namesAll body)
  | assign _ lhs rhs => .node [] [lhs.names, rhs.names]
  | ifElse _ branches otherwise => .node [] (namesOtherwise otherwise :: namesBranches branches)
  | whileLoop _ condition body => .node [] (condition.names :: namesAll body)
  | repeatUntil _ body condition => .node [] (condition.names :: namesAll body)
  | foreach _ symbol first last body =>
    .node [symbol] (first.names :: last.names :: namesAll body)
  | loopControl _ _ => .node [] []

/-- The outcomes in a typed block. -/
def namesAll : List Stmt → List Names
  | [] => []
  | s :: ss => names s :: namesAll ss

/-- The outcomes in the branches of a conditional. -/
def namesBranches : List (Expr × List Stmt) → List Names
  | [] => []
  | (condition, body) :: branches =>
    .node [] (condition.names :: namesAll body) :: namesBranches branches

/-- The outcomes in a block that may be missing. -/
def namesOtherwise : Option (List Stmt) → Names
  | none => .optional none
  | some body => .optional (some (.node [] (namesAll body)))

end

end Stmt

/-- The outcomes in a typed program. -/
def Program.names (program : Program) : List Names := Stmt.namesAll program.stmts

end Typed

end Cqasm
