import Cqasm.Text.LowerCase
import Cqasm.Diagnostic.Basic
import Cqasm.Typed.ConstInt
import Cqasm.Typed.Stmt

/-!
# Spellings of names

The names of instructions and of called functions may be written in several ways that have the same
lower case. A respelling changes how they are written, each name for itself and depending on the
place where it stands; operands and subcircuits are not touched. What two spellings have in common
is seen when the written names of a typed program and of its diagnostics are lower-cased.

* `Respelling`, `Tree.Program.respell` : other spellings, and a program written with them;
* `Typed.Program.lowered`, `Diagnostic.lowered` : the names of instructions and called functions in
  lower case.
-/

namespace Cqasm

/-- Another spelling, with the same lower case, for every name at every place. A place is given by
the numbers of the parts in which it lies, from the outside inwards. -/
structure Respelling where
  toFun : List Nat → String → String
  lowerCase_eq : ∀ place name, Text.lowerCase (toFun place name) = Text.lowerCase name

/-- The spellings in the part with the given number. -/
def Respelling.part (number : Nat) (f : Respelling) : Respelling where
  toFun place name := f.toFun (number :: place) name
  lowerCase_eq place name := f.lowerCase_eq (number :: place) name

/-! ## As written -/

namespace Tree

/-- The name in its other spelling. -/
def Ident.respell (f : Respelling) (ident : Ident) : Ident :=
  { ident with name := f.toFun [] ident.name }

namespace Expr

mutual

/-- The expression with the names of functions in their other spellings. -/
def respell (f : Respelling) : Expr → Expr
  | literal value loc => literal value loc
  | name ident => name ident
  | index target entries loc => index target (respellEntries f entries) loc
  | unary op operand loc => unary op (respell f operand) loc
  | binary op lhs rhs loc => binary op (respell (f.part 0) lhs) (respell (f.part 1) rhs) loc
  | call function args loc => call (function.respell f) (respellAll (f.part 0) args) loc
  | array elements loc => array (respellAll f elements) loc

/-- Several expressions with the names of functions in their other spellings. -/
def respellAll (f : Respelling) : List Expr → List Expr
  | [] => []
  | e :: es => respell (f.part 0) e :: respellAll (f.part 1) es

/-- The entry of an index with the names of functions in their other spellings. -/
def respellEntry (f : Respelling) : IndexEntry Expr → IndexEntry Expr
  | .item e => .item (respell f e)
  | .range first last => .range (respell (f.part 0) first) (respell (f.part 1) last)

/-- The entries of an index with the names of functions in their other spellings. -/
def respellEntries (f : Respelling) : List (IndexEntry Expr) → List (IndexEntry Expr)
  | [] => []
  | entry :: entries => respellEntry (f.part 0) entry :: respellEntries (f.part 1) entries

end

end Expr

/-- The type of a declaration with the names of functions in their other spellings. -/
def TypeSpec.respell (f : Respelling) : TypeSpec → TypeSpec
  | register kind size => register kind (size.map (Expr.respell f))
  | scalar kind => scalar kind

/-- The instruction in its other spelling, with the names of functions in theirs. -/
def Instruction.respell (f : Respelling) (i : Instruction) : Instruction where
  name := i.name.respell f
  condition := i.condition.map (Expr.respell (f.part 0))
  operands := Expr.respellAll (f.part 1) i.operands
  loc := i.loc

/-- Several instructions in their other spellings. -/
def Instruction.respellAll (f : Respelling) : List Instruction → List Instruction
  | [] => []
  | i :: is => i.respell (f.part 0) :: respellAll (f.part 1) is

namespace Stmt

mutual

/-- The statement with the names of instructions and functions in their other spellings. -/
def respell (f : Respelling) : Stmt → Stmt
  | qubits size loc => qubits (size.respell f) loc
  | declare name type init loc =>
    declare name (type.respell (f.part 0)) (init.map (Expr.respell (f.part 1))) loc
  | map target name loc => map (target.respell f) name loc
  | instruction i => instruction (i.respell f)
  | bundle is loc => bundle (Instruction.respellAll f is) loc
  | subcircuit name iterations body loc =>
    subcircuit name (iterations.map (Expr.respell (f.part 0))) (respellAll (f.part 1) body) loc
  | assign lhs rhs loc => assign (lhs.respell (f.part 0)) (rhs.respell (f.part 1)) loc
  | ifElse branches otherwise loc =>
    ifElse (respellBranches (f.part 0) branches) (respellOtherwise (f.part 1) otherwise) loc
  | whileLoop condition body loc =>
    whileLoop (condition.respell (f.part 0)) (respellAll (f.part 1) body) loc
  | repeatUntil body condition loc =>
    repeatUntil (respellAll (f.part 0) body) (condition.respell (f.part 1)) loc
  | foreach name first last body loc =>
    foreach name (first.respell (f.part 0)) (last.respell (f.part 1)) (respellAll (f.part 2) body)
      loc
  | loopControl control loc => loopControl control loc

/-- The block with the names of instructions and functions in their other spellings. -/
def respellAll (f : Respelling) : List Stmt → List Stmt
  | [] => []
  | s :: ss => respell (f.part 0) s :: respellAll (f.part 1) ss

/-- The branches of a conditional with the names of instructions and functions in their other
spellings. -/
def respellBranches (f : Respelling) : List (Expr × List Stmt) → List (Expr × List Stmt)
  | [] => []
  | (condition, body) :: branches =>
    (condition.respell (f.part 0), respellAll (f.part 1) body)
      :: respellBranches (f.part 2) branches

/-- The block of a conditional with the names of instructions and functions in their other spellings,
if there is a block. -/
def respellOtherwise (f : Respelling) : Option (List Stmt) → Option (List Stmt)
  | none => none
  | some body => some (respellAll f body)

end

end Stmt

/-- The program with the names of instructions and functions in their other spellings. -/
def Program.respell (f : Respelling) (program : Program) : Program :=
  { program with stmts := Stmt.respellAll f program.stmts }

end Tree

/-! ## After analysis -/

namespace Typed

namespace Expr

mutual

/-- The expression with the names of functions in lower case. -/
def lowered : Expr → Expr
  | call note function overload args =>
    call note (Text.lowerCase function) overload (loweredAll args)
  | axis note elements => axis note (loweredAll elements)
  | literal note value => literal note value
  | name note symbol => name note symbol
  | index note target ranges => index note target ranges

/-- Several expressions with the names of functions in lower case. -/
def loweredAll : List Expr → List Expr
  | [] => []
  | e :: es => lowered e :: loweredAll es

end

end Expr

/-- The instruction with its name and the names of functions in lower case. -/
def GateCall.lowered (call : GateCall) : GateCall where
  name := Text.lowerCase call.name
  overload := call.overload
  condition := call.condition.map Expr.lowered
  operands := Expr.loweredAll call.operands

namespace Stmt

mutual

/-- The statement with the names of instructions and functions in lower case. -/
def lowered : Stmt → Stmt
  | qubits mark q b size => qubits mark q b size.lowered
  | declare mark symbol size init =>
    declare mark symbol (size.map Expr.lowered) (init.map Expr.lowered)
  | map mark symbol target => map mark symbol target.lowered
  | instruction mark call => instruction mark call.lowered
  | bundle mark calls => bundle mark (calls.map GateCall.lowered)
  | subcircuit mark name iterations body => subcircuit mark name iterations (loweredAll body)
  | assign mark lhs rhs => assign mark lhs.lowered rhs.lowered
  | ifElse mark branches otherwise =>
    ifElse mark (loweredBranches branches) (loweredOtherwise otherwise)
  | whileLoop mark condition body => whileLoop mark condition.lowered (loweredAll body)
  | repeatUntil mark body condition => repeatUntil mark (loweredAll body) condition.lowered
  | foreach mark symbol first last body =>
    foreach mark symbol first.lowered last.lowered (loweredAll body)
  | loopControl mark control => loopControl mark control

/-- The block with the names of instructions and functions in lower case. -/
def loweredAll : List Stmt → List Stmt
  | [] => []
  | s :: ss => lowered s :: loweredAll ss

/-- The branches of a conditional with the names of instructions and functions in lower case. -/
def loweredBranches : List (Expr × List Stmt) → List (Expr × List Stmt)
  | [] => []
  | (condition, body) :: branches =>
    (condition.lowered, loweredAll body) :: loweredBranches branches

/-- The block of a conditional with the names of instructions and functions in lower case, if there
is a block. -/
def loweredOtherwise : Option (List Stmt) → Option (List Stmt)
  | none => none
  | some body => some (loweredAll body)

end

end Stmt

/-- The program with the names of instructions and functions in lower case. -/
def Program.lowered (program : Program) : Program :=
  { program with stmts := Stmt.loweredAll program.stmts }

end Typed

/-- The cause with the name of an instruction or function that its message quotes in lower case. -/
def Cause.lowered : Cause → Cause
  | unknownInstruction name => unknownInstruction (Text.lowerCase name)
  | unknownFunction name => unknownFunction (Text.lowerCase name)
  | noMatchingOverload name args => noMatchingOverload (Text.lowerCase name) args
  | ambiguousOverload name candidates => ambiguousOverload (Text.lowerCase name) candidates
  | deprecatedInstruction name replacement =>
    deprecatedInstruction (Text.lowerCase name) replacement
  | cause => cause

/-- The diagnostic with the name of an instruction or function that it quotes in lower case. -/
def Diagnostic.lowered (d : Diagnostic) : Diagnostic := { d with cause := d.cause.lowered }

/-! ## What does not depend on the spelling -/

theorem Diagnostic.severity_lowered (d : Diagnostic) : d.lowered.severity = d.severity := by
  unfold lowered severity
  cases d.cause <;> rfl

theorem Diagnostics.severities_of_lowered {log log' : Diagnostics}
    (h : log.map Diagnostic.lowered = log'.map Diagnostic.lowered) :
    log.map Diagnostic.severity = log'.map Diagnostic.severity :=
  severities_of_map Diagnostic.severity_lowered h

namespace Typed.Expr

@[simp] theorem note_lowered (e : Expr) : e.lowered.note = e.note := by
  cases e <;> rfl

@[simp] theorem ty_lowered (e : Expr) : e.lowered.ty = e.ty := congrArg Note.ty e.note_lowered

@[simp] theorem isConst_lowered (e : Expr) : e.lowered.isConst = e.isConst :=
  congrArg Note.isConst e.note_lowered

@[simp] theorem loc_lowered (e : Expr) : e.lowered.loc = e.loc := congrArg Note.loc e.note_lowered

theorem loweredAll_eq_map (es : List Expr) : loweredAll es = es.map lowered := by
  induction es with
  | nil => rfl
  | cons e es ih => rw [loweredAll, ih, List.map_cons]

@[simp] theorem constInt?_lowered (e : Expr) : e.lowered.constInt? = e.constInt? := by
  fun_induction constInt? e with
  | case8 e _ hone htwo =>
    -- nothing that is folded: neither a literal nor a call with one or two arguments
    cases e with
    | call note function overload args =>
      match args with
      | [] | _ :: _ :: _ :: _ => simp [lowered, loweredAll, constInt?]
      | [x] => exact absurd rfl (hone note function overload x)
      | [x, y] => exact absurd rfl (htwo note function overload x y)
    | literal | name | index | axis => simp_all [lowered, constInt?]
  | _ => simp_all [lowered, loweredAll, constInt?]

end Typed.Expr

end Cqasm
