import Cqasm.Overload.Basic
import Cqasm.Text.LowerCase

/-!
# Tables of overloads

A table groups overloads into sets by the key of their name, which is the name itself or, where case
does not matter, its lower case. The sets stand in the order in which their keys first occurred,
and each is named as its first overload was written.

## Main definitions

* `CaseRule.key` : what two spellings of one name have in common;
* `OverloadTable.add`, `OverloadTable.ofList` : building a table;
* `OverloadTable.get?` : the set of a name.
-/

namespace Cqasm

/-- Does the case of letters tell names apart? -/
inductive CaseRule where
  | sensitive
  | insensitive
deriving Repr, DecidableEq, Inhabited

/-- What all spellings of one name have in common. -/
def CaseRule.key : CaseRule → String → String
  | .sensitive, name => name
  | .insensitive, name => Text.lowerCase name

/-- Overload sets by the key of their name. -/
structure OverloadTable where
  caseRule : CaseRule
  entries : List (String × OverloadSet)
deriving Repr, DecidableEq, Inhabited

namespace OverloadTable

/-- The table without any overload. -/
def empty (caseRule : CaseRule) : OverloadTable := ⟨caseRule, []⟩

/-- Adds an overload to the set with the given key, which is appended if there is none. -/
def addAt (key : String) (o : Overload) : List (String × OverloadSet) → List (String × OverloadSet)
  | [] => [(key, ⟨o.name, [o]⟩)]
  | entry :: rest =>
    if entry.1 = key then (entry.1, entry.2.add o) :: rest else entry :: addAt key o rest

/-- The table with one more overload, in the set that its name belongs to. -/
def add (table : OverloadTable) (o : Overload) : OverloadTable :=
  { table with entries := addAt (table.caseRule.key o.name) o table.entries }

/-- The table of the given overloads, added one after the other. -/
def ofList (caseRule : CaseRule) (overloads : List Overload) : OverloadTable :=
  overloads.foldl add (empty caseRule)

/-- The set that `name` belongs to. -/
def get? (table : OverloadTable) (name : String) : Option OverloadSet :=
  (table.entries.find? (·.1 = table.caseRule.key name)).map (·.2)

/-- The number of sets. -/
def size (table : OverloadTable) : Nat := table.entries.length

/-- Is there no set? -/
def isEmpty (table : OverloadTable) : Bool := table.entries.isEmpty

/-- The sets, in the order in which their keys first occurred. -/
def toList (table : OverloadTable) : List OverloadSet := table.entries.map (·.2)

/-- The first overload with the given tag. -/
def withTag? (table : OverloadTable) (tag : String) : Option Overload :=
  (table.toList.flatMap (·.overloads)).find? (·.tag = tag)

@[simp] theorem caseRule_add (table : OverloadTable) (o : Overload) :
    (table.add o).caseRule = table.caseRule := rfl

theorem caseRule_foldl_add (overloads : List Overload) (table : OverloadTable) :
    (overloads.foldl add table).caseRule = table.caseRule := by
  induction overloads generalizing table with
  | nil => rfl
  | cons o overloads ih => rw [List.foldl_cons, ih, caseRule_add]

@[simp] theorem caseRule_ofList (caseRule : CaseRule) (overloads : List Overload) :
    (ofList caseRule overloads).caseRule = caseRule :=
  caseRule_foldl_add overloads (empty caseRule)

end OverloadTable

end Cqasm
