import Cqasm.Text.LowerCase.Table

/-!
# Full lower-casing

`lowerCase s` maps every character of `s` to its lower case. The mapping is the full one of
Unicode: a capital I with a dot becomes an i and a combining dot, and a capital sigma becomes the
final form at the end of a word.

## Main definitions

* `LowerCase.ofChar` : the lower case of one character, wherever it stands;
* `LowerCase.endsWord` : the condition for the final form of sigma;
* `lowerCase` : the lower case of a text.
-/

namespace Cqasm.Text

namespace LowerCase

/-- Does the run hold `code`? -/
def Shift.contains (run : Shift) (code : Nat) : Bool :=
  run.first ≤ code && code ≤ run.last && (code - run.first) % run.step == 0

/-- The lower case of `c` as far as it does not depend on the characters around it. -/
def ofChar (c : Char) : List Char :=
  if c.toNat < 0x80 then
    [c.toLower]
  else if c = '\u0130' then
    ['i', '\u0307']
  else
    match shifts.find? (·.contains c.toNat) with
    | some run => [Char.ofNat (c.toNat + run.distance).toNat]
    | none => [c]

/-- Is the first character that is not case-ignorable a cased one? -/
def startsCased (chars : List Char) : Bool :=
  match chars.dropWhile caseIgnorable.contains with
  | [] => false
  | c :: _ => cased.contains c

/-- Does a word end between `before`, read backwards, and `after`? It does if a cased character
stands before and none after, case-ignorable characters aside. -/
def endsWord (before after : List Char) : Bool :=
  startsCased before && !startsCased after

/-- The lower case of `chars`, where `before` are the characters in front of them, read
backwards. -/
def ofChars (before : List Char) : List Char → List Char
  | [] => []
  | c :: rest =>
    (if c = 'Σ' then [if endsWord before rest then 'ς' else 'σ'] else ofChar c)
      ++ ofChars (c :: before) rest

/-- The lower case of an ASCII character is the one that core gives. -/
theorem ofChar_of_ascii {c : Char} (h : c.toNat < 0x80) : ofChar c = [c.toLower] := by
  simp [ofChar, h]

end LowerCase

/-- The full lower case of a text. -/
def lowerCase (s : String) : String := String.ofList (LowerCase.ofChars [] s.toList)

end Cqasm.Text
