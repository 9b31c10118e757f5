import Cqasm.Diagnostic.Cause

/-!
# Types are told apart by their texts

No two types and no two lists of types have the same text, however deep the signatures in them are
and whatever the sizes of the registers. So a message about arguments that no overload accepts, or
about a type that was expected and another one that was found, leaves no doubt about the types it is
about (`display_unambiguous`).

A text is read from the left. A type begins with a word of letters, which is empty for a signature,
and where the text of a type ends there is no further letter, digit or bracket (`Stops`): after the
result of a signature, which has no closing bracket, the text of a list goes on with a comma or ends.

* `eq_of_append_eq`, `eq_of_append_cons_eq` : where a text is cut by a test of its characters, or at
  the last mark in it, the text determines both parts;
* `Ty.word`, `Ty.argument` : the two parts of the text of a type;
* `Ty.eq_of_text_append`, `Ty.eq_of_listText_append` : a type or a list of types is determined by any
  text that begins with its own.
-/

namespace Cqasm

/-! ## Reading from the left -/

/-- Two texts begin with characters that pass a test, as many as there are. If they go on with ones
that do not pass it, then equal texts have equal parts. -/
theorem eq_of_append_eq {p : Char → Bool} {a b r s : List Char} (ha : ∀ c ∈ a, p c = true)
    (hb : ∀ c ∈ b, p c = true) (hr : ∀ c ∈ r.head?, p c = false) (hs : ∀ c ∈ s.head?, p c = false)
    (h : a ++ r = b ++ s) : a = b ∧ r = s := by
  have htake : ∀ {a r : List Char}, (∀ c ∈ a, p c = true) → (∀ c ∈ r.head?, p c = false) →
      (a ++ r).takeWhile p = a := by
    intro a r ha hr
    rw [List.takeWhile_append_of_pos ha]
    cases r with
    | nil => simp
    | cons c r => simp [hr c rfl]
  have hab : a = b := by rw [← htake ha hr, h, htake hb hs]
  subst hab
  exact ⟨rfl, List.append_cancel_left h⟩

/-- The last mark in a text tells what is before it and what is behind it. -/
theorem eq_of_append_cons_eq {mark : Char} {a b r s : List Char} (hr : mark ∉ r) (hs : mark ∉ s)
    (h : a ++ mark :: r = b ++ mark :: s) : a = b ∧ r = s := by
  have hpass : ∀ {r : List Char}, mark ∉ r → ∀ c ∈ r.reverse, (c != mark) = true := by
    intro r hr c hc
    rw [bne_iff_ne]
    rintro rfl
    exact hr (List.mem_reverse.mp hc)
  have hreverse := congrArg List.reverse h
  rw [List.reverse_append, List.reverse_append, List.reverse_cons, List.reverse_cons,
    List.append_assoc, List.append_assoc] at hreverse
  obtain ⟨hbehind, hbefore⟩ :=
    eq_of_append_eq (hpass hr) (hpass hs) (by simp) (by simp) hreverse
  exact ⟨List.reverse_inj.mp (List.append_cancel_left hbefore), List.reverse_inj.mp hbehind⟩

namespace Ty

/-- The text ends here or goes on with a comma or a closing parenthesis. -/
def Stops (text : List Char) : Prop := ∀ c ∈ text.head?, c = ',' ∨ c = ')'

/-- The text ends here or goes on with a closing parenthesis. -/
def Closes (text : List Char) : Prop := ∀ c ∈ text.head?, c = ')'

theorem Closes.stops {text : List Char} (h : Closes text) : Stops text := fun c hc => .inr (h c hc)

/-! ## The two parts of a text -/

/-- The text of a type. -/
def text (t : Ty) : List Char := t.display.toList

/-- The text of a list of types. -/
def listText (ts : List Ty) : List Char := (displayList ts).toList

/-- The text of types that follow another one. -/
def restText (ts : List Ty) : List Char := (displayRest ts).toList

/-- The letters that the text of a type begins with. -/
def word : Ty → List Char
  | bool => ['b', 'o', 'o', 'l']
  | int => ['i', 'n', 't']
  | float => ['f', 'l', 'o', 'a', 't']
  | complex => ['c', 'o', 'm', 'p', 'l', 'e', 'x']
  | qubit _ => ['q', 'u', 'b', 'i', 't']
  | bit _ => ['b', 'i', 't']
  | axis => ['a', 'x', 'i', 's']
  | function _ _ => []
  | void => ['v', 'o', 'i', 'd']
  | undefined => ['u', 'n', 'd', 'e', 'f', 'i', 'n', 'e', 'd']

/-- The text of the size of a register, which is left out if it is one. -/
def sizeText (size : Nat) : List Char :=
  if size = 1 then [] else '[' :: Nat.toDigits 10 size ++ [']']

/-- What the text of a type has after its word. -/
def argument : Ty → List Char
  | qubit size | bit size => sizeText size
  | function params result => '(' :: listText params ++ [')', ' ', '-', '>', ' '] ++ text result
  | _ => []

theorem text_eq (t : Ty) : text t = word t ++ argument t := by
  cases t with
  | qubit size | bit size =>
    simp only [text, display, word, argument, sizeText]
    split <;> simp
  | function params result => simp [text, display, word, argument, listText]
  | _ => rfl

theorem listText_cons (t : Ty) (ts : List Ty) : listText (t :: ts) = text t ++ restText ts := by
  simp [listText, text, restText, displayList]

theorem restText_cons (t : Ty) (ts : List Ty) :
    restText (t :: ts) = ',' :: ' ' :: (text t ++ restText ts) := by
  simp [text, restText, displayRest]

theorem isAlpha_of_mem_word (t : Ty) : ∀ c ∈ word t, c.isAlpha = true := by
  cases t <;> simp [word]

/-- No letter follows the word. -/
theorem not_isAlpha_argument (t : Ty) {r : List Char} (hr : Stops r) :
    ∀ c ∈ (argument t ++ r).head?, c.isAlpha = false := by
  have hstop : ∀ c ∈ r.head?, c.isAlpha = false := by
    intro c hc
    rcases hr c hc with rfl | rfl <;> decide
  cases t with
  | qubit size | bit size =>
    simp only [argument, sizeText]
    split
    · exact hstop
    · simp
  | function params result => simp [argument]
  | _ => exact hstop

/-- The text of a type is not empty, and it does not begin with what ends a list. -/
theorem exists_text_eq_cons (t : Ty) : ∃ c rest, text t = c :: rest ∧ c ≠ ')' := by
  rw [text_eq]
  cases t <;> simp [word, argument]

/-! ## Sizes -/

theorem isDigit_of_mem_toDigits_ten (n : Nat) : ∀ c ∈ Nat.toDigits 10 n, c.isDigit = true :=
  fun _ hc => Nat.isDigit_of_mem_toDigits (by decide) (by decide) hc

theorem eq_of_sizeText_append {m n : Nat} {r s : List Char} (hr : Stops r) (hs : Stops s)
    (h : sizeText m ++ r = sizeText n ++ s) : m = n ∧ r = s := by
  have hbracket : ∀ {r : List Char} (rest : List Char), Stops r → r ≠ '[' :: rest := by
    rintro r rest hr rfl
    simpa using hr '[' rfl
  unfold sizeText at h
  split at h <;> split at h
  · next hm hn => exact ⟨hm.trans hn.symm, h⟩
  · exact absurd h (hbracket _ hr)
  · exact absurd h.symm (hbracket _ hs)
  · simp only [List.cons_append, List.append_assoc, List.nil_append, List.cons.injEq,
      true_and] at h
    obtain ⟨hdigits, hrest⟩ := eq_of_append_eq (isDigit_of_mem_toDigits_ten m)
      (isDigit_of_mem_toDigits_ten n) (by simp) (by simp) h
    have hvalue := congrArg (Nat.ofDigitChars 10 · 0) hdigits
    simp only [Nat.ofDigitChars_ten_toDigits] at hvalue
    exact ⟨hvalue, (List.cons.inj hrest).2⟩

/-! ## Types -/

theorem stops_restText (ts : List Ty) {r : List Char} (hr : Closes r) : Stops (restText ts ++ r) := by
  cases ts with
  | nil => exact hr.stops
  | cons t ts => simp [restText_cons, Stops]

/-- Where a list of types ends there is no further type. -/
theorem ne_restText_append {u : Ty} {us : List Ty} {r s : List Char} (hr : Closes r) :
    r ≠ restText (u :: us) ++ s := by
  rintro rfl
  rw [restText_cons] at hr
  simpa using hr ',' rfl

theorem ne_listText_append {u : Ty} {us : List Ty} {r s : List Char} (hr : Closes r) :
    r ≠ listText (u :: us) ++ s := by
  obtain ⟨c, rest, htext, hc⟩ := exists_text_eq_cons u
  rintro rfl
  rw [listText_cons, htext] at hr
  exact hc (hr c rfl)

mutual

/-- Where a type is read, the text tells which one it is and where it ends. -/
theorem eq_of_text_append : (t : Ty) → {u : Ty} → {r s : List Char} → Stops r → Stops s →
    text t ++ r = text u ++ s → t = u ∧ r = s
  | t, u, r, s, hr, hs, h => by
    rw [text_eq, text_eq, List.append_assoc, List.append_assoc] at h
    obtain ⟨hword, hargument⟩ := eq_of_append_eq (isAlpha_of_mem_word t) (isAlpha_of_mem_word u)
      (not_isAlpha_argument t hr) (not_isAlpha_argument u hs) h
    cases t with
    | qubit m | bit m =>
      cases u <;> simp [word] at hword
      next n =>
        obtain ⟨rfl, hrest⟩ := eq_of_sizeText_append hr hs hargument
        exact ⟨rfl, hrest⟩
    | function params result =>
      cases u <;> simp [word] at hword
      next params' result' =>
        simp only [argument, List.cons_append, List.append_assoc, List.cons.injEq, true_and,
          List.nil_append] at hargument
        obtain ⟨rfl, hresult⟩ := eq_of_listText_append params (by simp [Closes]) (by simp [Closes])
          hargument
        simp only [List.cons.injEq, true_and] at hresult
        obtain ⟨rfl, hrest⟩ := eq_of_text_append result hr hs hresult
        exact ⟨rfl, hrest⟩
    | _ =>
      cases u <;> simp [word] at hword
      exact ⟨rfl, hargument⟩

/-- Where types that follow another one are read up to a parenthesis or the end, the text tells which
ones they are. -/
theorem eq_of_restText_append : (ts : List Ty) → {us : List Ty} → {r s : List Char} → Closes r →
    Closes s → restText ts ++ r = restText us ++ s → ts = us ∧ r = s
  | [], [], _, _, _, _, h => ⟨rfl, h⟩
  | [], u :: us, r, s, hr, _, h => absurd h (ne_restText_append hr)
  | t :: ts, [], r, s, _, hs, h => absurd h.symm (ne_restText_append hs)
  | t :: ts, u :: us, r, s, hr, hs, h => by
    simp only [restText_cons, List.cons_append, List.append_assoc, List.cons.injEq, true_and] at h
    obtain ⟨rfl, hrest⟩ := eq_of_text_append t (stops_restText ts hr) (stops_restText us hs) h
    obtain ⟨rfl, rfl⟩ := eq_of_restText_append ts hr hs hrest
    exact ⟨rfl, rfl⟩

/-- Where types are read up to a parenthesis or the end, the text tells which ones they are. -/
theorem eq_of_listText_append : (ts : List Ty) → {us : List Ty} → {r s : List Char} → Closes r →
    Closes s → listText ts ++ r = listText us ++ s → ts = us ∧ r = s
  | [], [], _, _, _, _, h => ⟨rfl, h⟩
  | [], u :: us, r, s, hr, _, h => absurd h (ne_listText_append hr)
  | t :: ts, [], r, s, _, hs, h => absurd h.symm (ne_listText_append hs)
  | t :: ts, u :: us, r, s, hr, hs, h => by
    rw [listText_cons, listText_cons, List.append_assoc, List.append_assoc] at h
    obtain ⟨rfl, hrest⟩ := eq_of_text_append t (stops_restText ts hr) (stops_restText us hs) h
    obtain ⟨rfl, rfl⟩ := eq_of_restText_append ts hr hs hrest
    exact ⟨rfl, rfl⟩

end

/-! ## Messages -/

mutual

/-- There is no quotation mark in the text of a type. -/
theorem quote_not_mem_text : (t : Ty) → '`' ∉ text t
  | .bool | .int | .float | .complex | .axis | .void | .undefined => by decide
  | .qubit size | .bit size => by
    have hdigits : '`' ∉ Nat.toDigits 10 size := fun hmem =>
      absurd (isDigit_of_mem_toDigits_ten size _ hmem) (by decide)
    rw [text_eq]
    simp only [word, argument, sizeText]
    split <;> simp [hdigits]
  | .function params result => by
    rw [text_eq]
    simp [word, argument, quote_not_mem_listText params, quote_not_mem_text result]

theorem quote_not_mem_restText : (ts : List Ty) → '`' ∉ restText ts
  | [] => by decide
  | t :: ts => by simp [restText_cons, quote_not_mem_text t, quote_not_mem_restText ts]

theorem quote_not_mem_listText : (ts : List Ty) → '`' ∉ listText ts
  | [] => by decide
  | t :: ts => by simp [listText_cons, quote_not_mem_text t, quote_not_mem_restText ts]

end

theorem eq_of_display_eq {t u : Ty} (h : t.display = u.display) : t = u := by
  have htext : text t ++ [] = text u ++ [] := by rw [text, text, h]
  exact (eq_of_text_append t (by simp [Stops]) (by simp [Stops]) htext).1

theorem eq_of_displayList_eq {ts us : List Ty} (h : displayList ts = displayList us) : ts = us := by
  have htext : listText ts ++ [] = listText us ++ [] := by rw [listText, listText, h]
  exact (eq_of_listText_append ts (by simp [Closes]) (by simp [Closes]) htext).1

theorem toList_noMatchingOverload (name : String) (args : List Ty) :
    (Cause.noMatchingOverload name args).message.toList
      = "no overload of `".toList
        ++ (name.toList ++ '`' :: (" accepts (".toList ++ (listText args ++ [')']))) := by
  have hmessage : (Cause.noMatchingOverload name args).message
      = "no overload of `" ++ name ++ "` accepts (" ++ displayList args ++ ")" := rfl
  have hmark : "` accepts (".toList = '`' :: " accepts (".toList := by decide
  have hclose : ")".toList = [')'] := by decide
  simp only [hmessage, String.toList_append, List.append_assoc, hmark, hclose, List.cons_append,
    listText]

theorem toList_incompatibleTypes (expected found : Ty) :
    (Cause.incompatibleTypes expected found).message.toList
      = "expected a value of type ".toList
        ++ (text expected ++ (", found ".toList ++ text found)) := by
  have hmessage : (Cause.incompatibleTypes expected found).message
      = "expected a value of type " ++ expected.display ++ ", found " ++ found.display := rfl
  simp only [hmessage, String.toList_append, List.append_assoc, text]

/-- The last quotation mark of the message ends the name, whatever is in the name. -/
theorem eq_of_noMatchingOverload {name name' : String} {args args' : List Ty}
    (h : (Cause.noMatchingOverload name args).message
      = (Cause.noMatchingOverload name' args').message) : name = name' ∧ args = args' := by
  have hmark : ∀ args, '`' ∉ " accepts (".toList ++ (listText args ++ [')']) := by
    intro args
    simp [quote_not_mem_listText]
  have hlist := congrArg String.toList h
  rw [toList_noMatchingOverload, toList_noMatchingOverload] at hlist
  obtain ⟨hname, hrest⟩ :=
    eq_of_append_cons_eq (hmark args) (hmark args') (List.append_cancel_left hlist)
  obtain ⟨hargs, -⟩ := eq_of_listText_append args (by simp [Closes]) (by simp [Closes])
    (List.append_cancel_left hrest)
  exact ⟨String.toList_inj.mp hname, hargs⟩

/-- A comma ends the type that was expected. -/
theorem eq_of_incompatibleTypes {expected expected' found found' : Ty}
    (h : (Cause.incompatibleTypes expected found).message
      = (Cause.incompatibleTypes expected' found').message) :
    expected = expected' ∧ found = found' := by
  have hlist := congrArg String.toList h
  rw [toList_incompatibleTypes, toList_incompatibleTypes] at hlist
  obtain ⟨hexpected, hrest⟩ := eq_of_text_append expected (by simp [Stops]) (by simp [Stops])
    (List.append_cancel_left hlist)
  have hfound := List.append_cancel_left hrest
  exact ⟨hexpected, eq_of_display_eq (String.toList_inj.mp hfound)⟩

/-- Types, lists of types, and the calls and types that a message is about are told apart by their
texts. -/
theorem display_unambiguous :
    Function.Injective display ∧ Function.Injective displayList
      ∧ (∀ name name' args args', (Cause.noMatchingOverload name args).message
          = (Cause.noMatchingOverload name' args').message → name = name' ∧ args = args')
      ∧ ∀ expected expected' found found', (Cause.incompatibleTypes expected found).message
          = (Cause.incompatibleTypes expected' found').message →
            expected = expected' ∧ found = found' :=
  ⟨fun _ _ => eq_of_display_eq, fun _ _ => eq_of_displayList_eq,
    fun _ _ _ _ => eq_of_noMatchingOverload, fun _ _ _ _ => eq_of_incompatibleTypes⟩

/-- Signatures nested in parameters, in the result and in a list. -/
example :
    displayList [.function [.function [] .int, .qubit 2] (.function [.qubit 1] .void), .bit 0]
      = "(() -> int, qubit[2]) -> (qubit) -> void, bit[0]" := by decide +kernel

end Ty

end Cqasm
