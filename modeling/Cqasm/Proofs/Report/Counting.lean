import Cqasm.Report.Span
import Mathlib.Data.List.TakeWhile

/-!
# Spans and the counting of lines and columns

A character stands on the line whose number is one more than there are line feeds before it, and in
the column that is one more than there are characters since the last of these. Finding the span of a
location inverts this: every character is the span of its own location. A location that no character
has still gets a character of the text, the one at the end of its line if there is the line and the
last one of the text otherwise (`spanned`).

* `lineAt`, `columnAt`, `locationAt` : the location of a position, by counting;
* `Lined` : the lines of a text, each ended by its only line feed, the last one maybe by none;
* `offset_locationAt`, `offset_cases` : what the search for a position in the lines finds.
-/

namespace Cqasm.Report

/-! ## Counting -/

/-- The number of the line on which the character at the given position stands. -/
def lineAt (text : List Char) (position : Nat) : Nat := (text.take position).count '\n' + 1

/-- The column in which the character at the given position stands. -/
def columnAt (text : List Char) (position : Nat) : Nat :=
  ((text.take position).reverse.takeWhile (· ≠ '\n')).length + 1

/-- The location of the character at the given position. -/
def locationAt (text : List Char) (position : Nat) : Location :=
  ⟨lineAt text position, columnAt text position⟩

/-- There is a character on the line with the given number. A line feed at the end of the text does
not begin another line. -/
def HasLine (text : List Char) (number : Nat) : Prop :=
  ∃ position < text.length, lineAt text position = number

section Counting

variable {body : List Char} {position : Nat}

theorem lineAt_of_le (hbody : '\n' ∉ body) (h : position ≤ body.length) (rest : List Char) :
    lineAt (body ++ rest) position = 1 := by
  have hcount : (body.take position).count '\n' = 0 :=
    List.count_eq_zero.mpr fun hmem => hbody (List.mem_of_mem_take hmem)
  rw [lineAt, List.take_append_of_le_length h, hcount]

theorem columnAt_of_le (hbody : '\n' ∉ body) (h : position ≤ body.length) (rest : List Char) :
    columnAt (body ++ rest) position = position + 1 := by
  have hall : ∀ c ∈ (body.take position).reverse, decide (c ≠ '\n') = true := by
    intro c hc
    have hmem : c ∈ body := List.mem_of_mem_take (List.mem_reverse.mp hc)
    exact decide_eq_true fun heq => hbody (heq ▸ hmem)
  rw [columnAt, List.take_append_of_le_length h, List.takeWhile_eq_self_iff.mpr hall,
    List.length_reverse, List.length_take, Nat.min_eq_left h]

theorem take_after (body rest : List Char) (position : Nat) :
    (body ++ '\n' :: rest).take (body.length + 1 + position)
      = body ++ '\n' :: rest.take position := by
  rw [Nat.add_assoc, List.take_length_add_append, Nat.add_comm 1, List.take_succ_cons]

/-- Behind the first line the numbers of the lines are greater by one. -/
theorem lineAt_after (hbody : '\n' ∉ body) (rest : List Char) (position : Nat) :
    lineAt (body ++ '\n' :: rest) (body.length + 1 + position) = lineAt rest position + 1 := by
  rw [lineAt, lineAt, take_after, List.count_append, List.count_cons_self,
    List.count_eq_zero.mpr hbody, Nat.zero_add]

/-- Behind the first line the columns are those of the rest. -/
theorem columnAt_after (body rest : List Char) (position : Nat) :
    columnAt (body ++ '\n' :: rest) (body.length + 1 + position) = columnAt rest position := by
  rw [columnAt, columnAt, take_after, List.reverse_append, List.reverse_cons, List.append_assoc,
    List.singleton_append, List.takeWhile_append]
  split
  · next hall => rw [List.takeWhile_cons_of_neg (by simp), List.append_nil, hall]
  · rfl

end Counting

/-! ## The lines of a text -/

/-- A text and its lines. -/
inductive Lined : List Char → List (List Char) → Prop where
  | nil : Lined [] []
  | last {line : List Char} (hne : line ≠ []) (hline : '\n' ∉ line) : Lined line [line]
  | cons {body rest : List Char} {lines : List (List Char)} (hbody : '\n' ∉ body)
      (hrest : Lined rest lines) : Lined (body ++ '\n' :: rest) ((body ++ ['\n']) :: lines)

theorem lined_splitLines (text : List Char) : Lined text (splitLines endsCountedLine text) := by
  induction text with
  | nil => exact .nil
  | cons c rest ih =>
    rw [splitLines]
    by_cases hc : c = '\n'
    · subst hc
      rw [if_pos (by simp [endsCountedLine])]
      exact @Lined.cons [] rest _ List.not_mem_nil ih
    · rw [if_neg (by simpa [endsCountedLine] using hc)]
      -- the character joins the first line of the rest
      generalize splitLines endsCountedLine rest = lines at ih
      cases ih with
      | nil => exact .last (List.cons_ne_nil c []) (by simpa using Ne.symm hc)
      | last hne hline => exact .last (List.cons_ne_nil c rest) (by simp [Ne.symm hc, hline])
      | @cons body rest lines hbody hrest =>
        exact @Lined.cons (c :: body) rest lines (by simp [Ne.symm hc, hbody]) hrest

/-! ## Positions of locations -/

section Offset

variable {text : List Char} {lines : List (List Char)}

/-- The location of a character leads back to it. -/
theorem offset_locationAt (h : Lined text lines) {position : Nat} (hlt : position < text.length)
    (number : Nat) :
    offset ⟨lineAt text position + number, columnAt text position⟩ (number + 1) lines
      = position := by
  induction h generalizing position number with
  | nil => exact absurd hlt (Nat.not_lt_zero _)
  | @last line hne hline =>
    have hle : position ≤ line.length := Nat.le_of_lt hlt
    have hat := lineAt_of_le hline hle []
    have hcolumn := columnAt_of_le hline hle []
    rw [List.append_nil] at hat hcolumn
    simp only [hat, hcolumn, offset, Nat.add_comm number 1, if_true]
    omega
  | @cons body rest lines hbody hrest ih =>
    by_cases hle : position ≤ body.length
    · simp only [lineAt_of_le hbody hle, columnAt_of_le hbody hle, offset, Nat.add_comm number 1,
        if_true, List.length_append, List.length_singleton]
      omega
    · obtain ⟨behind, rfl⟩ := Nat.exists_eq_add_of_le (Nat.lt_of_not_le hle)
      have hbehind : behind < rest.length := by
        simp only [List.length_append, List.length_cons] at hlt
        omega
      have hnumber : lineAt rest behind + 1 + number = lineAt rest behind + (number + 1) := by omega
      have hne : number + 1 ≠ lineAt rest behind + (number + 1) := by
        rw [lineAt]
        omega
      rw [lineAt_after hbody, columnAt_after, hnumber, offset, if_neg hne, ih hbehind (number + 1),
        List.length_append, List.length_singleton]

/-- Either the line of a location has a character and the search ends on this line, or it has none and
the search runs to the end of the text. -/
theorem offset_cases (h : Lined text lines) (loc : Location) (number : Nat) :
    (offset loc (number + 1) lines < text.length
      ∧ lineAt text (offset loc (number + 1) lines) + number = loc.line)
    ∨ (offset loc (number + 1) lines = text.length
      ∧ ∀ position < text.length, lineAt text position + number ≠ loc.line) := by
  induction h generalizing number with
  | nil => exact .inr ⟨rfl, fun _ hlt => absurd hlt (Nat.not_lt_zero _)⟩
  | @last line hne hline =>
    have hpos : 0 < line.length := List.length_pos_iff.mpr hne
    have hat : ∀ position < line.length, lineAt line position = 1 := by
      intro position hlt
      simpa using lineAt_of_le hline (Nat.le_of_lt hlt) []
    rw [offset]
    split
    · next hnumber =>
      have hlt : min (loc.column - 1) (line.length - 1) < line.length := by omega
      refine .inl ⟨hlt, ?_⟩
      rw [hat _ hlt, Nat.add_comm, hnumber]
    · next hnumber =>
      refine .inr ⟨by simp [offset], fun position hlt => ?_⟩
      rw [hat position hlt, Nat.add_comm]
      exact hnumber
  | @cons body rest lines hbody hrest ih =>
    rw [offset, List.length_append, List.length_append, List.length_singleton, List.length_cons]
    split
    · next hnumber =>
      have hle : min (loc.column - 1) (body.length + 1 - 1) ≤ body.length := by omega
      refine .inl ⟨by omega, ?_⟩
      rw [lineAt_of_le hbody hle, Nat.add_comm, hnumber]
    · next hnumber =>
      rcases ih (number + 1) with ⟨hlt, hline⟩ | ⟨heq, hmissing⟩
      · refine .inl ⟨by omega, ?_⟩
        rw [lineAt_after hbody]
        omega
      · refine .inr ⟨by omega, fun position hlt => ?_⟩
        by_cases hle : position ≤ body.length
        · rw [lineAt_of_le hbody hle, Nat.add_comm]
          exact hnumber
        · obtain ⟨behind, rfl⟩ := Nat.exists_eq_add_of_le (Nat.lt_of_not_le hle)
          have hne := hmissing behind (by omega)
          rw [lineAt_after hbody]
          omega

theorem offset_mono {column column' : Nat} (h : column ≤ column') (line number : Nat)
    (lines : List (List Char)) :
    offset ⟨line, column⟩ number lines ≤ offset ⟨line, column'⟩ number lines := by
  induction lines generalizing number with
  | nil => exact Nat.le_refl _
  | cons first lines ih =>
    have hrest := ih (number + 1)
    simp only [offset]
    split <;> omega

end Offset

/-! ## Spans -/

theorem span_of_ne_nil {text : List Char} (h : text ≠ []) (loc : Location) :
    (span loc text).start
        = min (offset loc 1 (splitLines endsCountedLine text)) (text.length - 1)
      ∧ (span loc text).stop = (span loc text).start + 1 := by
  rw [span, if_neg (by simpa using h)]
  exact ⟨rfl, rfl⟩

/-- What the spans in a text are. -/
structure Spanned (text : List Char) : Prop where
  /-- There is nothing to point to. -/
  empty : text = [] → ∀ loc, span loc text = ⟨0, 0⟩
  /-- Every span is a character of the text. -/
  inside : text ≠ [] → ∀ loc,
    (span loc text).start < text.length ∧ (span loc text).stop = (span loc text).start + 1
  /-- Every character is the span of its location. -/
  inverse : ∀ position < text.length,
    span (locationAt text position) text = ⟨position, position + 1⟩
  /-- Whatever the column, the span is on the line of the location if there is this line. -/
  line : ∀ loc, HasLine text loc.line → lineAt text (span loc text).start = loc.line
  /-- A greater column does not lead to an earlier character. -/
  mono : ∀ line column column', column ≤ column' →
    (span ⟨line, column⟩ text).start ≤ (span ⟨line, column'⟩ text).start
  /-- A line that there is not leads to the last character. -/
  missing : text ≠ [] → ∀ loc, ¬ HasLine text loc.line → (span loc text).start + 1 = text.length

/-- Where a line has a character, clamping to the whole text changes nothing. -/
theorem start_of_hasLine {text : List Char} {loc : Location} (h : HasLine text loc.line) :
    (span loc text).start = offset loc 1 (splitLines endsCountedLine text)
      ∧ lineAt text (offset loc 1 (splitLines endsCountedLine text)) = loc.line := by
  obtain ⟨position, hlt, hline⟩ := h
  have hne : text ≠ [] := List.ne_nil_of_length_pos (Nat.zero_lt_of_lt hlt)
  obtain ⟨hstart, -⟩ := span_of_ne_nil hne loc
  rcases offset_cases (lined_splitLines text) loc 0 with ⟨hinside, hoffset⟩ | ⟨-, hmissing⟩
  · rw [Nat.zero_add] at hinside
    exact ⟨by omega, hoffset⟩
  · exact absurd hline (hmissing position hlt)

/-- For every text. No line feed at the end, empty lines, a line or a column of zero and any large
column are no exceptions. -/
theorem spanned (text : List Char) : Spanned text where
  empty := by
    rintro rfl loc
    rfl
  inside hne loc := by
    have hpos : 0 < text.length := List.length_pos_iff.mpr hne
    obtain ⟨hstart, hstop⟩ := span_of_ne_nil hne loc
    exact ⟨by omega, hstop⟩
  inverse position hlt := by
    have hne : text ≠ [] := List.ne_nil_of_length_pos (Nat.zero_lt_of_lt hlt)
    obtain ⟨hstart, hstop⟩ := span_of_ne_nil hne (locationAt text position)
    have hoffset : offset (locationAt text position) 1 (splitLines endsCountedLine text) = position :=
      offset_locationAt (lined_splitLines text) hlt 0
    have hposition : (span (locationAt text position) text).start = position := by omega
    rw [hposition] at hstop
    exact congrArg₂ Span.mk hposition hstop
  line loc hline := by
    obtain ⟨hstart, hoffset⟩ := start_of_hasLine hline
    rw [hstart, hoffset]
  mono line column column' hle := by
    by_cases hne : text = []
    · rw [hne]
      exact Nat.le_refl _
    · have hoffset := offset_mono hle line 1 (splitLines endsCountedLine text)
      rw [(span_of_ne_nil hne _).1, (span_of_ne_nil hne _).1]
      omega
  missing hne loc hmissing := by
    have hpos : 0 < text.length := List.length_pos_iff.mpr hne
    obtain ⟨hstart, -⟩ := span_of_ne_nil hne loc
    rcases offset_cases (lined_splitLines text) loc 0 with ⟨hinside, hoffset⟩ | ⟨hend, -⟩
    · exact absurd ⟨_, hinside, hoffset⟩ hmissing
    · rw [Nat.zero_add] at hend
      omega

/-- An empty line has nothing but its line feed, and there is no line zero. -/
example :
    let text := "ab\n\nc".toList
    locationAt text 4 = ⟨3, 1⟩ ∧ span ⟨3, 1⟩ text = ⟨4, 5⟩ ∧ span ⟨2, 7⟩ text = ⟨3, 4⟩
      ∧ span ⟨0, 1⟩ text = ⟨4, 5⟩ := by decide

end Cqasm.Report
