/-!
# Places in a source text

A cursor is a place in a source text together with the text that is still ahead. The place is kept
in three units: bytes of UTF-8, lines, and characters of the line. Reading a character moves all
three, and only a line feed starts a new line.

## Main definitions

* `Position`, `Position.advance`, `Position.past`: the place after one character, and after many.
* `Cursor`: a place and the characters ahead of it.
* `Cursor.skipGap`: past the blanks and comments that may stand between tokens.

## Main results

* `Cursor.skipGap_eq`: a skipped gap is a run of characters, and the place moves over it.
-/

namespace HttpSuite

/-- A place in a source text: bytes before it, and line and column counted from one. -/
structure Position where
  offset : Nat := 0
  line : Nat := 1
  column : Nat := 1
deriving DecidableEq, Repr

namespace Position

/-- The place just after the character `c`. -/
def advance (p : Position) (c : Char) : Position where
  offset := p.offset + c.utf8Size
  line := if c = '\n' then p.line + 1 else p.line
  column := if c = '\n' then 1 else p.column + 1

/-- The place just after a run of characters. -/
def past (p : Position) (text : List Char) : Position := text.foldl advance p

@[simp] theorem past_nil (p : Position) : p.past [] = p := rfl

@[simp] theorem past_cons (p : Position) (c : Char) (text : List Char) :
    p.past (c :: text) = (p.advance c).past text := rfl

@[simp] theorem past_append (p : Position) (first second : List Char) :
    p.past (first ++ second) = (p.past first).past second := by
  simp [past, List.foldl_append]

end Position

/-- A place in a source text, and the characters from there to the end. -/
structure Cursor where
  position : Position
  rest : List Char
deriving DecidableEq, Repr

namespace Cursor

/-- The start of a source text. -/
def ofString (source : String) : Cursor := ⟨{}, source.toList⟩

/-- The characters that separate tokens without a comment. -/
def isGapChar (c : Char) : Bool := c == ' ' || c == '\t' || c == '\r' || c == '\n'

/-- Reads past blanks and comments; `inComment` says whether a comment is open. A comment starts at
two slashes and ends before the next line feed. A single slash starts nothing, so it stops the
gap. -/
def skipGapFrom (inComment : Bool) (p : Position) : List Char → Cursor
  | [] => ⟨p, []⟩
  | c :: cs =>
    if inComment then skipGapFrom (c != '\n') (p.advance c) cs
    else if isGapChar c then skipGapFrom false (p.advance c) cs
    else if c == '/' && cs.head? == some '/' then skipGapFrom true (p.advance c) cs
    else ⟨p, c :: cs⟩

/-- The first place at or after the cursor that belongs to no gap. -/
def skipGap (cursor : Cursor) : Cursor := skipGapFrom false cursor.position cursor.rest

/-- Skipping a gap reads a run of characters and keeps the place in step with it. -/
theorem skipGapFrom_eq (inComment : Bool) (p : Position) (text : List Char) :
    ∃ gap, text = gap ++ (skipGapFrom inComment p text).rest ∧
      (skipGapFrom inComment p text).position = p.past gap := by
  induction text generalizing inComment p with
  | nil => exact ⟨[], rfl, rfl⟩
  | cons c cs ih =>
    have step (b : Bool) : ∃ gap, c :: cs = gap ++ (skipGapFrom b (p.advance c) cs).rest ∧
        (skipGapFrom b (p.advance c) cs).position = p.past gap := by
      obtain ⟨gap, hrest, hplace⟩ := ih b (p.advance c)
      exact ⟨c :: gap, by rw [List.cons_append, ← hrest], by rw [hplace, Position.past_cons]⟩
    rw [skipGapFrom]
    split
    · exact step _
    · split
      · exact step _
      · split
        · exact step _
        · exact ⟨[], rfl, rfl⟩

/-- The gap at a cursor, and the cursor after it. -/
theorem skipGap_eq (cursor : Cursor) :
    ∃ gap, cursor.rest = gap ++ cursor.skipGap.rest ∧
      cursor.skipGap.position = cursor.position.past gap :=
  skipGapFrom_eq _ _ _

theorem length_skipGap_le (cursor : Cursor) :
    cursor.skipGap.rest.length ≤ cursor.rest.length := by
  obtain ⟨gap, hrest, _⟩ := cursor.skipGap_eq
  have := congrArg List.length hrest
  rw [List.length_append] at this
  omega

end Cursor

end HttpSuite
