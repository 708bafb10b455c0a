import HttpSuite.Program.Error
import HttpSuite.Proofs.Places
import HttpSuite.Proofs.Places.Twins
import Mathlib.Data.List.Induction

/-!
# A text behind another

When a text is put behind another one, its places move: every offset grows by the bytes in front,
every line by the line ends in front, and the columns of the first line by the characters that stand
on the same line before it.  Nothing else changes in what is read from it, neither the kinds of
tokens nor the causes of errors.

## Main definitions

* `Position.behind`, `Token.behind`, `LexError.behind`, `SourceError.behind`: the same behind a
  text.
* `SourceError.SameWording`: errors that differ in their places only.
* `Position.Follows`: the place behind some text, counted with and without the text in front.

## Main results

* `Position.ofText_append`: the place that is counted from two texts.
* `Position.kept_follows`, `TwinPulls.eq_behind`: a text and the same text behind another are twins,
  and what is pulled from the second is what is pulled from the first, moved.
* `Cursor.tokens_behind`: the tokens of a text behind another.
-/

namespace HttpSuite

/-! ## Moved places -/

namespace Position

/-- The number of characters behind the last line end of a text. -/
def lastLineLength (text : List Char) : Nat := (text.reverse.takeWhile (· != '\n')).length

/-- The line of a place when its text stands behind `before`. -/
def lineBehind (before : List Char) (line : Nat) : Nat := before.count '\n' + line

/-- The column of a place when its text stands behind `before`. Only the first line of the text
shares its line with what stands in front. -/
def columnBehind (before : List Char) (line column : Nat) : Nat :=
  if line = 1 then lastLineLength before + column else column

/-- The place when its text stands behind `before`. -/
def behind (before : List Char) (p : Position) : Position where
  offset := byteCount before + p.offset
  line := lineBehind before p.line
  column := columnBehind before p.line p.column

end Position

/-- The token when its text stands behind `before`. -/
def Token.behind (before : List Char) (token : Token) : Token where
  kind := token.kind
  span :=
    { start := Position.byteCount before + token.span.start
      stop := Position.byteCount before + token.span.stop
      line := Position.lineBehind before token.span.line
      column := Position.columnBehind before token.span.line token.span.column }

/-- The error when its text stands behind `before`. -/
def LexError.behind (before : List Char) (e : LexError) : LexError where
  cause := e.cause
  line := Position.lineBehind before e.line
  column := Position.columnBehind before e.line e.column

/-- The error when its text stands behind `before`: the same cause, at the same token moved. -/
def ParseError.behind (before : List Char) (e : ParseError) : ParseError where
  cause := e.cause
  found := e.found.behind before

/-- The error when its text stands behind `before`. -/
def SourceError.behind (before : List Char) : SourceError → SourceError
  | lex e => lex (e.behind before)
  | parse e => parse (e.behind before)

/-- The two errors are of one kind and say the same about the same text or token, whatever places
they name. -/
inductive SourceError.SameWording : SourceError → SourceError → Prop
  | lex {e e' : LexError} : e.detail = e'.detail → e.text = e'.text → SameWording (.lex e) (.lex e')
  | parse {e e' : ParseError} : e.detail = e'.detail → e.context = e'.context →
    SameWording (.parse e) (.parse e')

theorem SourceError.sameWording_behind (before : List Char) (e : SourceError) :
    (e.behind before).SameWording e := by
  cases e with
  | lex e => exact .lex rfl rfl
  | parse e => exact .parse rfl rfl

namespace Position

/-- Going over a character does not depend on what stands in front. -/
theorem advance_behind {p : Position} (hline : 1 ≤ p.line) (before : List Char) (c : Char) :
    (p.behind before).advance c = (p.advance c).behind before := by
  by_cases hc : c = '\n'
  · have hfirst : p.line + 1 ≠ 1 := by omega
    simp only [advance, behind, lineBehind, columnBehind, if_pos hc, if_neg hfirst,
      Position.mk.injEq, and_true]
    omega
  · simp only [advance, behind, lineBehind, columnBehind, if_neg hc, Position.mk.injEq, true_and]
    constructor
    · omega
    · split_ifs <;> omega

/-- The place behind two texts is the place behind the second, moved. -/
theorem ofText_append (before text : List Char) :
    ofText (before ++ text) = (ofText text).behind before := by
  induction text using List.reverseRecOn with
  | nil =>
    simp only [List.append_nil, ofText, behind, lineBehind, columnBehind, lastLineLength,
      List.count_nil, List.reverse_nil, List.takeWhile_nil, List.length_nil, byteCount_nil]
    simp [Nat.add_comm]
  | append_singleton text c ih =>
    have hline : 1 ≤ (ofText text).line := Nat.le_add_right 1 _
    rw [← List.append_assoc, ofText_append_singleton, ih, advance_behind hline,
      ← ofText_append_singleton]

/-- The two places stand behind the same text, the second with `before` in front of it. -/
def Follows (before : List Char) (p q : Position) : Prop :=
  ∃ text, p = ofText text ∧ q = ofText (before ++ text)

theorem kept_follows (before : List Char) : Kept (Follows before) := by
  rintro _ _ ⟨text, rfl, rfl⟩ c
  refine ⟨text ++ [c], (ofText_append_singleton text c).symm, ?_⟩
  rw [← List.append_assoc, ofText_append_singleton]

theorem Follows.eq_behind {before : List Char} {p q : Position} (h : Follows before p q) :
    q = p.behind before := by
  obtain ⟨text, rfl, rfl⟩ := h
  exact ofText_append before text

end Position

/-! ## What is read from a moved text -/

/-- What is pulled from a text behind another is what is pulled from it alone, moved. -/
theorem TwinPulls.eq_behind {before : List Char} {pull pull' : Pull}
    (h : TwinPulls (Position.Follows before) pull pull') :
    pull' = (pull.mapError (·.behind before)).map (·.behind before) := by
  cases h with
  | token kind hstart hstop =>
    obtain rfl := hstart.eq_behind
    obtain rfl := hstop.eq_behind
    rfl
  | error cause hplace =>
    obtain rfl := hplace.eq_behind
    rfl

namespace Cursor

/-- A text and the same text behind another. -/
theorem twins_behind (before text : List Char) : Twins (Position.Follows before)
    ⟨{}, text⟩ ⟨.ofText before, text⟩ :=
  ⟨⟨[], rfl, by rw [List.append_nil]⟩, rfl⟩

/-- A text behind another is tokenized to the same tokens, moved. -/
theorem tokens_behind (before text : List Char) :
    (Cursor.tokens ⟨.ofText before, text⟩).1 =
      ((Cursor.tokens ⟨{}, text⟩).1.mapError (·.behind before)).map
        (List.map (·.behind before)) :=
  (twins_behind before text).tokens_eq (Position.kept_follows before) (fun _ => rfl)
    fun _ _ => TwinPulls.eq_behind

end Cursor

end HttpSuite
