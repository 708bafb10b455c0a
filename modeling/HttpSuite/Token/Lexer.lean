import HttpSuite.Source.Cursor
import HttpSuite.Token.Lexeme

/-!
# Reading tokens

Pulling a token from a cursor skips a gap, reads one lexeme and moves the cursor over both. A pull
that fails moves the cursor too, over the part of the lexeme that was read, so that reading can go
on after an error.

## Main definitions

* `Cursor.next`: one pull.
* `Cursor.tokens`: every token up to the end of the text, or the first error.
* `Lexer`: a cursor that also serves as an iterator, with the mark that says it has ended.
* `Lexer.collect`: everything that the iterator yields.

## Main results

* `Cursor.next_eq`: a pull reads a run of characters, and the place moves over it.
* `Cursor.length_next_lt`: a pull of any token but the end of the text leaves less to read.
-/

namespace HttpSuite

/-- The outcome of pulling one token. -/
abbrev Pull := Except LexError Token

namespace Cursor

/-- Pulls the next token. At the end of the text the token is the end, again and again. -/
def next (cursor : Cursor) : Pull × Cursor :=
  let start := cursor.skipGap
  let lexeme := Lexeme.read start.rest
  let finish := start.position.past lexeme.taken
  let pull : Pull :=
    match lexeme.result with
    | .ok kind =>
      .ok ⟨kind, ⟨start.position.offset, finish.offset, start.position.line,
        start.position.column⟩⟩
    | .error (lead, cause) =>
      let place := start.position.past lead
      .error ⟨cause, place.line, place.column⟩
  (pull, ⟨finish, lexeme.rest⟩)

/-- A pull reads a run of characters and keeps the place in step with it. -/
theorem next_eq (cursor : Cursor) :
    ∃ taken, cursor.rest = taken ++ cursor.next.2.rest ∧
      cursor.next.2.position = cursor.position.past taken := by
  obtain ⟨gap, hrest, hplace⟩ := cursor.skipGap_eq
  refine ⟨gap ++ (Lexeme.read cursor.skipGap.rest).taken, ?_, ?_⟩
  · rw [hrest, List.append_assoc]
    exact congrArg (gap ++ ·) (Lexeme.taken_append_rest _).symm
  · rw [Position.past_append, ← hplace]
    rfl

/-- A pull that moves the place leaves less to read. -/
theorem length_next_lt_of_offset_ne {cursor : Cursor}
    (h : cursor.next.2.position.offset ≠ cursor.position.offset) :
    cursor.next.2.rest.length < cursor.rest.length := by
  obtain ⟨taken, hrest, hplace⟩ := cursor.next_eq
  have hne : taken ≠ [] := fun hnil => h (by rw [hplace, hnil, Position.past_nil])
  have hpos := List.length_pos_iff.mpr hne
  have hlen := congrArg List.length hrest
  rw [List.length_append] at hlen
  omega

/-- A pull of any token but the end of the text leaves less to read. -/
theorem length_next_lt {cursor after : Cursor} {token : Token}
    (h : cursor.next = (.ok token, after)) (hk : token.kind ≠ .endOfFile) :
    after.rest.length < cursor.rest.length := by
  simp only [next, Prod.mk.injEq] at h
  obtain ⟨hpull, rfl⟩ := h
  split at hpull
  · next kind hread =>
    cases hpull
    exact Nat.lt_of_lt_of_le (Lexeme.length_rest_lt hread hk) cursor.length_skipGap_le
  · cases hpull

/-- Pulls up to the end of the text, which is the last token, or to the first error. The cursor
stops where the last pull left it. -/
def tokens (cursor : Cursor) : Except LexError (List Token) × Cursor :=
  match _h : cursor.next with
  | (.error e, after) => (.error e, after)
  | (.ok token, after) =>
    if _hk : token.kind = .endOfFile then (.ok [token], after)
    else
      let (more, last) := after.tokens
      (more.map (token :: ·), last)
termination_by cursor.rest.length
decreasing_by exact length_next_lt _h _hk

end Cursor

/-- The tokens of a source text, or the first place where none can be read. -/
def tokenize (source : String) : Except LexError (List Token) :=
  (Cursor.ofString source).tokens.1

/-- A cursor used as an iterator. -/
structure Lexer where
  cursor : Cursor
  /-- Whether iteration is over: it has yielded the end of the text or an error. -/
  ended : Bool := false
deriving DecidableEq, Repr

namespace Lexer

/-- A lexer at the start of a source text. -/
def ofString (source : String) : Lexer := { cursor := .ofString source }

/-- Pulls a token, whether or not iteration is over. -/
def nextToken (lexer : Lexer) : Pull × Lexer :=
  let (pull, cursor) := lexer.cursor.next
  (pull, { lexer with cursor })

/-- Pulls up to the end of the text or the first error, whether or not iteration is over. -/
def tokens (lexer : Lexer) : Except LexError (List Token) × Lexer :=
  let (all, cursor) := lexer.cursor.tokens
  (all, { lexer with cursor })

/-- Whether iteration stops after yielding this. -/
def isLast : Pull → Bool
  | .ok token => token.kind == .endOfFile
  | .error _ => true

/-- The next item of the iteration, or nothing once it is over. -/
def next? (lexer : Lexer) : Option Pull × Lexer :=
  if lexer.ended then (none, lexer)
  else
    let (pull, cursor) := lexer.cursor.next
    (some pull, { cursor, ended := isLast pull })

/-- A bound on the number of items still to come. -/
def remaining (lexer : Lexer) : Nat := if lexer.ended then 0 else lexer.cursor.rest.length + 1

/-- Every item brings the iteration closer to its end. -/
theorem remaining_next?_lt {lexer after : Lexer} {pull : Pull}
    (h : lexer.next? = (some pull, after)) : after.remaining < lexer.remaining := by
  unfold next? at h
  split at h
  · cases h
  · next hended =>
    simp only [Prod.mk.injEq, Option.some.injEq] at h
    obtain ⟨hpull, rfl⟩ := h
    simp only [remaining, hended, hpull]
    cases pull with
    | error e => simp [isLast]
    | ok token =>
      by_cases hk : token.kind = .endOfFile
      · simp [isLast, hk]
      · have hnext : lexer.cursor.next = (.ok token, lexer.cursor.next.2) := Prod.ext hpull rfl
        simpa [isLast, hk] using Cursor.length_next_lt hnext hk

/-- Everything that the iterator yields. -/
def collect (lexer : Lexer) : List Pull :=
  match _h : lexer.next? with
  | (none, _) => []
  | (some pull, after) => pull :: after.collect
termination_by lexer.remaining
decreasing_by exact remaining_next?_lt _h

end Lexer

end HttpSuite
