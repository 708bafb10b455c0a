import HttpSuite.Token.Lexer

/-!
# Token streams

Everything that pulling tokens from a cursor will ever yield. Pulling does not depend on who pulls,
so the outcomes can be listed once and for all. There are finitely many different ones: in the end
either the end of the text or a character that starts no token is met again and again.

## Main definitions

* `TokenStream`, `TokenStream.pop`: the outcomes in order, and taking the first of them.
* `TokenStream.ofCursor`: the outcomes of pulling from a cursor.
-/

namespace HttpSuite

/-- The outcomes of all pulls to come. -/
inductive TokenStream where
  /-- Every pull yields the end of the text. -/
  | ended (span : Span)
  /-- Every pull fails in the same way. -/
  | stuck (e : LexError)
  /-- The next pull has this outcome, and then the others follow. -/
  | more (pull : Pull) (others : TokenStream)

namespace TokenStream

/-- The outcome of the next pull, and the outcomes after it. -/
def pop : TokenStream → Pull × TokenStream
  | ended span => (.ok ⟨.endOfFile, span⟩, ended span)
  | stuck e => (.error e, stuck e)
  | more pull others => (pull, others)

/-- How many pulls it takes until all later ones are alike. -/
def length : TokenStream → Nat
  | ended _ | stuck _ => 0
  | more _ others => others.length + 1

/-- The stream of which every pull has this outcome. Only the end of the text and an error can be
pulled without moving on. -/
def forever : Pull → TokenStream
  | .ok token => ended token.span
  | .error e => stuck e

/-- The outcomes of pulling from a cursor. A pull that moves nothing is repeated by all later
ones. -/
def ofCursor (cursor : Cursor) : TokenStream :=
  if cursor.next.2.position.offset = cursor.position.offset then forever cursor.next.1
  else more cursor.next.1 (ofCursor cursor.next.2)
termination_by cursor.rest.length
decreasing_by exact Cursor.length_next_lt_of_offset_ne ‹_›

end TokenStream

end HttpSuite
