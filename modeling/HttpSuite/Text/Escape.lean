/-!
# Escaped text

Five characters cannot stand in a double-quoted literal as they are: the backslash, the quote, and
the three line and tab controls. Each is written as a backslash and a letter. The same five escapes
serve the suite language and both generated dialects, so one table holds them.

## Main definitions

* `escapes`: the table, in the order in which the passes over a text apply it.
* `escape`: a text as the inside of a literal.
* `quote`: the literal with its quotes.
* `unescape?`: the character that an escape letter stands for.
-/

namespace HttpSuite.Text

/-- Each escaped character with the letter that follows the backslash. The backslash comes first:
a later pass writes backslashes of its own, which must not be doubled. -/
def escapes : List (Char × Char) :=
  [('\\', '\\'), ('"', '"'), ('\n', 'n'), ('\r', 'r'), ('\t', 't')]

/-- Writes `written` for every `c` of a text. -/
def substituteChar (c : Char) (written : List Char) (text : List Char) : List Char :=
  text.flatMap fun x => if x = c then written else [x]

/-- One pass over the text for each entry of the table. -/
def escapeChars (text : List Char) : List Char :=
  escapes.foldl (fun text entry => substituteChar entry.1 ['\\', entry.2] text) text

/-- A text as it stands between the quotes of a literal. -/
def escape (text : String) : String := String.ofList (escapeChars text.toList)

/-- A text as a double-quoted literal. -/
def quote (text : String) : String := "\"" ++ escape text ++ "\""

/-- The character that a backslash and `letter` stand for, if that is an escape at all. -/
def unescape? (letter : Char) : Option Char :=
  (escapes.find? fun entry => entry.2 == letter).map (·.1)

end HttpSuite.Text
