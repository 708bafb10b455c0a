/-!
# Lexical errors

What can be wrong with the characters of a source text before any grammar is asked, and how such
an error is worded.

## Main definitions

* `LexError.Cause`: the ways in which no token can be read.
* `LexError`: a cause and the place it points at.
* `LexError.snippet`, `LexError.message`: the quoted text, shortened, and the full wording.
-/

namespace HttpSuite

namespace LexError

/-- Why no token can be read. -/
inductive Cause where
  | illegalCharacter (c : Char)
  | digitLedWord (word : String)
  | numberOutOfRange (digits : String)
  | unterminatedString (text : String)
  | unknownEscape (c : Char)
deriving DecidableEq, Repr

namespace Cause

/-- The wording of a cause, without its place. -/
def detail : Cause → String
  | illegalCharacter c => "Illegal character '" ++ String.singleton c ++ "'"
  | digitLedWord word =>
    "Invalid identifier '" ++ word ++ "': identifiers cannot start with a digit"
  | numberOutOfRange digits => "Number out of range: " ++ digits
  | unterminatedString _ => "Unterminated string"
  | unknownEscape c => "Invalid escape sequence '\\" ++ String.singleton c ++ "'"

/-- The source text that a cause is about. -/
def text : Cause → String
  | illegalCharacter c => String.singleton c
  | digitLedWord word => word
  | numberOutOfRange digits => digits
  | unterminatedString text => text
  | unknownEscape c => "\\" ++ String.singleton c

end Cause

/-- The longest quotation, in characters, that a message repeats in full. -/
def snippetLimit : Nat := 20

/-- A quotation on one line: cut at the limit, with its line and tab controls spelled out. -/
def snippetOf (text : String) : String :=
  let kept := text.toList.take snippetLimit
  let cut := if snippetLimit < text.toList.length then "..." else ""
  let spell (c : Char) : String :=
    if c = '\n' then "\\n" else if c = '\r' then "\\r" else if c = '\t' then "\\t"
    else String.singleton c
  String.join (kept.map spell) ++ cut

/-- The wording of a lexical error. The quotation is left out when there is none. -/
def describe (detail : String) (line column : Nat) (text : String) : String :=
  let head := "Lexer error at line " ++ toString line ++ ", column " ++ toString column ++ ": "
    ++ detail
  if text.isEmpty then head else head ++ "\n  Near: '" ++ snippetOf text ++ "'"

end LexError

/-- A place in a source text where no token can be read. -/
structure LexError where
  cause : LexError.Cause
  line : Nat
  column : Nat
deriving DecidableEq, Repr

namespace LexError

/-- The wording of the cause. -/
def detail (e : LexError) : String := e.cause.detail

/-- The source text that the error quotes. -/
def text (e : LexError) : String := e.cause.text

/-- The quoted text as the message shows it. -/
def snippet (e : LexError) : String := snippetOf e.text

/-- The full wording. -/
def message (e : LexError) : String := describe e.detail e.line e.column e.text

end LexError

end HttpSuite
