import HttpSuite.Token
import HttpSuite.Token.Error

/-!
# Grammar errors

Where a source text leaves the grammar: the token that does not fit, and what was expected in its
place.

## Main definitions

* `ParseError.Role`: what a name, string or number would have been.
* `ParseError.Place`: where a mark would have stood.
* `ParseError.Cause`, `ParseError`: what was expected, and the token found instead.
* `SourceError`: a source text that does not read, for a lexical or a grammatical reason.
-/

namespace HttpSuite

namespace ParseError

/-- What a name, string or number stands for where it is expected. -/
inductive Role where
  | baseUrl
  | headerName
  | headerValue
  | variableName
  | testName
  | requestUrl
  | requestBody
  | statusCode
  | headerSubstring
  | bodySubstring
deriving DecidableEq, Repr

namespace Role

/-- The wording of a role. -/
def phrase : Role → String
  | baseUrl => "base URL"
  | headerName => "header name"
  | headerValue => "header value"
  | variableName => "variable name"
  | testName => "test name"
  | requestUrl => "request URL"
  | requestBody => "request body"
  | statusCode => "status code"
  | headerSubstring => "header substring"
  | bodySubstring => "body substring"

end Role

/-- Where a mark or word is expected. -/
inductive Place where
  | afterConfigWord
  | afterBaseUrlWord
  | afterBaseUrl
  | afterHeaderName
  | afterHeader
  | afterVariableName
  | afterVariable
  | afterTestName
  | atTestEnd
  | afterBodyWord
  | afterRequestBody
  | atRequestEnd
  | afterRequestBlock
  | afterStatusWord
  | afterAssertion
deriving DecidableEq, Repr

namespace Place

/-- The wording of a place. -/
def phrase : Place → String
  | afterConfigWord => "after 'config'"
  | afterBaseUrlWord => "after 'base_url'"
  | afterBaseUrl => "after base URL"
  | afterHeaderName => "after header name"
  | afterHeader => "after header"
  | afterVariableName => "after variable name"
  | afterVariable => "after variable declaration"
  | afterTestName => "after test name"
  | atTestEnd => "to close test block"
  | afterBodyWord => "after 'body'"
  | afterRequestBody => "after request body"
  | atRequestEnd => "to close request block"
  | afterRequestBlock => "after request block"
  | afterStatusWord => "after 'status'"
  | afterAssertion => "after assertion"

end Place

/-- What the grammar asks for where the offending token stands. -/
inductive Cause where
  | configNotFirst
  | variableAfterTest
  | noTestBlock
  | noTests
  | noConfigLine
  | noVariableValue
  | emptyTest
  | noStatement
  | noRequestEnd
  | noAssertion
  | noHeaderRelation
  | statusOutOfRange (code : Int64)
  | missing (kind : TokenKind) (place : Place)
  | noString (role : Role)
  | noIdentifier (role : Role)
  | noNumber (role : Role)
deriving DecidableEq, Repr

namespace Cause

/-- The wording of a cause, without its place. -/
def detail : Cause → String
  | configNotFirst => "config block must appear once, before any declaration"
  | variableAfterTest => "variable declarations must precede test blocks"
  | noTestBlock => "expected 'test' block"
  | noTests => "expected at least one 'test' block"
  | noConfigLine => "expected 'base_url', 'header' or '\x7d' in config block"
  | noVariableValue => "expected string or number as variable value"
  | emptyTest => "test block must contain at least one statement"
  | noStatement => "expected request (GET/POST/PUT/DELETE) or 'expect' assertion"
  | noRequestEnd => "expected ';' or '\x7b' after request URL"
  | noAssertion => "expected 'status', 'header' or 'body' after 'expect'"
  | noHeaderRelation => "expected '=' or 'contains' after header name"
  | statusOutOfRange code => "status code " ++ toString code.toInt ++ " is outside 100-599"
  | missing kind place => "expected " ++ kind.display ++ " " ++ place.phrase
  | noString role => "expected string as " ++ role.phrase
  | noIdentifier role => "expected identifier as " ++ role.phrase
  | noNumber role => "expected number as " ++ role.phrase

end Cause

/-- The wording of a grammar error. The context is left out when there is none. -/
def describe (detail : String) (line : Nat) (context : Option String) : String :=
  let head := "Parse error at line " ++ toString line ++ ": " ++ detail
  match context with
  | some context => if context.isEmpty then head else head ++ "\n  Context: " ++ context
  | none => head

end ParseError

/-- A token that the grammar does not allow where it stands. -/
structure ParseError where
  cause : ParseError.Cause
  found : Token
deriving DecidableEq, Repr

namespace ParseError

/-- The wording of the cause. -/
def detail (e : ParseError) : String := e.cause.detail

/-- The line of the offending token. -/
def line (e : ParseError) : Nat := e.found.span.line

/-- The column of the offending token. -/
def column (e : ParseError) : Nat := e.found.span.column

/-- What was found, in words. -/
def context (e : ParseError) : String := "found " ++ e.found.kind.display

/-- The full wording. -/
def message (e : ParseError) : String := describe e.detail e.line (some e.context)

end ParseError

/-- Why a source text is no program. -/
inductive SourceError where
  | lex (e : LexError)
  | parse (e : ParseError)
deriving DecidableEq, Repr

namespace SourceError

/-- The full wording. -/
def message : SourceError → String
  | lex e => e.message
  | parse e => e.message

end SourceError

end HttpSuite
