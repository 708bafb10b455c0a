import HttpSuite.Method
import HttpSuite.Text.Visible

/-!
# Tokens

The vocabulary of the suite language: reserved words, four marks, names, strings and numbers, and
the end of the text. Each token carries the span of source text it was read from.

## Main definitions

* `Keyword`, `Keyword.word`, `Keyword.ofWord?`: the reserved words and their spelling.
* `TokenKind`, `TokenKind.display`: what a token is, and how a message names it.
* `Token`: a kind and its span.
-/

namespace HttpSuite

/-- The reserved words. -/
inductive Keyword where
  | config
  | baseUrl
  | header
  | declare
  | test
  | method (m : Method)
  | expect
  | status
  | body
  | contains
deriving DecidableEq, Repr

namespace Keyword

/-- The spelling of a reserved word. -/
def word : Keyword → String
  | config => "config"
  | baseUrl => "base_url"
  | header => "header"
  | declare => "let"
  | test => "test"
  | method m => m.verb
  | expect => "expect"
  | status => "status"
  | body => "body"
  | contains => "contains"

/-- Every reserved word. -/
def all : List Keyword :=
  [ config, baseUrl, header, declare, test, method .get, method .post, method .put, method .delete
  , expect, status, body, contains ]

/-- The reserved word with this spelling. Case matters. -/
def ofWord? (text : String) : Option Keyword := all.find? fun k => k.word == text

/-- The request method that the word names. -/
def method? : Keyword → Option Method
  | method m => some m
  | _ => none

theorem mem_all (k : Keyword) : k ∈ all := by
  cases k with
  | method m => cases m <;> decide
  | _ => decide

end Keyword

/-- What a token is. -/
inductive TokenKind where
  | keyword (k : Keyword)
  | leftBrace
  | rightBrace
  | semicolon
  | equals
  | identifier (name : String)
  | string (content : String)
  | number (value : Int64)
  | endOfFile
deriving DecidableEq, Repr

namespace TokenKind

/-- The token that a word makes: a reserved word if it is one, and otherwise a name. -/
def ofWord (text : String) : TokenKind :=
  match Keyword.ofWord? text with
  | some k => keyword k
  | none => identifier text

/-- How a message names the token. -/
def display : TokenKind → String
  | keyword k => "'" ++ k.word ++ "'"
  | leftBrace => "'\x7b'"
  | rightBrace => "'\x7d'"
  | semicolon => "';'"
  | equals => "'='"
  | identifier name => "identifier '" ++ name ++ "'"
  | string content => "string " ++ Text.shown content
  | number value => "number " ++ toString value.toInt
  | endOfFile => "end of file"

end TokenKind

/-- The bytes of a source text that a token covers, and the line and column where it starts. -/
structure Span where
  start : Nat := 0
  stop : Nat := 0
  line : Nat := 1
  column : Nat := 1
deriving DecidableEq, Repr

/-- A token of a source text. -/
structure Token where
  kind : TokenKind
  span : Span
deriving DecidableEq, Repr

end HttpSuite
