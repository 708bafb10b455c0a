import HttpSuite.Substitution
import HttpSuite.Text.Escape

/-!
# Resolved statements

The statements of a program with placeholders filled and every text escaped, ready to be written
between the quotes of a literal in any dialect.

## Main definitions

* `Resolved.Shared`, `Resolved.Request`, `Resolved.Assertion`, `Resolved.Statement`.
* `Program.shared`, `Request.resolve`, `Assertion.resolve`, `Statement.resolve`: resolving.
-/

namespace HttpSuite

namespace Resolved

/-- A header as two escaped texts. -/
abbrev Pair := String × String

/-- What all tests of a suite share. -/
structure Shared where
  baseUrl : String
  headers : List Pair := []
deriving DecidableEq, Repr

/-- Where a request goes. A path is joined to the base URL when the suite runs. -/
inductive Url where
  | relative (path : String)
  | absolute (url : String)
deriving DecidableEq, Repr

/-- What a request sends: nothing if its method sends no body, and an empty body if it does but
none is declared. -/
inductive Body where
  | none
  | empty
  | text (content : String)
deriving DecidableEq, Repr

/-- A resolved request. -/
structure Request where
  method : Method
  url : Url
  body : Body
  headers : List Pair := []
deriving DecidableEq, Repr

/-- A resolved assertion. -/
inductive Assertion where
  | statusEquals (code : Int64)
  | headerEquals (key value : String)
  | headerContains (key value : String)
  | bodyContains (value : String)
deriving DecidableEq, Repr

/-- A resolved statement. -/
inductive Statement where
  | request (r : Request)
  | assertion (a : Assertion)
deriving DecidableEq, Repr

end Resolved

/-- The base URL of a program that sets none. -/
def defaultBaseUrl : String := "http://localhost:8080"

/-- A header is escaped; placeholders in it are left alone. -/
def Header.resolve (h : Header) : Resolved.Pair := (Text.escape h.key, Text.escape h.value)

/-- What the configuration of a program gives to all its tests. -/
def Program.shared (p : Program) : Resolved.Shared where
  baseUrl := Text.escape (p.baseUrl?.getD defaultBaseUrl)
  headers := p.defaultHeaders.map Header.resolve

/-- A text with its placeholders filled, escaped. -/
def Substitution.literal (s : Substitution) (text : String) : String := Text.escape (s.apply text)

/-- Resolves a URL. It is a path if it starts with a slash once its placeholders are filled. -/
def Substitution.url (s : Substitution) (url : String) : Resolved.Url :=
  let url := s.apply url
  if url.toList.head? = some '/' then .relative (Text.escape url) else .absolute (Text.escape url)

/-- Resolves a body. -/
def Substitution.body (s : Substitution) (method : Method) (body : Option String) :
    Resolved.Body :=
  if method.carriesBody then
    match body with
    | some content => .text (s.literal content)
    | none => .empty
  else .none

/-- Resolves a request. -/
def Request.resolve (s : Substitution) (r : Request) : Resolved.Request where
  method := r.method
  url := s.url r.url
  body := s.body r.method r.body
  headers := r.headers.map Header.resolve

/-- Resolves an assertion. -/
def Assertion.resolve (s : Substitution) : Assertion → Resolved.Assertion
  | statusEquals code => .statusEquals code
  | headerEquals key value => .headerEquals (s.literal key) (s.literal value)
  | headerContains key value => .headerContains (s.literal key) (s.literal value)
  | bodyContains value => .bodyContains (s.literal value)

/-- Resolves a statement. -/
def Statement.resolve (s : Substitution) : Statement → Resolved.Statement
  | request r => .request (r.resolve s)
  | assertion a => .assertion (a.resolve s)

end HttpSuite
