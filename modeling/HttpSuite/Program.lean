import HttpSuite.Method

/-!
# Programs

A program of the suite language: an optional configuration, variables, and tests made of requests
and assertions.

## Main definitions

* `Program` and its parts.
* `Value.asText`, `Program.baseUrl?`, `Program.defaultHeaders`, `Program.requests`,
  `Test.requests`, `Test.assertions`: what the later stages ask of a program.
* `isStatusCode`: the codes that an assertion may expect.
-/

namespace HttpSuite

/-- A header of a request or of the configuration. -/
structure Header where
  key : String
  value : String
deriving DecidableEq, Repr

/-- The value of a variable. -/
inductive Value where
  | text (content : String)
  | integer (value : Int64)
deriving DecidableEq, Repr

namespace Value

/-- The value as it is put in the place of a placeholder. -/
def asText : Value → String
  | text content => content
  | integer value => toString value.toInt

end Value

/-- A variable declaration. -/
structure Variable where
  name : String
  value : Value
deriving DecidableEq, Repr

/-- A request. The body of a method that sends none is kept but has no effect. -/
structure Request where
  method : Method
  url : String
  headers : List Header := []
  body : Option String := none
deriving DecidableEq, Repr

/-- What is expected of the latest response. -/
inductive Assertion where
  | statusEquals (code : Int64)
  | headerEquals (key value : String)
  | headerContains (key value : String)
  | bodyContains (value : String)
deriving DecidableEq, Repr

/-- A statement of a test. -/
inductive Statement where
  | request (r : Request)
  | assertion (a : Assertion)
deriving DecidableEq, Repr

namespace Statement

/-- The request that the statement makes. -/
def request? : Statement → Option Request
  | request r => some r
  | assertion _ => none

/-- The assertion that the statement makes. -/
def assertion? : Statement → Option Assertion
  | request _ => none
  | assertion a => some a

end Statement

/-- A named test. -/
structure Test where
  name : String
  statements : List Statement
deriving DecidableEq, Repr

namespace Test

/-- The requests of a test, in order. -/
def requests (t : Test) : List Request := t.statements.filterMap Statement.request?

/-- The assertions of a test, in order. -/
def assertions (t : Test) : List Assertion := t.statements.filterMap Statement.assertion?

end Test

/-- The settings that all tests of a program share. -/
structure Config where
  baseUrl : Option String := none
  headers : List Header := []
deriving DecidableEq, Repr

/-- A program of the suite language. -/
structure Program where
  config : Option Config := none
  declarations : List Variable := []
  tests : List Test := []
deriving DecidableEq, Repr

namespace Program

/-- The base URL that the program sets. -/
def baseUrl? (p : Program) : Option String := p.config.bind (·.baseUrl)

/-- The headers that every request of the program sends, in order and with repetitions. -/
def defaultHeaders (p : Program) : List Header :=
  match p.config with
  | some config => config.headers
  | none => []

/-- The requests of all tests, in order. -/
def requests (p : Program) : List Request := p.tests.flatMap Test.requests

end Program

/-- The least status code of HTTP. -/
def minStatusCode : Int64 := 100

/-- The greatest status code of HTTP. -/
def maxStatusCode : Int64 := 599

/-- Whether a number is a status code of HTTP. -/
def isStatusCode (code : Int64) : Bool := minStatusCode ≤ code && code ≤ maxStatusCode

end HttpSuite
