import HttpSuite.Resolved

/-!
# Dialects and drafts

A generated suite is written piece by piece: an opening, a set-up, the tests one by one, a close. A
dialect says what each piece looks like; a draft is the text written so far. The only thing a draft
remembers beside its text is whether the present test has made a request yet, because the first
request of a test declares what later ones reuse.

## Main definitions

* `Dialect`: the text of each piece.
* `Draft`, `Piece`, `Draft.write`: the text so far, and one more piece.
* `Dialect.suite`: the text of a whole program.
-/

namespace HttpSuite

/-- How long a connection may take, in seconds. -/
def connectTimeout : Nat := 5

/-- How long a request may take, in seconds. -/
def requestTimeout : Nat := 10

/-- What comes before the name of a test in the name of its function. -/
def testNameStart : String := "test_"

/-- Lines of text, each with its line end. -/
def unlines (lines : List String) : String := String.join (lines.map (· ++ "\n"))

/-- The concrete text of a suite in one test framework, in lines. -/
structure Dialect where
  /-- What opens the suite. -/
  preamble : Resolved.Shared → List String
  /-- What prepares the client that all tests share. -/
  setup : Resolved.Shared → List String
  /-- What opens the test function of a name. -/
  beginTest : String → List String
  /-- A request; the flag says whether it is the first of its test. -/
  request : Bool → Resolved.Request → List String
  /-- An assertion about the latest response. -/
  assertion : Resolved.Assertion → String
  /-- What closes a test function. -/
  endTest : List String
  /-- The finished text, from the text so far. -/
  finish : String → String

/-- A piece of a suite. -/
inductive Piece where
  | preamble (shared : Resolved.Shared)
  | setup (shared : Resolved.Shared)
  | beginTest (functionName : String)
  | request (r : Resolved.Request)
  | assertion (a : Resolved.Assertion)
  | endTest
  | finish
deriving DecidableEq, Repr

/-- A suite in the making. -/
structure Draft where
  text : String := ""
  /-- Whether no request was written since the present test began. -/
  fresh : Bool := true
deriving DecidableEq, Repr

namespace Draft

/-- The draft with more lines at its end. -/
def append (draft : Draft) (lines : List String) : Draft :=
  { draft with text := draft.text ++ unlines lines }

/-- Writes one piece. -/
def write (dialect : Dialect) (draft : Draft) : Piece → Draft
  | .preamble shared => draft.append (dialect.preamble shared)
  | .setup shared => draft.append (dialect.setup shared)
  | .beginTest functionName => { draft.append (dialect.beginTest functionName) with fresh := true }
  | .request r => { draft.append (dialect.request draft.fresh r) with fresh := false }
  | .assertion a => draft.append [dialect.assertion a]
  | .endTest => draft.append dialect.endTest
  | .finish => { draft with text := dialect.finish draft.text }

/-- Writes pieces in order. -/
def writeAll (dialect : Dialect) (draft : Draft) (pieces : List Piece) : Draft :=
  pieces.foldl (write dialect) draft

end Draft

/-- The piece that a statement makes. -/
def Resolved.Statement.piece : Resolved.Statement → Piece
  | request r => .request r
  | assertion a => .assertion a

/-- The pieces of a test. -/
def Test.pieces (s : Substitution) (t : Test) : List Piece :=
  .beginTest (testNameStart ++ t.name)
    :: (t.statements.map fun statement => (statement.resolve s).piece) ++ [.endTest]

/-- The pieces of a program's suite. -/
def Program.pieces (p : Program) : List Piece :=
  let s := Substitution.ofVariables p.declarations
  [.preamble p.shared, .setup p.shared] ++ p.tests.flatMap (Test.pieces s) ++ [.finish]

/-- The suite of a program, as text. -/
def Dialect.suite (dialect : Dialect) (p : Program) : String :=
  (Draft.writeAll dialect {} p.pieces).text

end HttpSuite
