import HttpSuite.Placeholder
import HttpSuite.Program

/-!
# Validation

The rules that a program keeps before a suite is generated from it, and the warnings that do not
stop it. The first rule broken is the one reported: the program has a test, and each test in turn
has a request, has enough assertions, and expects only status codes that exist.

## Main definitions

* `Violation`, `ValidationError`: a broken rule, and the test that breaks it.
* `Diagnostic`: a warning.
* `Program.unusedVariables`: warns of each variable that no request mentions.
* `Program.validate`: the warnings of a program that keeps the rules.
-/

namespace HttpSuite

/-- The fewest assertions that a test may make. -/
def minAssertions : Nat := 2

/-- A broken rule. -/
inductive Violation where
  | noTests
  | missingRequest
  | tooFewAssertions (found : Nat)
  | statusOutOfRange (code : Int64)
deriving DecidableEq, Repr

namespace Violation

/-- The wording of a broken rule. -/
def message : Violation → String
  | noTests => "Program must contain at least one test block"
  | missingRequest => "Test must contain at least one HTTP request (GET/POST/PUT/DELETE)"
  | tooFewAssertions found =>
    "Test must contain at least " ++ toString minAssertions ++ " assertions (found "
      ++ toString found ++ ")"
  | statusOutOfRange code =>
    "Expected status " ++ toString code.toInt ++ " is not an HTTP status code ("
      ++ toString minStatusCode.toInt ++ "-" ++ toString maxStatusCode.toInt ++ ")"

end Violation

/-- A broken rule, and the test that breaks it unless the whole program does. -/
structure ValidationError where
  rule : Violation
  testName : Option String
deriving DecidableEq, Repr

namespace ValidationError

/-- The full wording. -/
def message (e : ValidationError) : String :=
  let place :=
    match e.testName with
    | some name => " in test '" ++ name ++ "'"
    | none => ""
  "Validation error" ++ place ++ ": " ++ e.rule.message

end ValidationError

/-- A warning about a program. -/
inductive Diagnostic where
  | unusedVariable (name : String)
deriving DecidableEq, Repr

namespace Diagnostic

/-- The code of warnings about unused variables. -/
def unusedVariableCode : String := "unused_variable"

/-- The code by which a warning is known. -/
def code : Diagnostic → String
  | unusedVariable _ => unusedVariableCode

/-- The wording of a warning. -/
def message : Diagnostic → String
  | unusedVariable name => "Variable '" ++ name ++ "' is declared but never used"

/-- The line that reports a warning. -/
def display (d : Diagnostic) : String := "Warning: " ++ d.message

end Diagnostic

/-- Whether the URL or the body of a request mentions a variable. -/
def Request.mentions (r : Request) (name : String) : Bool :=
  Placeholder.mentions name.toList r.url.toList ||
    r.body.any fun body => Placeholder.mentions name.toList body.toList

/-- The first rule that a test breaks. -/
def Test.violation? (t : Test) : Option Violation :=
  if t.requests.isEmpty then some .missingRequest
  else if t.assertions.length < minAssertions then some (.tooFewAssertions t.assertions.length)
  else
    t.assertions.findSome? fun
      | .statusEquals code => if isStatusCode code then none else some (.statusOutOfRange code)
      | _ => none

namespace Program

/-- A warning for each declaration of a variable that no request mentions. -/
def unusedVariables (p : Program) : List Diagnostic :=
  (p.declarations.filter fun v => !p.requests.any fun r => r.mentions v.name).map fun v =>
    .unusedVariable v.name

/-- The first broken rule of a program. -/
def violation? (p : Program) : Option ValidationError :=
  if p.tests.isEmpty then some ⟨.noTests, none⟩
  else p.tests.findSome? fun t => t.violation?.map fun rule => ⟨rule, some t.name⟩

/-- The warnings of a program that keeps the rules, or the first rule that it breaks. -/
def validate (p : Program) : Except ValidationError (List Diagnostic) :=
  match p.violation? with
  | some e => .error e
  | none => .ok p.unusedVariables

end Program

end HttpSuite
