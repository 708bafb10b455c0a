import HttpSuite.Program
import HttpSuite.Program.Reader.Basic

/-!
# Reading programs

One token decides each step of the grammar:

```text
program   := config? variable* test+
config    := 'config' '{' (base | header)* '}'
base      := 'base_url' '=' STRING ';'
header    := 'header' STRING '=' STRING ';'
variable  := 'let' NAME '=' (STRING | NUMBER) ';'
test      := 'test' NAME '{' statement+ '}'
statement := request | assertion
request   := ('GET' | 'POST' | 'PUT' | 'DELETE') STRING (';' | '{' header* body? '}' ';')
body      := 'body' '=' STRING ';'
assertion := 'expect' ( 'status' '=' NUMBER
                      | 'header' STRING ('=' | 'contains') STRING
                      | 'body' 'contains' STRING ) ';'
```

## Main definitions

* `Reader.program`: one whole program from where the reader stands.
* `ReaderState.read`: the same, with the state that is left.
* `Program.parse`: the program that a source text is.
-/

namespace HttpSuite

/-! ## Configuration -/

/-- A line of a configuration block. -/
inductive ConfigLine where
  | baseUrl (url : String)
  | header (h : Header)
deriving DecidableEq, Repr

namespace ConfigLine

/-- The base URL that the line sets. -/
def baseUrl? : ConfigLine → Option String
  | baseUrl url => some url
  | header _ => none

/-- The header that the line adds. -/
def header? : ConfigLine → Option Header
  | baseUrl _ => none
  | header h => some h

end ConfigLine

/-- The configuration that its lines make: the headers in order, and the last base URL. -/
def Config.ofLines (lines : List ConfigLine) : Config where
  baseUrl := (lines.filterMap ConfigLine.baseUrl?).getLast?
  headers := lines.filterMap ConfigLine.header?

namespace Reader

/-- Reads a header line. -/
def header : Reader Header := do
  advance
  let key ← string .headerName
  mark .equals .afterHeaderName
  let value ← string .headerValue
  mark .semicolon .afterHeader
  return ⟨key, value⟩

theorem shrinks_header : Shrinks header :=
  shrinks_advance.bind fun _ =>
  (bounded_string _).bind fun _ =>
  (bounded_mark _ _).bind fun _ =>
  (bounded_string _).bind fun _ =>
  (bounded_mark _ _).bind fun _ => bounded_pure _

/-- Reads the line of a base URL. -/
def baseUrl : Reader String := do
  advance
  mark .equals .afterBaseUrlWord
  let url ← string .baseUrl
  mark .semicolon .afterBaseUrl
  return url

theorem shrinks_baseUrl : Shrinks baseUrl :=
  shrinks_advance.bind fun _ =>
  (bounded_mark _ _).bind fun _ =>
  (bounded_string _).bind fun _ =>
  (bounded_mark _ _).bind fun _ => bounded_pure _

/-- Reads a line of a configuration block. -/
def configLine : Reader ConfigLine := do
  if (← peek) = .keyword .baseUrl then return .baseUrl (← baseUrl)
  else return .header (← header)

theorem shrinks_configLine : Shrinks configLine := by
  refine .peek_bind fun kind => ?_
  split
  · exact shrinks_baseUrl.bind fun _ => bounded_pure _
  · exact shrinks_header.bind fun _ => bounded_pure _

/-- Header lines. -/
def headers : Item Header where
  starts kind := kind == .keyword .header
  read := header
  shrinks _ _ _ hs h := shrinks_header (by rw [eq_of_beq hs]; nofun) h

/-- Lines of a configuration block. -/
def configLines : Item ConfigLine where
  starts kind := kind == .keyword .baseUrl || kind == .keyword .header
  read := configLine
  shrinks _ _ _ hs h :=
    shrinks_configLine (by rintro hk; rw [hk] at hs; exact absurd hs (by decide)) h

/-- Reads the end of a configuration block. -/
def configEnd : Reader Unit := do
  if (← peek) = .rightBrace then advance else refuse .noConfigLine

/-- Reads a configuration block. -/
def config : Reader Config := do
  advance
  mark .leftBrace .afterConfigWord
  let lines ← many configLines
  configEnd
  return .ofLines lines

/-- Reads the configuration, if there is one. -/
def config? : Reader (Option Config) := do
  if (← peek) = .keyword .config then return some (← config) else return none

/-! ## Variables -/

/-- Reads the value of a variable. -/
def value : Reader Value := do
  match ← peek with
  | .string content => advance; return .text content
  | .number n => advance; return .integer n
  | _ => refuse .noVariableValue

theorem bounded_value : Bounded value := by
  refine .peek_bind fun kind => ?_
  split
  · exact bounded_advance.bind fun _ => bounded_pure _
  · exact bounded_advance.bind fun _ => bounded_pure _
  · exact bounded_refuse _

/-- Reads a variable declaration. -/
def declaration : Reader Variable := do
  advance
  let name ← name .variableName
  mark .equals .afterVariableName
  let value ← value
  mark .semicolon .afterVariable
  return ⟨name, value⟩

theorem shrinks_declaration : Shrinks declaration :=
  shrinks_advance.bind fun _ =>
  (bounded_name _).bind fun _ =>
  (bounded_mark _ _).bind fun _ =>
  bounded_value.bind fun _ =>
  (bounded_mark _ _).bind fun _ => bounded_pure _

/-- Variable declarations. -/
def declarations : Item Variable where
  starts kind := kind == .keyword .declare
  read := declaration
  shrinks _ _ _ hs h := shrinks_declaration (by rw [eq_of_beq hs]; nofun) h

/-! ## Requests -/

/-- Reads a body line, if there is one. -/
def body? : Reader (Option String) := do
  if (← peek) = .keyword .body then
    advance
    mark .equals .afterBodyWord
    let content ← string .requestBody
    mark .semicolon .afterRequestBody
    return some content
  else
    return none

theorem bounded_body? : Bounded body? := by
  refine .peek_bind fun kind => ?_
  split
  · exact bounded_advance.bind fun _ =>
      (bounded_mark _ _).bind fun _ =>
      (bounded_string _).bind fun _ =>
      (bounded_mark _ _).bind fun _ => bounded_pure _
  · exact bounded_pure _

/-- Reads what follows the URL of a request. -/
def requestEnd (method : Method) (url : String) : Reader Request := do
  match ← peek with
  | .semicolon => advance; return { method, url }
  | .leftBrace =>
    advance
    let headers ← many headers
    let body ← body?
    mark .rightBrace .atRequestEnd
    mark .semicolon .afterRequestBlock
    return { method, url, headers, body }
  | _ => refuse .noRequestEnd

theorem bounded_requestEnd (method : Method) (url : String) : Bounded (requestEnd method url) := by
  refine .peek_bind fun kind => ?_
  split
  · exact bounded_advance.bind fun _ => bounded_pure _
  · exact bounded_advance.bind fun _ =>
      (bounded_many _).bind fun _ =>
      bounded_body?.bind fun _ =>
      (bounded_mark _ _).bind fun _ =>
      (bounded_mark _ _).bind fun _ => bounded_pure _
  · exact bounded_refuse _

/-- Reads a request whose method is the token under decision. -/
def request (method : Method) : Reader Request := do
  advance
  let url ← string .requestUrl
  requestEnd method url

theorem shrinks_request (method : Method) : Shrinks (request method) :=
  shrinks_advance.bind fun _ =>
  (bounded_string _).bind fun _ => bounded_requestEnd _ _

/-! ## Assertions -/

/-- Reads the number of a status assertion. A number that is no status code is refused. -/
def statusCode : Reader Int64 := do
  match ← peek with
  | .number code =>
    if isStatusCode code then advance; return code else refuse (.statusOutOfRange code)
  | _ => refuse (.noNumber .statusCode)

theorem bounded_statusCode : Bounded statusCode := by
  refine .peek_bind fun kind => ?_
  split
  · split
    · exact bounded_advance.bind fun _ => bounded_pure _
    · exact bounded_refuse _
  · exact bounded_refuse _

/-- Reads what follows the header name of a header assertion. -/
def headerRelation (key : String) : Reader Assertion := do
  match ← peek with
  | .equals =>
    advance
    let value ← string .headerValue
    return .headerEquals key value
  | .keyword .contains =>
    advance
    let value ← string .headerSubstring
    return .headerContains key value
  | _ => refuse .noHeaderRelation

theorem bounded_headerRelation (key : String) : Bounded (headerRelation key) := by
  refine .peek_bind fun kind => ?_
  split
  · exact bounded_advance.bind fun _ => (bounded_string _).bind fun _ => bounded_pure _
  · exact bounded_advance.bind fun _ => (bounded_string _).bind fun _ => bounded_pure _
  · exact bounded_refuse _

/-- Reads what follows the word that opens an assertion. -/
def expectation : Reader Assertion := do
  match ← peek with
  | .keyword .status =>
    advance
    mark .equals .afterStatusWord
    let code ← statusCode
    return .statusEquals code
  | .keyword .header =>
    advance
    let key ← string .headerName
    headerRelation key
  | .keyword .body =>
    advance
    mark (.keyword .contains) .afterBodyWord
    let value ← string .bodySubstring
    return .bodyContains value
  | _ => refuse .noAssertion

theorem bounded_expectation : Bounded expectation := by
  refine .peek_bind fun kind => ?_
  split
  · exact bounded_advance.bind fun _ =>
      (bounded_mark _ _).bind fun _ =>
      bounded_statusCode.bind fun _ => bounded_pure _
  · exact bounded_advance.bind fun _ =>
      (bounded_string _).bind fun _ => bounded_headerRelation _
  · exact bounded_advance.bind fun _ =>
      (bounded_mark _ _).bind fun _ =>
      (bounded_string _).bind fun _ => bounded_pure _
  · exact bounded_refuse _

/-- Reads an assertion. -/
def assertion : Reader Assertion := do
  advance
  let a ← expectation
  mark .semicolon .afterAssertion
  return a

theorem shrinks_assertion : Shrinks assertion :=
  shrinks_advance.bind fun _ =>
  bounded_expectation.bind fun _ =>
  (bounded_mark _ _).bind fun _ => bounded_pure _

/-! ## Tests -/

/-- Reads a statement. -/
def statement : Reader Statement := do
  match ← peek with
  | .keyword (.method m) => return .request (← request m)
  | .keyword .expect => return .assertion (← assertion)
  | _ => refuse .noStatement

/-- The end of the text is no statement, so every statement shrinks what is left. -/
theorem remaining_statement {s after : ReaderState} {a : Statement}
    (h : statement s = .ok a after) : after.remaining < s.remaining := by
  have hs : s.current.kind ≠ .endOfFile := by
    intro hk
    simp only [statement, peek, bind, EStateM.bind, hk] at h
    cases h
  have shrinks : Shrinks statement := by
    refine .peek_bind fun kind => ?_
    split
    · exact (shrinks_request _).bind fun _ => bounded_pure _
    · exact shrinks_assertion.bind fun _ => bounded_pure _
    · exact shrinks_refuse _
  exact shrinks hs h

/-- The statements of a test. -/
def statements : Item Statement where
  starts kind := kind != .rightBrace
  read := statement
  shrinks _ _ _ _ h := remaining_statement h

/-- Refuses a test without statements. -/
def someStatement (statements : List Statement) : Reader Unit :=
  if statements.isEmpty then refuse .emptyTest else pure ()

theorem bounded_someStatement (statements : List Statement) :
    Bounded (someStatement statements) := by
  unfold someStatement
  split
  · exact bounded_refuse _
  · exact bounded_pure _

/-- Reads a test. -/
def test : Reader Test := do
  advance
  let name ← name .testName
  mark .leftBrace .afterTestName
  let statements ← many statements
  someStatement statements
  mark .rightBrace .atTestEnd
  return ⟨name, statements⟩

theorem shrinks_test : Shrinks test :=
  shrinks_advance.bind fun _ =>
  (bounded_name _).bind fun _ =>
  (bounded_mark _ _).bind fun _ =>
  (bounded_many _).bind fun _ =>
  (bounded_someStatement _).bind fun _ =>
  (bounded_mark _ _).bind fun _ => bounded_pure _

/-- The tests of a program. -/
def tests : Item Test where
  starts kind := kind == .keyword .test
  read := test
  shrinks _ _ _ hs h := shrinks_test (by rw [eq_of_beq hs]; nofun) h

/-! ## Programs -/

/-- Refuses the token after the last test, unless it is the end of the text and there are tests. -/
def finish (tests : List Test) : Reader Unit := do
  match ← peek with
  | .endOfFile => if tests.isEmpty then refuse .noTests else pure ()
  | .keyword .config => refuse .configNotFirst
  | .keyword .declare => refuse (if tests.isEmpty then .noTestBlock else .variableAfterTest)
  | _ => refuse .noTestBlock

/-- Reads a program. -/
def program : Reader Program := do
  let config ← config?
  let declarations ← many declarations
  let tests ← many tests
  finish tests
  return { config, declarations, tests }

end Reader

/-- Reads one program from where the reader stands. -/
def ReaderState.read (s : ReaderState) : Except SourceError Program × ReaderState :=
  match Reader.program s with
  | .ok p after => (.ok p, after)
  | .error e after => (.error e, after)

/-- The program that a source text is. -/
def Program.parse (source : String) : Except SourceError Program :=
  match ReaderState.ofString source with
  | .ok s => s.read.1
  | .error e => .error (.lex e)

end HttpSuite
