import HttpSuite.Program
import HttpSuite.Text.Escape

/-!
# Printing programs

The canonical source text of a program: one declaration a line, two blanks of indentation a level,
the base URL ahead of the headers, a blank line between blocks.

## Main definitions

* `Program.print`: the canonical source text.
-/

namespace HttpSuite

/-- A header line. -/
def Header.print (h : Header) : String :=
  "header " ++ Text.quote h.key ++ " = " ++ Text.quote h.value ++ ";"

/-- The literal of a value. -/
def Value.print : Value → String
  | text content => Text.quote content
  | integer value => toString value.toInt

/-- A variable declaration with its line end. -/
def Variable.print (v : Variable) : String :=
  "let " ++ v.name ++ " = " ++ v.value.print ++ ";\n"

/-- A configuration block with its line end. -/
def Config.print (config : Config) : String :=
  let base :=
    match config.baseUrl with
    | some url => "  base_url = " ++ Text.quote url ++ ";\n"
    | none => ""
  let headers := String.join (config.headers.map fun h => "  " ++ h.print ++ "\n")
  "config \x7b\n" ++ base ++ headers ++ "\x7d\n"

/-- A request with its line end. A request that has neither headers nor a body needs no block. -/
def Request.print (r : Request) : String :=
  let head := "  " ++ r.method.verb ++ " " ++ Text.quote r.url
  if r.headers.isEmpty && r.body.isNone then head ++ ";\n"
  else
    let headers := String.join (r.headers.map fun h => "    " ++ h.print ++ "\n")
    let body :=
      match r.body with
      | some content => "    body = " ++ Text.quote content ++ ";\n"
      | none => ""
    head ++ " \x7b\n" ++ headers ++ body ++ "  \x7d;\n"

/-- An assertion. -/
def Assertion.print : Assertion → String
  | statusEquals code => "expect status = " ++ toString code.toInt ++ ";"
  | headerEquals key value =>
    "expect header " ++ Text.quote key ++ " = " ++ Text.quote value ++ ";"
  | headerContains key value =>
    "expect header " ++ Text.quote key ++ " contains " ++ Text.quote value ++ ";"
  | bodyContains value => "expect body contains " ++ Text.quote value ++ ";"

/-- A statement with its line end. -/
def Statement.print : Statement → String
  | request r => r.print
  | assertion a => "  " ++ a.print ++ "\n"

/-- A test with its line end. -/
def Test.print (t : Test) : String :=
  "test " ++ t.name ++ " \x7b\n" ++ String.join (t.statements.map Statement.print) ++ "\x7d\n"

/-- The variable declarations with a blank line after them, if there are any. -/
def Variable.printAll (declared : List Variable) : String :=
  if declared.isEmpty then "" else String.join (declared.map Variable.print) ++ "\n"

/-- The canonical source text of a program. -/
def Program.print (p : Program) : String :=
  let config :=
    match p.config with
    | some config => config.print ++ "\n"
    | none => ""
  config ++ Variable.printAll p.declarations ++ "\n".intercalate (p.tests.map Test.print)

end HttpSuite
