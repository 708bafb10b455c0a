import HttpSuite.Program

/-!
# Outlines

A program as indented JSON text, for a reader who wants to see what was understood.

## Main definitions

* `Outline`: the values of JSON that outlines use.
* `Outline.render`: indented text, two blanks a level.
* `Program.outline`, `Program.describe`: the outline of a program, and its text.
-/

namespace HttpSuite

/-- A value of JSON. -/
inductive Outline where
  | null
  | number (n : Int)
  | text (content : String)
  | list (items : List Outline)
  | record (fields : List (String × Outline))

namespace Outline

/-- One character inside a JSON string. -/
def escapeChar (c : Char) : String :=
  if c = '"' then "\\\""
  else if c = '\\' then "\\\\"
  else if c = '\n' then "\\n"
  else if c = '\r' then "\\r"
  else if c = '\t' then "\\t"
  else if c = '\x08' then "\\b"
  else if c = '\x0c' then "\\f"
  else if c.toNat < 0x20 then
    "\\u00" ++ String.ofList [Nat.digitChar (c.toNat / 16), Nat.digitChar (c.toNat % 16)]
  else String.singleton c

/-- A JSON string. -/
def quoteText (content : String) : String :=
  "\"" ++ String.join (content.toList.map escapeChar) ++ "\""

/-- A line end and the indentation of a level. -/
def newline (level : Nat) : String := "\n" ++ String.ofList (List.replicate (2 * level) ' ')

/-- Parts between brackets, one a line at the level inside; nothing between them if there are
none. -/
def bracket (opening closing : String) (level : Nat) (parts : List String) : String :=
  if parts.isEmpty then opening ++ closing
  else opening ++ newline (level + 1) ++ ("," ++ newline (level + 1)).intercalate parts
    ++ newline level ++ closing

mutual

/-- The text of a value that stands at a level of indentation. -/
def render (level : Nat) : Outline → String
  | null => "null"
  | number n => toString n
  | text content => quoteText content
  | list items => bracket "[" "]" level (renderItems (level + 1) items)
  | record fields => bracket "\x7b" "\x7d" level (renderFields (level + 1) fields)

/-- The texts of the items of a list. -/
def renderItems (level : Nat) : List Outline → List String
  | [] => []
  | item :: items => render level item :: renderItems level items

/-- The texts of the fields of a record. -/
def renderFields (level : Nat) : List (String × Outline) → List String
  | [] => []
  | (key, value) :: fields =>
    (quoteText key ++ ": " ++ render level value) :: renderFields level fields

end

/-- A text or nothing. -/
def ofText? : Option String → Outline
  | some content => text content
  | none => null

end Outline

/-- The name that a method has in outlines. -/
def Method.label : Method → String
  | get => "Get"
  | post => "Post"
  | put => "Put"
  | delete => "Delete"

/-- The outline of a header. -/
def Header.outline (h : Header) : Outline :=
  .record [("key", .text h.key), ("value", .text h.value)]

/-- The outline of a value. -/
def Value.outline : Value → Outline
  | text content => .record [("Text", .text content)]
  | integer value => .record [("Integer", .number value.toInt)]

/-- The outline of a variable. -/
def Variable.outline (v : Variable) : Outline :=
  .record [("name", .text v.name), ("value", v.value.outline)]

/-- The outline of a request. -/
def Request.outline (r : Request) : Outline :=
  .record [("method", .text r.method.label), ("url", .text r.url),
    ("headers", .list (r.headers.map Header.outline)), ("body", .ofText? r.body)]

/-- The outline of an assertion. -/
def Assertion.outline : Assertion → Outline
  | statusEquals code => .record [("StatusEquals", .record [("code", .number code.toInt)])]
  | headerEquals key value =>
    .record [("HeaderEquals", .record [("key", .text key), ("value", .text value)])]
  | headerContains key value =>
    .record [("HeaderContains", .record [("key", .text key), ("value", .text value)])]
  | bodyContains value => .record [("BodyContains", .record [("value", .text value)])]

/-- The outline of a statement. -/
def Statement.outline : Statement → Outline
  | request r => .record [("Request", r.outline)]
  | assertion a => .record [("Assertion", a.outline)]

/-- The outline of a test. -/
def Test.outline (t : Test) : Outline :=
  .record [("name", .text t.name), ("statements", .list (t.statements.map Statement.outline))]

/-- The outline of a configuration. -/
def Config.outline (config : Config) : Outline :=
  .record [("base_url", .ofText? config.baseUrl),
    ("headers", .list (config.headers.map Header.outline))]

/-- The outline of a program. -/
def Program.outline (p : Program) : Outline :=
  .record [("config", (p.config.map Config.outline).getD .null),
    ("variables", .list (p.declarations.map Variable.outline)),
    ("tests", .list (p.tests.map Test.outline))]

/-- A program as indented text. -/
def Program.describe (p : Program) : String := p.outline.render 0

end HttpSuite
