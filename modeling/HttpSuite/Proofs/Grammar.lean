import HttpSuite.Program.Reader

/-!
# The grammar of programs

The grammar of the suite language as relations between trees and the kinds of their tokens.  One
relation stands for each line of the grammar, and one constructor for each alternative of it:

```text
program   := config? variable* test+
config    := 'config' '{' (base | header)* '}'
base      := 'base_url' '=' STRING ';'
header    := 'header' STRING '=' STRING ';'
variable  := 'let' NAME '=' (STRING | NUMBER) ';'
test      := 'test' NAME '{' statement+ '}'
statement := request | assertion
request   := ('GET' | 'POST' | 'PUT' | 'DELETE') STRING (';' | '{' header* body? '}' ';')
body      := 'body' '=' STRING ';'
assertion := 'expect' ( 'status' '=' NUMBER
                      | 'header' STRING ('=' | 'contains') STRING
                      | 'body' 'contains' STRING ) ';'
```

Nothing here reads anything: a derivation may cut its words wherever it likes, and no token is ever
looked ahead at.  That reading agrees with this is what `HttpSuite.Proofs.Reading.Program` shows.

The two places where a tree is more than its words put together are a configuration, whose last
base URL counts, and a status assertion, whose number must be a status code.

## Main definitions

* `Program.Derives`: the derivations of a program, and below it those of its parts.
* `Grammar.Many`, `Grammar.Optional`: repetition and option.
* `Grammar.Viable`: the beginnings of derivable words.
-/

namespace HttpSuite

/-- The words that a part of the grammar allows, each with the tree it stands for. -/
abbrev Phrase (α : Type) := α → List TokenKind → Prop

namespace Grammar

variable {α : Type}

/-- Words of a part one after the other, in the order of their trees. -/
inductive Many (part : Phrase α) : Phrase (List α)
  | nil : Many part [] []
  | cons {a : α} {others : List α} {v w : List TokenKind} :
    part a v → Many part others w → Many part (a :: others) (v ++ w)

theorem Many.single {part : Phrase α} {a : α} {w : List TokenKind} (h : part a w) :
    Many part [a] w := by
  have hcons := Many.cons h .nil
  rwa [List.append_nil] at hcons

theorem Many.append {part : Phrase α} {as bs : List α} {v w : List TokenKind}
    (has : Many part as v) (hbs : Many part bs w) : Many part (as ++ bs) (v ++ w) := by
  induction has with
  | nil => exact hbs
  | cons hfirst _ ih =>
    rw [List.append_assoc]
    exact .cons hfirst ih

/-- Words of a part, or none. -/
inductive Optional (part : Phrase α) : Phrase (Option α)
  | none : Optional part none []
  | some {a : α} {w : List TokenKind} : part a w → Optional part (some a) w

/-- A beginning of words that the part allows. -/
def Begins (part : Phrase α) (w : List TokenKind) : Prop := ∃ a rest, part a (w ++ rest)

theorem Begins.nil {part : Phrase α} (h : ∃ a w, part a w) : Begins part [] := by
  obtain ⟨a, w, hw⟩ := h
  exact ⟨a, w, hw⟩

theorem Begins.of_append {part : Phrase α} {v w : List TokenKind} (h : Begins part (v ++ w)) :
    Begins part v := by
  obtain ⟨a, rest, hw⟩ := h
  exact ⟨a, w ++ rest, by rwa [← List.append_assoc]⟩

end Grammar

open Grammar

/-! ## Configuration -/

/-- `header := 'header' STRING '=' STRING ';'` -/
inductive Header.Derives : Phrase Header
  | mk (key value : String) :
    Derives ⟨key, value⟩ [.keyword .header, .string key, .equals, .string value, .semicolon]

/-- `base | header`, with `base := 'base_url' '=' STRING ';'` -/
inductive ConfigLine.Derives : Phrase ConfigLine
  | baseUrl (url : String) :
    Derives (.baseUrl url) [.keyword .baseUrl, .equals, .string url, .semicolon]
  | header {h : Header} {w : List TokenKind} : h.Derives w → Derives (.header h) w

/-- A configuration holds the headers of its lines in their order, and the base URL of the last
line that sets one, wherever these lines stand. -/
structure Config.MadeOf (config : Config) (lines : List ConfigLine) : Prop where
  headers : config.headers = lines.filterMap ConfigLine.header?
  baseUrl (url : String) : config.baseUrl = some url ↔
    ∃ before after, lines = before ++ .baseUrl url :: after ∧
      ∀ line ∈ after, ∃ h, line = .header h

/-- `config := 'config' '{' (base | header)* '}'` -/
inductive Config.Derives : Phrase Config
  | mk {config : Config} {lines : List ConfigLine} {w : List TokenKind} :
    Many ConfigLine.Derives lines w → config.MadeOf lines →
    Derives config (.keyword .config :: .leftBrace :: (w ++ [.rightBrace]))

/-! ## Variables -/

/-- `STRING | NUMBER` -/
inductive Value.Derives : Phrase Value
  | text (content : String) : Derives (.text content) [.string content]
  | integer (value : Int64) : Derives (.integer value) [.number value]

/-- `variable := 'let' NAME '=' (STRING | NUMBER) ';'` -/
inductive Variable.Derives : Phrase Variable
  | mk (name : String) {value : Value} {w : List TokenKind} : value.Derives w →
    Derives ⟨name, value⟩ (.keyword .declare :: .identifier name :: .equals :: (w ++ [.semicolon]))

/-! ## Tests -/

/-- `body := 'body' '=' STRING ';'` -/
inductive Body.Derives : Phrase String
  | mk (content : String) :
    Derives content [.keyword .body, .equals, .string content, .semicolon]

/-- `request := ('GET' | 'POST' | 'PUT' | 'DELETE') STRING (';' | '{' header* body? '}' ';')` -/
inductive Request.Derives : Phrase Request
  | plain (method : Method) (url : String) :
    Derives ⟨method, url, [], none⟩ [.keyword (.method method), .string url, .semicolon]
  | block (method : Method) (url : String) {headers : List Header} {body : Option String}
      {v w : List TokenKind} :
    Many Header.Derives headers v → Optional Body.Derives body w →
    Derives ⟨method, url, headers, body⟩
      (.keyword (.method method) :: .string url :: .leftBrace ::
        (v ++ w ++ [.rightBrace, .semicolon]))

/-- `'status' '=' NUMBER | 'header' STRING ('=' | 'contains') STRING | 'body' 'contains' STRING`,
where the number is a status code. -/
inductive Assertion.Expects : Phrase Assertion
  | statusEquals {code : Int64} : 100 ≤ code.toInt → code.toInt ≤ 599 →
    Expects (.statusEquals code) [.keyword .status, .equals, .number code]
  | headerEquals (key value : String) :
    Expects (.headerEquals key value) [.keyword .header, .string key, .equals, .string value]
  | headerContains (key value : String) :
    Expects (.headerContains key value)
      [.keyword .header, .string key, .keyword .contains, .string value]
  | bodyContains (value : String) :
    Expects (.bodyContains value) [.keyword .body, .keyword .contains, .string value]

/-- `assertion := 'expect' (...) ';'` -/
inductive Assertion.Derives : Phrase Assertion
  | mk {a : Assertion} {w : List TokenKind} : a.Expects w →
    Derives a (.keyword .expect :: (w ++ [.semicolon]))

/-- `statement := request | assertion` -/
inductive Statement.Derives : Phrase Statement
  | request {r : Request} {w : List TokenKind} : r.Derives w → Derives (.request r) w
  | assertion {a : Assertion} {w : List TokenKind} : a.Derives w → Derives (.assertion a) w

/-- `test := 'test' NAME '{' statement+ '}'` -/
inductive Test.Derives : Phrase Test
  | mk (name : String) {statements : List Statement} {w : List TokenKind} :
    Many Statement.Derives statements w → statements ≠ [] →
    Derives ⟨name, statements⟩
      (.keyword .test :: .identifier name :: .leftBrace :: (w ++ [.rightBrace]))

/-- `program := config? variable* test+` -/
inductive Program.Derives : Phrase Program
  | mk {config : Option Config} {declarations : List Variable} {tests : List Test}
      {u v w : List TokenKind} :
    Optional Config.Derives config u → Many Variable.Derives declarations v →
    Many Test.Derives tests w → tests ≠ [] →
    Derives ⟨config, declarations, tests⟩ (u ++ v ++ w)

/-- The token kinds with which some program begins. -/
def Grammar.Viable (w : List TokenKind) : Prop := Begins Program.Derives w

theorem isStatusCode_iff {code : Int64} :
    isStatusCode code = true ↔ 100 ≤ code.toInt ∧ code.toInt ≤ 599 := by
  rw [isStatusCode, Bool.and_eq_true, decide_eq_true_eq, decide_eq_true_eq,
    Int64.le_iff_toInt_le, Int64.le_iff_toInt_le]
  rfl

/-! ## Configurations from their lines -/

private theorem ConfigLine.baseUrl?_eq_some {line : ConfigLine} {url : String} :
    line.baseUrl? = some url ↔ line = .baseUrl url := by
  cases line <;> simp [ConfigLine.baseUrl?]

private theorem ConfigLine.baseUrl?_eq_none {line : ConfigLine} :
    line.baseUrl? = none ↔ ∃ h, line = .header h := by
  cases line <;> simp [ConfigLine.baseUrl?]

/-- The last base URL of some lines is set by a line after which only headers come. -/
theorem Config.getLast?_baseUrl_iff (lines : List ConfigLine) (url : String) :
    (lines.filterMap ConfigLine.baseUrl?).getLast? = some url ↔
      ∃ before after, lines = before ++ .baseUrl url :: after ∧
        ∀ line ∈ after, ∃ h, line = .header h := by
  rw [List.getLast?_eq_some_iff]
  constructor
  · intro h
    obtain ⟨urls, hurls⟩ := h
    obtain ⟨first, second, rfl, -, hsecond⟩ := List.filterMap_eq_append_iff.1 hurls
    obtain ⟨headers, line, after, rfl, -, hline, hafter⟩ := List.filterMap_eq_cons_iff.1 hsecond
    obtain rfl := ConfigLine.baseUrl?_eq_some.1 hline
    refine ⟨first ++ headers, after, by simp, fun line hmem => ?_⟩
    exact ConfigLine.baseUrl?_eq_none.1 (List.filterMap_eq_nil_iff.1 hafter line hmem)
  · intro h
    obtain ⟨before, after, rfl, hafter⟩ := h
    have hnone : after.filterMap ConfigLine.baseUrl? = [] :=
      List.filterMap_eq_nil_iff.2 fun line hmem => ConfigLine.baseUrl?_eq_none.2 (hafter line hmem)
    refine ⟨before.filterMap ConfigLine.baseUrl?, ?_⟩
    rw [List.filterMap_append, List.filterMap_cons_some (ConfigLine.baseUrl?_eq_some.2 rfl), hnone]

/-- Lines make exactly one configuration. -/
theorem Config.madeOf_iff {config : Config} {lines : List ConfigLine} :
    config.MadeOf lines ↔ config = Config.ofLines lines := by
  constructor
  · intro h
    obtain ⟨hheaders, hbase⟩ := h
    obtain ⟨baseUrl, headers⟩ := config
    simp only [Config.ofLines, Config.mk.injEq]
    refine ⟨Option.ext fun url => ?_, hheaders⟩
    rw [hbase, Config.getLast?_baseUrl_iff]
  · intro h
    subst h
    exact ⟨rfl, fun url => Config.getLast?_baseUrl_iff lines url⟩

end HttpSuite
