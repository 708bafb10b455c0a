import HttpSuite.Compile
import HttpSuite.Proofs.Escape

/-!
# The string literals of a suite

What a reader of a generated suite sees between double quotes.  `Literal.scan` reads a text from
left to right: it stops at a line that ends inside a literal and at an escape it does not know, and
otherwise collects what the literals stand for.

A suite is pasted together from fixed text and escaped texts, so its literals are found piece by
piece.  `Literal.Passes` says what reading one piece does, from where the reader stands before it to
where it stands after it, and pieces are joined by joining what they do.  A text that was escaped
never leaves the literal it is pasted into, which is why the fixed text behind it is again read as
what it is.

## Main definitions

* `Literal.scan`: the literals of a text.
* `Literal.Passes`, `Literal.Holds`: what reading a part of a text does.
* `LiteralTable`, `LiteralTable.ofProgram`: the literals that the pieces of a suite should hold.
* `Dialect.Follows`: a dialect writes pieces that hold the literals of a table.

## Main results

* `Literal.Passes.append`: parts of a text can be read one after the other.
* `Literal.passes_escape`: an escaped text stays inside its literal and stands for the text.
* `Dialect.Follows.suite`: the literals of a whole suite are those of its program.
-/

namespace HttpSuite

/-! ## Reading literals -/

namespace Literal

/-- Where a reader of source text stands. -/
inductive Mode where
  | code
  /-- In a literal that so far stands for `content`. -/
  | inside (content : List Char)
  /-- Behind a backslash in such a literal. -/
  | escape (content : List Char)
deriving DecidableEq, Repr

/-- The character that a backslash and a letter stand for. -/
def decode? : Char → Option Char
  | '\\' => some '\\'
  | '"' => some '"'
  | 'n' => some '\n'
  | 'r' => some '\r'
  | 't' => some '\t'
  | _ => none

/-- The literals that end in a text, and where its reader stands afterwards. There is no answer if
a line ends inside a literal or an escape is unknown. -/
def scanFrom : Mode → List Char → Option (List (List Char) × Mode)
  | mode, [] => some ([], mode)
  | .code, c :: text => scanFrom (if c = '"' then .inside [] else .code) text
  | .inside content, c :: text =>
    if c = '"' then (scanFrom .code text).map fun result => (content :: result.1, result.2)
    else if c = '\\' then scanFrom (.escape content) text
    else if c = '\n' then none
    else scanFrom (.inside (content ++ [c])) text
  | .escape content, c :: text =>
    match decode? c with
    | some d => scanFrom (.inside (content ++ [d])) text
    | none => none

/-- The literals of a text in order, if each of them is well formed and closed. -/
def scan (text : String) : Option (List String) :=
  match scanFrom .code text.toList with
  | some (found, .code) => some (found.map String.ofList)
  | _ => none

/-- Reading on is reading the first part and then the second. -/
theorem scanFrom_append (mode : Mode) (first second : List Char) :
    scanFrom mode (first ++ second) = (scanFrom mode first).bind fun result =>
      (scanFrom result.2 second).map fun rest => (result.1 ++ rest.1, rest.2) := by
  fun_induction scanFrom mode first with
  | case1 mode => cases h : scanFrom mode second <;> simp [h]
  | case2 c text ih => simpa [scanFrom] using ih
  | case3 content text ih =>
    rw [List.cons_append, scanFrom, if_pos rfl, ih]
    cases scanFrom .code text with
    | none => rfl
    | some result =>
      simp only [Option.map_some, Option.bind_some, Option.map_map]
      rfl
  | case4 content text _ ih => simpa [scanFrom] using ih
  | case5 content text _ _ => simp [scanFrom]
  | case6 content c text hquote hbackslash hline ih =>
    simpa [scanFrom, hquote, hbackslash, hline] using ih
  | case7 content c text d hd ih => simpa [scanFrom, hd] using ih
  | case8 content c text hd => simp [scanFrom, hd]

/-- Reading the text from the first place leads to the second and meets these literals. -/
def Passes (start : Mode) (text : String) (found : List (List Char)) (stop : Mode) : Prop :=
  scanFrom start text.toList = some (found, stop)

theorem Passes.append {start middle stop : Mode} {first second : String}
    {found found' : List (List Char)} (h : Passes start first found middle)
    (h' : Passes middle second found' stop) :
    Passes start (first ++ second) (found ++ found') stop := by
  unfold Passes at h h' ⊢
  rw [String.toList_append, scanFrom_append, h, Option.bind_some, h', Option.map_some]

/-- An escaped character is read as that character. -/
theorem scanFrom_escapeChar (content : List Char) (c : Char) (text : List Char) :
    scanFrom (.inside content) (Text.escapeChar c ++ text) =
      scanFrom (.inside (content ++ [c])) text := by
  rcases Text.isPlain_or_escape c with h | rfl | rfl | rfl | rfl | rfl
  · rw [Text.escapeChar_of_isPlain h]
    obtain ⟨hbackslash, hquote, hline, -, -⟩ := h
    show scanFrom (.inside content) (c :: text) = _
    rw [scanFrom, if_neg hquote, if_neg hbackslash, if_neg hline]
  all_goals rfl

/-- An escaped text stays inside its literal and stands for the text. -/
theorem passes_escape (content : List Char) (text : String) :
    Passes (.inside content) (Text.escape text) [] (.inside (content ++ text.toList)) := by
  unfold Passes
  rw [Text.toList_escape]
  generalize text.toList = chars
  induction chars generalizing content with
  | nil => rw [Text.escapeChars_nil, scanFrom, List.append_nil]
  | cons c chars ih =>
    rw [Text.escapeChars_cons, scanFrom_escapeChar, ih, List.append_assoc, List.singleton_append]

/-- The text starts and ends outside of literals, and these are the ones in it. -/
def Holds (text : String) (found : List String) : Prop :=
  Passes .code text (found.map String.toList) .code

instance (text : String) (found : List String) : Decidable (Holds text found) :=
  inferInstanceAs (Decidable (_ = _))

theorem Holds.scan_eq {text : String} {found : List String} (h : Holds text found) :
    scan text = some found := by
  have hmap : (found.map String.toList).map String.ofList = found := by simp
  have hscan : scanFrom .code text.toList = some (found.map String.toList, .code) := h
  rw [scan, hscan]
  show some ((found.map String.toList).map String.ofList) = _
  rw [hmap]

theorem holds_empty : Holds "" [] := rfl

theorem Holds.append {first second : String} {found found' : List String} (h : Holds first found)
    (h' : Holds second found') : Holds (first ++ second) (found ++ found') := by
  unfold Holds at h h' ⊢
  rw [List.map_append]
  exact Passes.append h h'

/-- A text without quotes holds no literals. -/
theorem holds_plain {text : String} (h : '"' ∉ text.toList) : Holds text [] := by
  unfold Holds Passes
  rw [List.map_nil]
  generalize text.toList = chars at h
  induction chars with
  | nil => rfl
  | cons c chars ih =>
    rw [List.mem_cons, not_or] at h
    rw [scanFrom, if_neg (Ne.symm h.1)]
    exact ih h.2

/-- Numbers are written without quotes. -/
theorem quote_not_mem_toString (n : Int) : '"' ∉ (toString n).toList := by
  have hdigits (k : Nat) : '"' ∉ k.repr.toList := by
    intro h
    rw [Nat.toList_repr] at h
    exact absurd (Nat.isDigit_of_mem_toDigits (by decide) (by decide) h) (by decide)
  cases n with
  | ofNat k => exact hdigits k
  | negSucc k =>
    show '"' ∉ ("-" ++ (k + 1).repr).toList
    rw [String.toList_append, List.mem_append, not_or]
    exact ⟨by decide, hdigits (k + 1)⟩

/-- Text without literals around a text. -/
theorem Holds.around {lead text last : String} {found : List String} (h : Holds text found)
    (hlead : Holds lead []) (hlast : Holds last []) : Holds (lead ++ text ++ last) found := by
  have hall := (hlead.append h).append hlast
  rwa [List.nil_append, List.append_nil] at hall

/-- Fixed text around one escaped text, with literals of its own behind it. -/
theorem holds_one {lead last text : String} (more : List String)
    (hopen : Passes .code lead [] (.inside []))
    (hclose : Passes (.inside text.toList) last (text.toList :: more.map String.toList) .code) :
    Holds (lead ++ Text.escape text ++ last) (text :: more) :=
  (hopen.append (passes_escape [] text)).append hclose

/-- Fixed text around two escaped texts, where the second may go on with a literal that the fixed
text has begun. -/
theorem passes_two {lead between last first second : String} {content : List Char}
    {found found' : List (List Char)} (hopen : Passes .code lead [] (.inside []))
    (hbetween : Passes (.inside first.toList) between found (.inside content))
    (hclose : Passes (.inside (content ++ second.toList)) last found' .code) :
    Passes .code (lead ++ Text.escape first ++ between ++ Text.escape second ++ last)
      (found ++ found') .code := by
  have hfirst := (hopen.append (passes_escape [] first)).append hbetween
  have hall := (hfirst.append (passes_escape content second)).append hclose
  rwa [List.nil_append, List.append_nil] at hall

/-- Fixed text around two escaped texts, with literals of its own behind each. -/
theorem holds_two {lead between last first second : String} (middle more : List String)
    (hopen : Passes .code lead [] (.inside []))
    (hbetween : Passes (.inside first.toList) between (first.toList :: middle.map String.toList)
      (.inside []))
    (hclose : Passes (.inside second.toList) last (second.toList :: more.map String.toList) .code) :
    Holds (lead ++ Text.escape first ++ between ++ Text.escape second ++ last)
      (first :: (middle ++ second :: more)) := by
  unfold Holds
  rw [List.map_cons, List.map_append, List.map_cons]
  exact passes_two hopen hbetween hclose

/-! ## Lines -/

theorem unlines_append (first second : List String) :
    unlines (first ++ second) = unlines first ++ unlines second := by
  rw [unlines, List.map_append, String.join_append]
  rfl

theorem unlines_cons (line : String) (lines : List String) :
    unlines (line :: lines) = line ++ "\n" ++ unlines lines := by
  rw [unlines, List.map_cons, String.join_cons]
  rfl

theorem Holds.lines_append {first second : List String} {found found' : List String}
    (h : Holds (unlines first) found) (h' : Holds (unlines second) found') :
    Holds (unlines (first ++ second)) (found ++ found') := by
  rw [unlines_append]
  exact h.append h'

/-- Lines without literals add none behind others. -/
theorem Holds.plain_append {first second : List String} {found : List String}
    (h : Holds (unlines first) found) (h' : Holds (unlines second) []) :
    Holds (unlines (first ++ second)) found := by
  have happend := h.lines_append h'
  rwa [List.append_nil] at happend

theorem Holds.lines_cons {line : String} {lines found' : List String} {u : List String}
    (h : Holds line u) (h' : Holds (unlines lines) found') :
    Holds (unlines (line :: lines)) (u ++ found') := by
  have hend : Holds (line ++ "\n") u := by
    have hbreak : Holds "\n" [] := holds_plain (by decide)
    have happend := h.append hbreak
    rwa [List.append_nil] at happend
  rw [unlines_cons]
  exact hend.append h'

theorem holds_unlines_nil : Holds (unlines []) [] := rfl

theorem Holds.line {line : String} {found : List String} (h : Holds line found) :
    Holds (unlines [line]) found := by
  have hcons := h.lines_cons holds_unlines_nil
  rwa [List.append_nil] at hcons

/-- A line without quotes adds no literals. -/
theorem Holds.plain_cons {line : String} {lines found : List String}
    (h : Holds (unlines lines) found) (hline : '"' ∉ line.toList) :
    Holds (unlines (line :: lines)) found :=
  (holds_plain hline).lines_cons h

/-- Fixed lines without quotes, one by one. -/
theorem quote_not_mem_cons {chars : List Char} {lines : List String} (h : '"' ∉ chars)
    (hlines : ∀ line ∈ lines, '"' ∉ line.toList) :
    ∀ line ∈ String.ofList chars :: lines, '"' ∉ line.toList :=
  List.forall_mem_cons.2 ⟨by rwa [String.toList_ofList], hlines⟩

/-- A fixed line without quotes adds no literals. -/
theorem Holds.fixed_cons {chars : List Char} {lines found : List String} (hline : '"' ∉ chars)
    (h : Holds (unlines lines) found) : Holds (unlines (String.ofList chars :: lines)) found :=
  h.plain_cons (by rwa [String.toList_ofList])

/-- The literals of a fixed text. -/
theorem holds_ofList {chars : List Char} {found : List String}
    (h : scanFrom .code chars = some (found.map String.toList, .code)) :
    Holds (String.ofList chars) found := by
  rwa [Holds, Passes, String.toList_ofList]

/-- Lines without quotes hold no literals. -/
theorem holds_unlines_plain {lines : List String} (h : ∀ line ∈ lines, '"' ∉ line.toList) :
    Holds (unlines lines) [] := by
  induction lines with
  | nil => exact holds_unlines_nil
  | cons line lines ih =>
    rw [List.forall_mem_cons] at h
    exact (ih h.2).plain_cons h.1

theorem holds_unlines_flatMap {α : Type} {f : α → List String} {g : α → List String}
    (h : ∀ a, Holds (unlines (f a)) (g a)) (as : List α) :
    Holds (unlines (as.flatMap f)) (as.flatMap g) := by
  induction as with
  | nil => exact holds_unlines_nil
  | cons a as ih =>
    rw [List.flatMap_cons, List.flatMap_cons]
    exact (h a).lines_append ih

theorem holds_unlines_map {α : Type} {f : α → String} {g : α → List String}
    (h : ∀ a, Holds (f a) (g a)) (as : List α) :
    Holds (unlines (as.map f)) (as.flatMap g) := by
  rw [List.map_eq_flatMap]
  exact holds_unlines_flatMap (fun a => (h a).line) as

end Literal

open Literal

/-! ## The literals of a program -/

/-- The two texts of a header. -/
def Header.texts (h : Header) : List String := [h.key, h.value]

/-- The body that a request sends, if it declares one. -/
def Request.sentBody? (r : Request) : Option String :=
  match r.method with
  | .post | .put => r.body
  | .get | .delete => none

/-- What becomes of a body when it is resolved. -/
theorem Substitution.body_cases (s : Substitution) (r : Request) :
    (r.method.carriesBody = false ∧ s.body r.method r.body = .none ∧ r.sentBody? = none) ∨
    (r.method.carriesBody = true ∧ s.body r.method r.body = .empty ∧ r.sentBody? = none) ∨
    ∃ content, r.method.carriesBody = true ∧
      s.body r.method r.body = .text (Text.escape (s.apply content)) ∧
      r.sentBody? = some content := by
  obtain ⟨method, url, headers, body⟩ := r
  have hsends (hmethod : method = .post ∨ method = .put) :
      Request.sentBody? ⟨method, url, headers, body⟩ = body ∧ method.carriesBody = true := by
    rcases hmethod with rfl | rfl <;> exact ⟨rfl, rfl⟩
  have hcases : (method = .get ∨ method = .delete) ∨ method = .post ∨ method = .put := by
    cases method <;> decide
  rcases hcases with hmethod | hmethod
  · rcases hmethod with rfl | rfl <;> exact .inl ⟨rfl, rfl, rfl⟩
  · obtain ⟨hsent, hcarries⟩ := hsends hmethod
    rw [hsent]
    cases body with
    | none => exact .inr (.inl ⟨hcarries, by simp [Substitution.body, hcarries], rfl⟩)
    | some content =>
      exact .inr (.inr ⟨content, hcarries, by simp [Substitution.body, hcarries, literal], rfl⟩)

/-- The literals that the pieces of a suite hold, in the words of the program. -/
structure LiteralTable where
  /-- The opening and the set-up, from the base URL and the headers of the configuration. -/
  shared : String → List Header → List String
  /-- A request, once its placeholders are filled. -/
  request : Substitution → Request → List String
  /-- An assertion, once its placeholders are filled. -/
  assertion : Substitution → Assertion → List String

namespace LiteralTable

def statement (table : LiteralTable) (s : Substitution) : Statement → List String
  | .request r => table.request s r
  | .assertion a => table.assertion s a

/-- The literals of a program's suite: those that all tests share, then those of the statements in
their order. -/
def ofProgram (table : LiteralTable) (p : Program) : List String :=
  let s := Substitution.ofVariables p.declarations
  table.shared (p.baseUrl?.getD defaultBaseUrl) p.defaultHeaders ++
    p.tests.flatMap fun t => t.statements.flatMap (table.statement s)

end LiteralTable

namespace Dialect

/-- The pieces of the dialect hold the literals of the table. -/
structure Follows (dialect : Dialect) (table : LiteralTable) : Prop where
  shared (p : Program) : Holds (unlines (dialect.preamble p.shared ++ dialect.setup p.shared))
    (table.shared (p.baseUrl?.getD defaultBaseUrl) p.defaultHeaders)
  beginTest {name : String} : '"' ∉ name.toList → Holds (unlines (dialect.beginTest name)) []
  request (first : Bool) (s : Substitution) (r : Request) :
    Holds (unlines (dialect.request first (r.resolve s))) (table.request s r)
  assertion (s : Substitution) (a : Assertion) :
    Holds (dialect.assertion (a.resolve s)) (table.assertion s a)
  endTest : Holds (unlines dialect.endTest) []
  finish {text : String} {found : List String} :
    Holds text found → Holds (dialect.finish text) found

/-- Writing the pieces adds these literals to a draft. -/
def Writes (dialect : Dialect) (pieces : List Piece) (found : List String) : Prop :=
  ∀ (draft : Draft) (before : List String), Holds draft.text before →
    Holds (draft.writeAll dialect pieces).text (before ++ found)

variable {dialect : Dialect} {table : LiteralTable}

theorem writes_nil : Writes dialect [] [] := by
  intro draft before h
  rw [List.append_nil]
  exact h

theorem Writes.append {first second : List Piece} {found found' : List String}
    (h : Writes dialect first found) (h' : Writes dialect second found') :
    Writes dialect (first ++ second) (found ++ found') := by
  intro draft before hdraft
  rw [Draft.writeAll, List.foldl_append, ← List.append_assoc]
  exact h' _ _ (h draft before hdraft)

theorem writes_flatMap {α : Type} {f : α → List Piece} {g : α → List String} {as : List α}
    (h : ∀ a ∈ as, Writes dialect (f a) (g a)) :
    Writes dialect (as.flatMap f) (as.flatMap g) := by
  induction as with
  | nil => exact writes_nil
  | cons a as ih =>
    rw [List.forall_mem_cons] at h
    rw [List.flatMap_cons, List.flatMap_cons]
    exact h.1.append (ih h.2)

/-- A statement adds its literals, be it the first request of its test or not. -/
theorem Follows.statement (h : Follows dialect table) (s : Substitution) (a : Statement) :
    Writes dialect [(a.resolve s).piece] (table.statement s a) := by
  intro draft before hdraft
  cases a with
  | request r => exact hdraft.append (h.request draft.fresh s r)
  | assertion a => exact hdraft.append (h.assertion s a).line

theorem Follows.test (h : Follows dialect table) (s : Substitution) {t : Test}
    (hname : '"' ∉ t.name.toList) :
    Writes dialect (t.pieces s) (t.statements.flatMap (table.statement s)) := by
  have hopen : Writes dialect [.beginTest (testNameStart ++ t.name)] [] := by
    intro draft before hdraft
    refine hdraft.append (h.beginTest ?_)
    rw [String.toList_append, List.mem_append, not_or]
    exact ⟨by decide, hname⟩
  have hclose : Writes dialect [.endTest] [] := fun draft before hdraft => hdraft.append h.endTest
  have hstatements := writes_flatMap fun a (_ : a ∈ t.statements) => h.statement s a
  rw [← List.map_eq_flatMap] at hstatements
  have hall := (hopen.append hstatements).append hclose
  rw [List.nil_append, List.append_nil] at hall
  exact hall

/-- The literals of a whole suite are those of its program. -/
theorem Follows.suite (h : Follows dialect table) {p : Program}
    (hnames : ∀ t ∈ p.tests, '"' ∉ t.name.toList) :
    Holds (dialect.suite p) (table.ofProgram p) := by
  have hopen : Writes dialect [.preamble p.shared, .setup p.shared]
      (table.shared (p.baseUrl?.getD defaultBaseUrl) p.defaultHeaders) := by
    intro draft before hdraft
    have hshared := hdraft.append (h.shared p)
    rw [unlines_append, ← String.append_assoc] at hshared
    exact hshared
  have htests := writes_flatMap fun t ht => h.test (.ofVariables p.declarations) (hnames t ht)
  have hall := hopen.append htests {} [] holds_empty
  rw [Dialect.suite, Program.pieces, Draft.writeAll, List.foldl_append]
  exact h.finish hall

end Dialect

end HttpSuite
