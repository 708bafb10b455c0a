import HttpSuite.Proofs.Layout.Frames
import HttpSuite.Proofs.Literals.Suite
import Mathlib.Data.List.Forall2

/-!
# The response in a test function

In both dialects an assertion reads the local that holds the latest response, and the first request
of a test declares it.  The rules that a program must keep count the requests and the assertions of
a test and do not look at their order, so a test may begin with an assertion.  Its function then
reads the local before the line that declares it.

A line reads the local if the name stands as a word of its code.  What stands in literals is no
code, so the lines are first stripped of the texts of the program, by the same scan that finds the
literals of a suite.

## Main definitions

* `Code.outside`, `Code.words`: a line without its literals, and the words of it.
* `Code.Ready`: every line of a function that names the response comes behind its declaration.
* `Dialect.Declaring`: which lines of a dialect declare the response and which name it.

## Main results

* `Dialect.Declaring.ready_functionLines`: a function is ready if its test begins with a request.
* `ready_functions_compile`: the functions of a compiled suite that are ready.
-/

namespace HttpSuite

/-! ## Words of a line -/

namespace Code

open Literal

/-- Where a reader stands, whatever it has read of a literal so far. -/
def bare : Mode → Mode
  | .code => .code
  | .inside _ => .inside []
  | .escape _ => .escape []

/-- Where a reader stands behind one more character. It stays in a literal that is malformed. -/
def next (mode : Mode) (c : Char) : Mode :=
  match scanFrom mode [c] with
  | some (_, stop) => bare stop
  | none => .inside []

/-- Where a reader stands behind a text. -/
def after (mode : Mode) (text : List Char) : Mode := text.foldl next mode

private theorem after_append (mode : Mode) (first second : List Char) :
    after mode (first ++ second) = after (after mode first) second :=
  List.foldl_append

/-- The characters of a text that stand in no literal. The quote that opens a literal stays, so
that what stands around the literal is kept apart. -/
def outside (mode : Mode) : List Char → List Char
  | [] => []
  | c :: text =>
    if mode = .code then c :: outside (next mode c) text else outside (next mode c) text

private theorem outside_append (mode : Mode) (first second : List Char) :
    outside mode (first ++ second) = outside mode first ++ outside (after mode first) second := by
  induction first generalizing mode with
  | nil => rfl
  | cons c first ih =>
    rw [List.cons_append, outside, outside, ih]
    split <;> rfl

/-- Where the scan of literals leads is where the reader stands; and within one literal it shows
nothing. -/
private theorem outside_of_scanFrom {mode stop : Mode} {text : List Char} {found : List (List Char)}
    (h : scanFrom mode text = some (found, stop)) :
    after (bare mode) text = bare stop ∧
      (mode ≠ .code → found = [] → outside (bare mode) text = []) := by
  fun_induction scanFrom mode text generalizing found with
  | case1 mode =>
    cases h
    exact ⟨rfl, fun _ _ => rfl⟩
  | case2 c text ih =>
    have hnext : next .code c = bare (if c = '"' then .inside [] else .code) := rfl
    refine ⟨?_, fun hmode => absurd rfl hmode⟩
    rw [bare, after, List.foldl_cons, hnext]
    exact (ih h).1
  | case3 content text ih =>
    obtain ⟨result, hresult, heq⟩ := Option.map_eq_some_iff.1 h
    cases heq
    exact ⟨(ih hresult).1, fun _ hfound => absurd hfound (List.cons_ne_nil _ _)⟩
  | case4 content text _ ih => exact ⟨(ih h).1, fun _ => (ih h).2 Mode.noConfusion⟩
  | case5 content text _ _ => cases h
  | case6 content c text hquote hbackslash hline ih =>
    have hnext : next (bare (.inside content)) c = bare (.inside (content ++ [c])) := by
      rw [bare, next, scanFrom, if_neg hquote, if_neg hbackslash, if_neg hline]
      rfl
    rw [after, List.foldl_cons, outside, hnext]
    exact ⟨(ih h).1, fun _ => (ih h).2 Mode.noConfusion⟩
  | case7 content c text d hd ih =>
    have hnext : next (bare (.escape content)) c = bare (.inside (content ++ [d])) := by
      simp only [bare, next, scanFrom, hd]
    rw [after, List.foldl_cons, outside, hnext]
    exact ⟨(ih h).1, fun _ => (ih h).2 Mode.noConfusion⟩
  | case8 content c text hd => cases h

/-- Reading the text from the first place leads to the second and shows these characters outside
of literals. -/
def Shows (start : Mode) (text : String) (seen : List Char) (stop : Mode) : Prop :=
  outside start text.toList = seen ∧ after start text.toList = stop

namespace Shows

variable {start stop : Mode} {text : String} {seen : List Char}

theorem ofList {chars : List Char} :
    Shows start (String.ofList chars) (outside start chars) (after start chars) := by
  unfold Shows
  rw [String.toList_ofList]
  exact ⟨rfl, rfl⟩

theorem append {middle : Mode} {first second : String} {seen' : List Char}
    (h : Shows start first seen middle) (h' : Shows middle second seen' stop) :
    Shows start (first ++ second) (seen ++ seen') stop := by
  unfold Shows at h h' ⊢
  rw [String.toList_append, outside_append, after_append, h.1, h.2, h'.1]
  exact ⟨rfl, h'.2⟩

/-- Fixed text behind a text. -/
theorem fixed {chars : List Char} (h : Shows start text seen stop) :
    Shows start (text ++ String.ofList chars) (seen ++ outside stop chars) (after stop chars) :=
  h.append ofList

/-- A text of the program in a literal. -/
theorem escaped {content : String} (h : Shows start text seen stop) (hstop : stop = .inside []) :
    Shows start (text ++ Text.escape content) seen (.inside []) := by
  have hescape : Shows (.inside []) (Text.escape content) [] (.inside []) := by
    obtain ⟨hafter, houtside⟩ := outside_of_scanFrom (passes_escape [] content)
    exact ⟨houtside (by decide) rfl, hafter⟩
  have hall := (hstop ▸ h).append hescape
  rwa [List.append_nil] at hall

/-- A text without quotes is all code. -/
theorem of_plain (h : '"' ∉ text.toList) : Shows .code text text.toList .code := by
  unfold Shows
  generalize text.toList = chars at h
  induction chars with
  | nil => exact ⟨rfl, rfl⟩
  | cons c chars ih =>
    rw [List.mem_cons, not_or] at h
    have hnext : next .code c = .code := by
      rw [next, scanFrom, if_neg (Ne.symm h.1)]
      rfl
    rw [outside, if_pos rfl, after, List.foldl_cons, hnext]
    exact ⟨congrArg (c :: ·) (ih h.2).1, (ih h.2).2⟩

/-- Text without quotes behind a text that ends outside of literals. -/
theorem plain {more : String} (h : Shows start text seen stop) (hstop : stop = .code)
    (hmore : '"' ∉ more.toList) : Shows start (text ++ more) (seen ++ more.toList) .code :=
  (hstop ▸ h).append (of_plain hmore)

end Shows

/-- The words among some characters, with empty ones between two separators. -/
def wordsOf (chars : List Char) : List (List Char) :=
  chars.splitOnP fun c => !Text.isWordPart c

/-- The words of a line outside of its literals. -/
def words (line : String) : List (List Char) := wordsOf (outside .code line.toList)

theorem mem_wordsOf_append {word first second : List Char} {c : Char}
    (hc : Text.isWordPart c = false) :
    word ∈ wordsOf (first ++ c :: second) ↔ word ∈ wordsOf first ∨ word ∈ wordsOf second := by
  rw [wordsOf, List.splitOnP_append_cons _ _ (by rw [hc]; rfl), List.mem_append]
  rfl

private theorem wordsOf_word {word : List Char} (h : ∀ c ∈ word, Text.isWordPart c = true) :
    wordsOf word = [word] :=
  List.splitOnP_eq_singleton fun c hc => by rw [h c hc]; rfl

/-! ## Reading the response -/

/-- The line names the local that holds the response. -/
def Names (line : String) : Prop := ['r', 'e', 's', 'p'] ∈ words line

instance (line : String) : Decidable (Names line) := inferInstanceAs (Decidable (_ ∈ _))

/-- The line starts with this declaration. -/
def Declares (declaration line : String) : Prop := declaration.toList <+: line.toList

instance (declaration line : String) : Decidable (Declares declaration line) :=
  inferInstanceAs (Decidable (_ <+: _))

/-- Each line that names the response declares it or comes behind a line that does. -/
def Ready (declaration : String) (function : List String) : Prop :=
  ∀ before line after, function = before ++ line :: after → Names line →
    Declares declaration line ∨ ∃ earlier ∈ before, Declares declaration earlier

theorem Shows.names_iff {line : String} {seen : List Char} {stop : Mode}
    (h : Shows .code line seen stop) : Names line ↔ ['r', 'e', 's', 'p'] ∈ wordsOf seen := by
  rw [Names, words, h.1]

theorem Shows.not_names {line : String} {seen : List Char} {stop : Mode}
    (h : Shows .code line seen stop) (hseen : ['r', 'e', 's', 'p'] ∉ wordsOf seen) :
    ¬ Names line :=
  mt h.names_iff.1 hseen

theorem declares_append {declaration line : String} (rest : String)
    (h : line = declaration ++ rest) : Declares declaration line := by
  rw [h, Declares, String.toList_append]
  exact List.prefix_append _ _

/-- A line that starts with fixed text other than the declaration. -/
theorem not_declares {first second : List Char} {declaration rest : String}
    (h : ¬ declaration.toList <+: first ++ second ∧ ¬ first ++ second <+: declaration.toList) :
    ¬ Declares declaration (String.ofList first ++ (String.ofList second ++ rest)) := by
  intro hdeclares
  rw [Declares, String.toList_append, String.toList_append, String.toList_ofList,
    String.toList_ofList, ← List.append_assoc] at hdeclares
  exact (List.prefix_or_prefix_of_prefix hdeclares (List.prefix_append _ _)).elim h.1 h.2

/-- A function whose first line to name the response declares it. -/
private theorem ready_of_split {declaration line : String} {before after : List String}
    (hbefore : ∀ line ∈ before, ¬ Names line) (hline : Declares declaration line) :
    Ready declaration (before ++ line :: after) := by
  intro before' line' after' heq hnames
  rcases List.append_eq_append_iff.1 heq with ⟨more, rfl, hmore⟩ | ⟨more, rfl, hmore⟩
  · -- The named line is the declaration or comes behind it.
    cases more with
    | nil =>
      rw [List.nil_append, List.cons.injEq] at hmore
      exact .inl (hmore.1 ▸ hline)
    | cons first more =>
      rw [List.cons_append, List.cons.injEq] at hmore
      refine .inr ⟨line, ?_, hline⟩
      rw [hmore.1]
      exact List.mem_append_right _ List.mem_cons_self
  · cases more with
    | nil =>
      rw [List.nil_append, List.cons.injEq] at hmore
      exact .inl (hmore.1 ▸ hline)
    | cons first more =>
      rw [List.cons_append, List.cons.injEq] at hmore
      refine absurd hnames (hbefore line' ?_)
      rw [hmore.1]
      exact List.mem_append_right _ List.mem_cons_self

/-- A function that names the response before any line declares it. -/
private theorem not_ready_of_split {declaration line : String} {before after : List String}
    (hbefore : ∀ line ∈ before, ¬ Declares declaration line) (hnames : Names line)
    (hline : ¬ Declares declaration line) : ¬ Ready declaration (before ++ line :: after) := by
  intro hready
  rcases hready before line after rfl hnames with hdeclares | ⟨earlier, hearlier, hdeclares⟩
  · exact hline hdeclares
  · exact hbefore earlier hearlier hdeclares

end Code

open Code

namespace Dialect

/-- The first request of a test declares the response and no line before it names it; an assertion
names it. -/
structure Declaring (dialect : Dialect) (declaration : String) : Prop where
  opening {name : String} : Text.isIdentifier name = true →
    ∀ line ∈ (dialect.beginTest (testNameStart ++ name)).tail,
      ¬ Names line ∧ ¬ Declares declaration line
  request (s : Substitution) (r : Request) : ∃ before line after,
    dialect.request true (r.resolve s) = before ++ line :: after ∧
      (∀ line ∈ before, ¬ Names line) ∧ Declares declaration line
  assertion (s : Substitution) (a : Assertion) :
    Names (dialect.assertion (a.resolve s)) ∧
      ¬ Declares declaration (dialect.assertion (a.resolve s))

/-- A test function is ready exactly if the test begins with a request. -/
theorem Declaring.ready_functionLines {dialect : Dialect} {declaration : String}
    (h : Declaring dialect declaration) (s : Substitution) {t : Test}
    (hname : Text.isIdentifier t.name = true) (hne : t.statements ≠ []) :
    Ready declaration (dialect.functionLines s t) ↔
      ∃ r, t.statements.head? = some (.request r) := by
  have hopening := h.opening hname
  obtain ⟨statement, statements, hcons⟩ := List.exists_cons_of_ne_nil hne
  rw [functionLines, bodyLines, hcons, List.map_cons]
  cases statement with
  | request r =>
    obtain ⟨before, line, after, hrequest, hbefore, hline⟩ := h.request s r
    have hbefore' := List.forall_mem_append.2
      ⟨fun line hline => (hopening line hline).1, hbefore⟩
    refine iff_of_true ?_ ⟨r, rfl⟩
    rw [Statement.resolve, statementLines, hrequest, List.append_assoc, List.cons_append,
      ← List.append_assoc]
    exact ready_of_split hbefore' hline
  | assertion a =>
    obtain ⟨hnames, hline⟩ := h.assertion s a
    refine iff_of_false ?_ (by simp)
    rw [Statement.resolve, statementLines]
    exact not_ready_of_split (fun line hline => (hopening line hline).2) hnames hline

/-- The line that opens a test function does not name the response: what comes before the name of
the test makes another word of it. -/
theorem not_names_opening (lead rest : List Char) {name : String}
    (hname : Text.isIdentifier name = true) (hquotes : '"' ∉ lead ∧ '"' ∉ rest)
    (hwords : ['r', 'e', 's', 'p'] ∉ wordsOf lead ∧ ['r', 'e', 's', 'p'] ∉ wordsOf rest) :
    ¬ Names (String.ofList (lead ++ [' ']) ++ (testNameStart ++ name)
      ++ String.ofList ('(' :: rest)) := by
  have hstart : testNameStart.toList = ['t', 'e', 's', 't', '_'] := rfl
  have hword : ∀ c ∈ (testNameStart ++ name).toList, Text.isWordPart c = true := by
    rw [String.toList_append, hstart]
    exact List.forall_mem_append.2 ⟨List.all_eq_true.1 rfl, Text.isWordPart_of_isIdentifier hname⟩
  have hline : (String.ofList (lead ++ [' ']) ++ (testNameStart ++ name)
      ++ String.ofList ('(' :: rest)).toList =
      lead ++ ' ' :: ((testNameStart ++ name).toList ++ '(' :: rest) := by
    simp
  have hquote : '"' ∉ (String.ofList (lead ++ [' ']) ++ (testNameStart ++ name)
      ++ String.ofList ('(' :: rest)).toList := by
    rw [hline]
    simp only [List.mem_append, List.mem_cons, not_or]
    exact ⟨hquotes.1, by decide, fun h => absurd (hword _ h) (by decide), by decide, hquotes.2⟩
  refine (Shows.of_plain hquote).not_names ?_
  rw [hline, mem_wordsOf_append (by decide), mem_wordsOf_append (by decide), wordsOf_word hword,
    List.mem_singleton, not_or, not_or]
  refine ⟨hwords.1, ?_, hwords.2⟩
  rw [String.toList_append, hstart]
  simp

/-! ## JUnit -/

namespace Junit

/-- What starts the line that declares the response. -/
def declaration : String := "        HttpResponse<String> resp = "

theorem not_names_header (h : Header) : ¬ Names (indent ++ "b.header(\"" ++ h.resolve.1 ++ "\", \""
    ++ h.resolve.2 ++ "\");") :=
  Shows.not_names (.fixed (.escaped (.fixed (.escaped (.fixed .ofList) rfl)) rfl)) (by decide)

theorem not_names_url (s : Substitution) (u : String) : ¬ Names (indent ++ "HttpRequest.Builder b"
    ++ " = HttpRequest.newBuilder(URI.create(" ++ url (s.url u) ++ "))") := by
  unfold Substitution.url
  dsimp only
  split <;> simp only [url, ← String.append_assoc]
  all_goals
    exact Shows.not_names (.fixed (.fixed (.escaped (.fixed (.fixed (.fixed .ofList))) rfl)))
      (by decide)

theorem not_names_call (s : Substitution) (r : Request) :
    ¬ Names (continuation ++ methodCall (r.resolve s) ++ ";") := by
  have hbody : (r.resolve s).body = s.body r.method r.body := rfl
  have hmethod : (r.resolve s).method = r.method := rfl
  unfold methodCall
  rw [hbody, hmethod]
  rcases s.body_cases r with ⟨-, heq, -⟩ | ⟨-, heq, -⟩ | ⟨content, -, heq, -⟩
  all_goals
    rw [heq]
    simp only [← String.append_assoc]
  · cases r.method <;>
      exact Shows.not_names (.fixed (.fixed (.fixed (.fixed (.fixed (.fixed .ofList))))))
        (by decide)
  · cases r.method <;>
      exact Shows.not_names (.fixed (.fixed (.fixed (.fixed (.fixed (.fixed .ofList))))))
        (by decide)
  · cases r.method <;>
      exact Shows.not_names (.fixed (.fixed (.fixed (.escaped
        (.fixed (.fixed (.fixed (.fixed .ofList)))) rfl)))) (by decide)

theorem names_assertion (s : Substitution) (a : Assertion) : Names (assertion (a.resolve s)) := by
  cases a with
  | statusEquals code =>
    simp only [assertion, Assertion.resolve, ← String.append_assoc]
    refine (Shows.names_iff (.fixed (.plain (.fixed .ofList) rfl
      (Literal.quote_not_mem_toString _)))).2 ((mem_wordsOf_append rfl).2 (.inr ?_))
    decide
  | headerEquals | headerContains =>
    simp only [assertion, Assertion.resolve, Substitution.literal, ← String.append_assoc]
    exact (Shows.names_iff (.fixed (.escaped (.fixed (.escaped (.fixed .ofList) rfl)) rfl))).2
      (by decide)
  | bodyContains =>
    simp only [assertion, Assertion.resolve, Substitution.literal, ← String.append_assoc]
    exact (Shows.names_iff (.fixed (.escaped (.fixed .ofList) rfl))).2 (by decide)

theorem not_declares_assertion (s : Substitution) (a : Assertion) :
    ¬ Declares declaration (assertion (a.resolve s)) := by
  cases a <;> simp only [assertion, Assertion.resolve, String.append_assoc] <;>
    exact not_declares (by decide)

/-- The first request of a test declares the response. -/
theorem declaring (className : String) : Declaring (.junit className) declaration where
  opening {name} hname := by
    refine List.forall_mem_singleton.2 ⟨?_, ?_⟩
    · exact not_names_opening "    void".toList ") throws Exception \x7b".toList hname (by decide)
        (by decide)
    · rw [String.append_assoc, String.append_assoc]
      exact not_declares (by decide)
  request s r := by
    refine ⟨_, _, _, rfl, ?_, declares_append
      "client.send(b.build(), HttpResponse.BodyHandlers.ofString(StandardCharsets.UTF_8));"
      (by decide +kernel)⟩
    simp only [Request.resolve, List.forall_mem_append, List.forall_mem_cons, List.forall_mem_map,
      List.not_mem_nil, false_imp_iff, implies_true, and_true]
    refine ⟨⟨⟨not_names_url s r.url, ?timeout, not_names_call s r⟩, fun h _ => not_names_header h⟩,
      ?loop⟩
    case timeout =>
      exact Shows.not_names (.fixed (.plain (.fixed .ofList) rfl (by decide))) (by decide)
    case loop => exact Shows.not_names (.fixed .ofList) (by decide)
  assertion s a := ⟨names_assertion s a, not_declares_assertion s a⟩

end Junit

/-! ## Rust -/

namespace Rust

/-- What starts the line that declares the response. -/
def declaration : String := "    let resp = "

theorem not_names_header (h : Header) : ¬ Names (indent ++ "b = b.header(\"" ++ h.resolve.1
    ++ "\", \"" ++ h.resolve.2 ++ "\");") :=
  Shows.not_names (.fixed (.escaped (.fixed (.escaped (.fixed .ofList) rfl)) rfl)) (by decide)

theorem not_names_call (s : Substitution) (method : Method) (u : String) :
    ¬ Names (continuation ++ "." ++ clientCall method ++ "(" ++ url (s.url u) ++ ")") := by
  unfold Substitution.url
  dsimp only
  split
  · simp only [url_relative, ← String.append_assoc]
    cases method <;>
      exact Shows.not_names (.fixed (.fixed (.escaped
        (.fixed (.fixed (.fixed (.fixed .ofList)))) rfl))) (by decide)
  · simp only [url_absolute, ← String.append_assoc]
    cases method <;>
      exact Shows.not_names (.fixed (.fixed (.escaped
        (.fixed (.fixed (.fixed (.fixed .ofList)))) rfl))) (by decide)

theorem not_names_limits (s : Substitution) (r : Request) :
    ∀ line ∈ limits (s.body r.method r.body), ¬ Names line := by
  have htimeout : ¬ Names (continuation ++ ".timeout(Duration::from_secs("
      ++ toString requestTimeout ++ "))") :=
    Shows.not_names (.fixed (.plain (.fixed .ofList) rfl (by decide))) (by decide)
  unfold limits
  rcases s.body_cases r with ⟨-, heq, -⟩ | ⟨-, heq, -⟩ | ⟨content, -, heq, -⟩
  · rw [heq]
    exact List.forall_mem_singleton.2
      (Shows.not_names (.fixed (.fixed (.plain (.fixed .ofList) rfl (by decide)))) (by decide))
  · rw [heq]
    exact List.forall_mem_cons.2 ⟨htimeout, List.forall_mem_singleton.2
      (Shows.not_names (.fixed .ofList) (by decide))⟩
  · rw [heq]
    exact List.forall_mem_cons.2 ⟨htimeout, List.forall_mem_singleton.2
      (Shows.not_names (.fixed (.escaped (.fixed .ofList) rfl)) (by decide))⟩

theorem names_assertion (s : Substitution) (a : Assertion) : Names (assertion (a.resolve s)) := by
  cases a with
  | statusEquals code =>
    simp only [assertion, Assertion.resolve, ← String.append_assoc]
    refine (Shows.names_iff (.fixed (.plain (.fixed .ofList) rfl
      (Literal.quote_not_mem_toString _)))).2 ((mem_wordsOf_append rfl).2 (.inr ?_))
    decide
  | headerEquals | headerContains =>
    simp only [assertion, Assertion.resolve, Substitution.literal, ← String.append_assoc]
    exact (Shows.names_iff (.fixed (.escaped (.fixed (.escaped (.fixed .ofList) rfl)) rfl))).2
      (by decide)
  | bodyContains =>
    simp only [assertion, Assertion.resolve, Substitution.literal, ← String.append_assoc]
    exact (Shows.names_iff (.fixed (.escaped (.fixed .ofList) rfl))).2 (by decide)

theorem not_declares_assertion (s : Substitution) (a : Assertion) :
    ¬ Declares declaration (assertion (a.resolve s)) := by
  cases a <;> simp only [assertion, Assertion.resolve, String.append_assoc] <;>
    exact not_declares (by decide)

/-- Every request of a test declares the response. -/
theorem declaring : Declaring .rust declaration where
  opening {name} hname := by
    refine List.forall_mem_cons.2 ⟨⟨?_, ?_⟩, List.forall_mem_singleton.2 ⟨?_, by decide⟩⟩
    · exact not_names_opening "fn".toList ") \x7b".toList hname (by decide) (by decide)
    · rw [String.append_assoc, String.append_assoc]
      exact not_declares (by decide)
    · exact Shows.not_names (.fixed .ofList) (by decide)
  request s r := by
    refine ⟨_, _, _, rfl, ?_, declares_append "send(b);" (by decide)⟩
    simp only [Request.resolve, List.forall_mem_append, List.forall_mem_cons, List.forall_mem_map,
      List.not_mem_nil, false_imp_iff, implies_true, and_true]
    refine ⟨⟨⟨⟨?builder, ?client, not_names_call s r.method r.url⟩, not_names_limits s r⟩,
      fun h _ => not_names_header h⟩, ?headers⟩
    all_goals exact Shows.not_names (.fixed .ofList) (by decide)
  assertion s a := ⟨names_assertion s a, not_declares_assertion s a⟩

end Rust

end Dialect

/-! ## Compiled suites -/

namespace Target

/-- What starts the line that declares the response. -/
def declaration : Target → String
  | junit => Dialect.Junit.declaration
  | rust => Dialect.Rust.declaration

theorem declaring (target : Target) (className : String) :
    (target.dialect className).Declaring target.declaration := by
  cases target with
  | junit => exact Dialect.Junit.declaring className
  | rust => exact Dialect.Rust.declaring

/-- The functions of a suite are ready where their tests begin with a request. -/
theorem ready_functions (target : Target) {className : String}
    (hname : Text.isIdentifier className = true) {p : Program} (hp : p.WellFormed) :
    List.Forall₂ (fun function t =>
        Ready target.declaration function ↔ ∃ r, t.statements.head? = some (.request r))
      (target.frame.functions ((target.dialect className).suite p)) p.tests := by
  have hnames : ∀ t ∈ p.tests, Text.OneLine t.name := fun t ht =>
    Text.oneLine_of_isIdentifier (hp.testName t ht).1
  rw [(target.framed hname).functions_suite hp.hasTest hnames, List.forall₂_map_left_iff,
    List.forall₂_same]
  exact fun t ht => (target.declaring className).ready_functionLines _ (hp.testName t ht).1
    (hp.hasStatement t ht)

end Target

/-- In a compiled suite, a test function names the response only behind its declaration if and only
if its test begins with a request. -/
theorem ready_functions_compile {source : String} {options : Options} {output : Output}
    (h : compile source options = .ok output) :
    ∃ p, Program.parse source = .ok p ∧
      List.Forall₂ (fun function t => Ready options.target.declaration function ↔
          ∃ r, t.statements.head? = some (.request r))
        (options.target.frame.functions output.source) p.tests := by
  obtain ⟨hname, p, diagnostics, hparse, -, rfl⟩ := compile_eq_ok_iff.1 h
  exact ⟨p, hparse, options.target.ready_functions hname (Program.wellFormed_of_parse hparse)⟩

/-- A program of one test that begins with a request and one that begins with an assertion. -/
def assertionFirst : Program :=
  let status : Statement := .assertion (.statusEquals 200)
  let send : Statement := .request { method := .get, url := "/resp" }
  { tests := [⟨"late", [send, status, status]⟩, ⟨"early", [status, send, status]⟩] }

theorem wellFormed_assertionFirst : assertionFirst.WellFormed := by decide

theorem compile_assertionFirst (target : Target) :
    compile assertionFirst.print { target } =
      .ok ⟨(target.dialect defaultClassName).suite assertionFirst, []⟩ := by
  have hname : Text.isIdentifier defaultClassName = true := by decide
  exact compile_print wellFormed_assertionFirst _ hname rfl

theorem ready_functions_compile_assertionFirst :
    ∃ output, compile assertionFirst.print { target := .junit } = .ok output ∧
      ∃ late early, Target.junit.frame.functions output.source = [late, early] ∧
        Ready Target.junit.declaration late ∧ ¬ Ready Target.junit.declaration early := by
  have hcompile := compile_assertionFirst .junit
  obtain ⟨p, hparse, hready⟩ := ready_functions_compile hcompile
  rw [Program.parse_print wellFormed_assertionFirst] at hparse
  cases hparse
  obtain ⟨late, _, hlate, hrest, hfunctions⟩ := List.forall₂_cons_right_iff.1 hready
  obtain ⟨early, _, hearly, hend, rfl⟩ := List.forall₂_cons_right_iff.1 hrest
  rw [List.forall₂_nil_right_iff] at hend
  refine ⟨_, hcompile, late, early, hend ▸ hfunctions, hlate.2 ⟨_, rfl⟩, fun h => ?_⟩
  obtain ⟨r, hr⟩ := hearly.1 h
  cases hr

theorem not_ready_assertionFirst (target : Target) :
    ∃ output, compile assertionFirst.print { target } = .ok output ∧
      ∃ function ∈ target.frame.functions output.source,
        ¬ Ready target.declaration function := by
  have hname : Text.isIdentifier defaultClassName = true := by decide
  have hready := target.ready_functions hname wellFormed_assertionFirst
  obtain ⟨late, _, -, hrest, hfunctions⟩ := List.forall₂_cons_right_iff.1 hready
  obtain ⟨early, _, hearly, -, rfl⟩ := List.forall₂_cons_right_iff.1 hrest
  refine ⟨_, compile_assertionFirst target, early, ?_, fun h => ?_⟩
  · rw [hfunctions]
    exact List.mem_cons_of_mem _ List.mem_cons_self
  · obtain ⟨r, hr⟩ := hearly.1 h
    cases hr

/-- A source that compiles, for either target, to a function that names the response before it is
declared. -/
theorem exists_not_ready_function :
    (∃ output, compile assertionFirst.print { target := .junit } = .ok output ∧
      ∃ function ∈ Target.junit.frame.functions output.source,
        ¬ Ready Target.junit.declaration function) ∧
    ∃ output, compile assertionFirst.print { target := .rust } = .ok output ∧
      ∃ function ∈ Target.rust.frame.functions output.source,
        ¬ Ready Target.rust.declaration function :=
  ⟨not_ready_assertionFirst .junit, not_ready_assertionFirst .rust⟩

end HttpSuite
