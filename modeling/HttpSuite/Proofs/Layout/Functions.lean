import Mathlib.Data.List.Nodup
import HttpSuite.Proofs.Layout.Frames
import HttpSuite.Proofs.Literals.Suite

/-!
# The functions of a suite and their names

A suite has one function for each test of its program, marked as a test and named after it.  That
can be read off the text alone.  The texts of a program stand in literals, and a literal never
begins a line, so no text can bring in a mark or a function of its own.

The rules ask nothing of the names of tests.  Two tests of one name make two functions of one name,
and a suite defines no function twice exactly if the names of its tests differ.

## Main definitions

* `Text.behind`: the lines right behind the marks of a text.
* `definedNames`, `Target.functionNames`: the names of the functions that a text defines.
* `Dialect.Defining`: the lines of a dialect that define a function.

## Main results

* `Dialect.Framed.behind_suite`: behind each mark of a suite stands the opening of a test.
* `Dialect.Defining.definedNames_suite`: the functions that a suite defines.
* `behind_marks_compile`, `nodup_functionNames_compile`: the same for compiled suites, and when
  their functions have different names.
-/

namespace HttpSuite

open Text

/-! ## Lines behind a mark -/

namespace Text

/-- What stands right behind each line that is equal to the mark, in order. -/
def behind (mark : String) : List String → List (Option String)
  | [] => []
  | line :: rest => if line = mark then rest.head? :: behind mark rest else behind mark rest

theorem behind_mark (mark : String) (rest : List String) :
    behind mark (mark :: rest) = rest.head? :: behind mark rest :=
  if_pos rfl

/-- Lines without marks are passed over. -/
theorem behind_append {mark : String} {before : List String} (h : mark ∉ before)
    (rest : List String) : behind mark (before ++ rest) = behind mark rest := by
  induction before with
  | nil => rfl
  | cons line before ih =>
    rw [List.mem_cons, not_or] at h
    rw [List.cons_append, behind, if_neg (Ne.symm h.1), ih h.2]

private theorem length_behind (mark : String) (these : List String) :
    (behind mark these).length = these.count mark := by
  induction these with
  | nil => rfl
  | cons line rest ih =>
    by_cases h : line = mark
    · rw [h, behind_mark, List.length_cons, ih, List.count_cons_self]
    · rw [behind, if_neg h, ih, List.count_cons_of_ne h]

end Text

namespace Dialect.Framed

variable {dialect : Dialect} {frame : Frame} {opening : String → String}

/-- Behind each mark stands the first line of a test function. -/
private theorem behind_testLines (h : Framed dialect frame) (s : Substitution)
    (hopening : ∀ t, (dialect.functionLines s t).head? = some (opening t.name)) {tests : List Test}
    (hnames : ∀ t ∈ tests, OneLine t.name) :
    behind frame.mark (tests.flatMap (dialect.testLines s) ++ frame.closing) =
      tests.map fun t => some (opening t.name) := by
  induction tests with
  | nil =>
    have hclosing : frame.mark ∉ frame.closing := fun hmem =>
      frame.mark_not_mem (List.mem_cons_of_mem _ (List.mem_cons_of_mem _ hmem))
    have hbehind := behind_append hclosing []
    rwa [List.append_nil] at hbehind
  | cons t tests ih =>
    rw [List.forall_mem_cons] at hnames
    have hhead (rest : List String) :
        (dialect.functionLines s t ++ rest).head? = some (opening t.name) := by
      rw [List.head?_append, hopening, Option.some_or]
    -- The function holds no mark of its own, so the next one is that of the next test.
    rw [List.flatMap_cons, h.testLines_eq, List.cons_append, List.cons_append, behind_mark,
      List.append_assoc, behind_append (mark_not_mem (h.inner_functionLines s hnames.1)),
      ih hnames.2, List.append_assoc, hhead, List.map_cons]

/-- The marks of a suite are those of its tests, and behind each stands the first line of the
function. -/
theorem behind_suite (h : Framed dialect frame) {p : Program} (htests : p.tests ≠ [])
    (hnames : ∀ t ∈ p.tests, OneLine t.name)
    (hopening : ∀ t, (dialect.functionLines (.ofVariables p.declarations) t).head? =
      some (opening t.name)) :
    behind frame.mark (lines (dialect.suite p)) = p.tests.map fun t => some (opening t.name) := by
  have hshared : frame.mark ∉ dialect.sharedLines p := fun hmem => (h.shared p _ hmem).2 rfl
  rw [h.lines_suite htests hnames, List.append_assoc, behind_append hshared, testsLines,
    h.behind_testLines _ hopening hnames]

end Dialect.Framed

namespace Target

/-- The line that opens the function of a test. -/
def opening : Target → String → String
  | junit, name => "    void test_" ++ name ++ "() throws Exception \x7b"
  | rust, name => "fn test_" ++ name ++ "() \x7b"

private theorem head?_functionLines (target : Target) (className : String) (s : Substitution)
    (t : Test) :
    ((target.dialect className).functionLines s t).head? = some (target.opening t.name) := by
  cases target with
  | junit =>
    show some ("    void " ++ ("test_" ++ t.name) ++ "() throws Exception \x7b") = _
    rw [← String.append_assoc]
    rfl
  | rust =>
    show some ("fn " ++ ("test_" ++ t.name) ++ "() \x7b") = _
    rw [← String.append_assoc]
    rfl

end Target

/-! ## Defined names -/

/-- The name of the function that a line defines: what stands between the start of a definition and
the parenthesis. The list holds the ways in which a definition starts. -/
def definedName? : List String → String → Option String
  | [], _ => none
  | lead :: leads, line =>
    if lead.toList <+: line.toList then
      some (String.ofList ((line.toList.drop lead.toList.length).takeWhile (· != '(')))
    else definedName? leads line

/-- The names of the functions that lines define, in order. -/
def definedNames (leads these : List String) : List String := these.filterMap (definedName? leads)

section Names

variable {leads : List String}

theorem definedName?_eq_none {line : String}
    (h : ∀ lead ∈ leads, ¬ lead.toList <+: line.toList) : definedName? leads line = none := by
  induction leads with
  | nil => rfl
  | cons lead leads ih =>
    rw [List.forall_mem_cons] at h
    rw [definedName?, if_neg h.1, ih h.2]

/-- A line that starts with fixed text, other than a definition does, defines nothing. -/
theorem definedName?_of_led {start line : String} (h : Led start line)
    (hstart : ∀ lead ∈ leads, ¬ lead.toList <+: start.toList ∧ ¬ start.toList <+: lead.toList) :
    definedName? leads line = none :=
  definedName?_eq_none fun lead hlead => h.not_starts (hstart lead hlead)

theorem definedName?_self {lead name : String} (hname : '(' ∉ name.toList) (rest : List Char) :
    definedName? (lead :: leads) (lead ++ name ++ String.ofList ('(' :: rest)) = some name := by
  have hline : (lead ++ name ++ String.ofList ('(' :: rest)).toList =
      lead.toList ++ (name.toList ++ '(' :: rest) := by
    simp
  have hword : ∀ c ∈ name.toList, (c != '(') = true := by
    intro c hc
    have hne : c ≠ '(' := fun heq => hname (heq ▸ hc)
    simpa using hne
  rw [definedName?, hline, if_pos (List.prefix_append _ _), List.drop_left,
    List.takeWhile_append_of_pos hword, List.takeWhile_cons_of_neg (by decide), List.append_nil,
    String.ofList_toList]

theorem definedNames_append (these those : List String) :
    definedNames leads (these ++ those) = definedNames leads these ++ definedNames leads those :=
  List.filterMap_append

theorem definedNames_eq_nil {these : List String}
    (h : ∀ line ∈ these, definedName? leads line = none) : definedNames leads these = [] :=
  List.filterMap_eq_nil_iff.2 h

theorem definedNames_cons {line : String} (h : definedName? leads line = none)
    (rest : List String) : definedNames leads (line :: rest) = definedNames leads rest :=
  List.filterMap_cons_none h

theorem definedNames_named {line name : String} (h : definedName? leads line = some name)
    (rest : List String) : definedNames leads (line :: rest) = name :: definedNames leads rest :=
  List.filterMap_cons_some h

theorem definedNames_fixed {chars : List Char}
    (h : ∀ lead ∈ leads, ¬ lead.toList <+: chars) (rest : List String) :
    definedNames leads (String.ofList chars :: rest) = definedNames leads rest :=
  definedNames_cons (definedName?_eq_none (by rwa [String.toList_ofList])) rest

end Names

namespace Dialect

/-- The functions that the dialect defines: some of its own before the tests, and one for each
test. -/
structure Defining (dialect : Dialect) (frame : Frame) (leads own : List String) : Prop where
  shared (p : Program) : definedNames leads (dialect.sharedLines p) = own
  opening {name : String} : '(' ∉ name.toList → definedNames leads (dialect.beginTest name) = [name]
  request (first : Bool) (s : Substitution) (r : Request) :
    ∀ line ∈ dialect.request first (r.resolve s), definedName? leads line = none
  assertion (s : Substitution) (a : Assertion) :
    definedName? leads (dialect.assertion (a.resolve s)) = none
  close : definedNames leads [frame.close, ""] = []
  closing : definedNames leads frame.closing = []

namespace Defining

variable {dialect : Dialect} {frame : Frame} {leads own : List String}

/-- No statement defines a function. -/
theorem definedNames_statementLines (h : Defining dialect frame leads own) (s : Substitution)
    (fresh : Bool) (statements : List Statement) :
    definedNames leads (dialect.statementLines fresh
      (statements.map fun statement => statement.resolve s)) = [] :=
  definedNames_eq_nil (dialect.forall_mem_statementLines s (fun first r => h.request first s r)
    (h.assertion s) fresh statements)

/-- A test defines one function. -/
theorem definedNames_testLines (h : Defining dialect frame leads own)
    (hframed : Framed dialect frame) (s : Substitution) {t : Test} (hname : '(' ∉ t.name.toList) :
    definedNames leads (dialect.testLines s t) = [testNameStart ++ t.name] := by
  have hopening : '(' ∉ (testNameStart ++ t.name).toList := by
    rw [String.toList_append, List.mem_append, not_or]
    exact ⟨by decide, hname⟩
  rw [testLines, definedNames_append, definedNames_append, h.opening hopening, bodyLines,
    h.definedNames_statementLines, hframed.endTest, h.close]
  rfl

/-- A suite defines the functions of the dialect, and one for each test. -/
theorem definedNames_suite (h : Defining dialect frame leads own) (hframed : Framed dialect frame)
    {p : Program} (htests : p.tests ≠ []) (hnames : ∀ t ∈ p.tests, isIdentifier t.name = true) :
    definedNames leads (lines (dialect.suite p)) =
      own ++ p.tests.map fun t => testNameStart ++ t.name := by
  have hone : ∀ t ∈ p.tests, OneLine t.name := fun t ht => oneLine_of_isIdentifier (hnames t ht)
  have htestLines : definedNames leads (dialect.testsLines p) =
      p.tests.map fun t => testNameStart ++ t.name := by
    rw [testsLines, definedNames, List.filterMap_flatMap, List.map_eq_flatMap]
    refine List.flatMap_congr fun t ht => h.definedNames_testLines hframed _ fun hmem => ?_
    -- A name is a word, and a parenthesis is no part of one.
    exact absurd (isWordPart_of_isIdentifier (hnames t ht) _ hmem) (by decide)
  rw [hframed.lines_suite htests hone, definedNames_append, definedNames_append, h.shared,
    htestLines, h.closing, List.append_nil]

end Defining

/-! ## The two dialects -/

namespace Junit

/-- How a method of the class starts. -/
def leads : List String := ["    void ", "    static void "]

theorem definedName?_of_indented {line : String} (h : Led indent line) :
    definedName? leads line = none :=
  definedName?_of_led h (by decide)

private theorem definedNames_imports : definedNames leads imports = [] := by
  unfold imports
  repeat refine (definedNames_fixed (by decide) _).trans ?_
  rfl

private theorem definedNames_fields : definedNames leads fields = [] := by
  unfold fields
  repeat refine (definedNames_fixed (by decide) _).trans ?_
  rfl

theorem definedNames_preamble {className : String} (hname : OneLine className) (p : Program) :
    definedNames leads (preamble className p.shared) = [] := by
  rw [preamble, definedNames_append, definedNames_append, definedNames_imports,
    definedNames_fields, definedNames_cons (definedName?_of_led (led_class hname) (by decide)),
    definedNames_cons (by decide),
    definedNames_cons (definedName?_of_led (led_base p) (by decide))]
  rfl

theorem definedNames_setup (p : Program) : definedNames leads (setup p.shared) = ["setup"] := by
  have hsetup : definedName? leads "    static void setup() \x7b" = some "setup" := by decide
  have hheaders : definedNames leads (p.shared.headers.map fun h =>
      indent ++ "DEFAULT_HEADERS.put(\"" ++ h.1 ++ "\",\"" ++ h.2 ++ "\");") = [] := by
    refine definedNames_eq_nil ?_
    simp only [Program.shared, List.forall_mem_map]
    exact fun h _ => definedName?_of_indented (led_sharedHeader h)
  have hstart : definedNames leads setupStart = ["setup"] := by
    unfold setupStart
    repeat refine (definedNames_fixed (by decide) _).trans ?_
    exact definedNames_named hsetup []
  have hend : definedNames leads methodEnd = [] := by decide
  rw [setup, definedNames_append, definedNames_append, definedNames_append, hstart, hheaders, hend,
    definedNames_cons (definedName?_of_indented led_client)]
  rfl

/-- A class has a method that sets up the tests, and one for each test. -/
theorem defining {className : String} (hname : OneLine className) :
    Defining (.junit className) frame leads ["setup"] where
  shared p := by
    show definedNames leads (preamble className p.shared ++ setup p.shared) = _
    rw [definedNames_append, definedNames_preamble hname, definedNames_setup, List.nil_append]
  opening {name} h := by
    refine (definedNames_fixed (by decide) _).trans ?_
    exact definedNames_named (definedName?_self h ") throws Exception \x7b".toList) []
  request first s r := by
    obtain ⟨front, hrequest, hfront⟩ := led_request first s r
    show ∀ line ∈ request first (r.resolve s), _
    rw [hrequest]
    exact List.forall_mem_append.2 ⟨fun line hline => definedName?_of_indented (hfront line hline),
      by decide⟩
  assertion s a := definedName?_of_indented (led_assertion s a)
  close := by decide
  closing := by decide

end Junit

namespace Rust

/-- How a function of the file starts. -/
def leads : List String := ["fn "]

theorem definedName?_of_indented {line : String} (h : Led indent line) :
    definedName? leads line = none :=
  definedName?_of_led h (by decide)

theorem definedNames_preamble (p : Program) :
    definedNames leads (preamble p.shared) = ["send"] := by
  have hsend : definedName? leads "fn send(builder: RequestBuilder) -> Captured \x7b" =
      some "send" := by
    decide
  have himports : definedNames leads imports = [] := by
    unfold imports
    repeat refine (definedNames_fixed (by decide) _).trans ?_
    rfl
  have hhelpers : definedNames leads helpers = ["send"] := by
    unfold helpers
    repeat refine (definedNames_fixed (by decide) _).trans ?_
    refine (definedNames_named hsend _).trans (congrArg ("send" :: ·) ?_)
    repeat refine (definedNames_fixed (by decide) _).trans ?_
    rfl
  rw [preamble, definedNames_append, definedNames_append, himports, hhelpers,
    definedNames_cons (definedName?_of_led (led_base p) (by decide))]
  rfl

theorem definedNames_setup (p : Program) : definedNames leads (setup p.shared) = ["suite"] := by
  have hsuite : definedName? leads "fn suite() -> &'static Suite \x7b" = some "suite" := by decide
  have htimeout : Led "            .connect_timeout(Duration::from_secs("
      ("            .connect_timeout(Duration::from_secs(" ++ toString connectTimeout ++ "))") :=
    (led_append (by decide)).append (by decide)
  have hheaders : definedNames leads (sharedHeaders p.shared.headers) = [] :=
    definedNames_eq_nil fun line hline => definedName?_of_indented (led_sharedHeaders _ line hline)
  have hstart : definedNames leads setupStart = ["suite"] := by
    unfold setupStart
    refine (definedNames_named hsuite _).trans (congrArg ("suite" :: ·) ?_)
    repeat refine (definedNames_fixed (by decide) _).trans ?_
    rfl
  have hclient : definedNames leads clientEnd = [] := by
    unfold clientEnd
    repeat refine (definedNames_fixed (by decide) _).trans ?_
    rfl
  have hend : definedNames leads setupEnd = [] := by decide
  rw [setup, definedNames_append, definedNames_append, definedNames_append, definedNames_append,
    hstart, hclient, hheaders, hend, definedNames_cons (definedName?_of_led htimeout (by decide))]
  rfl

/-- A file has a function that sends requests, one that sets up the tests, and one for each test. -/
theorem defining : Defining .rust frame leads ["send", "suite"] where
  shared p := by
    show definedNames leads (preamble p.shared ++ setup p.shared) = _
    rw [definedNames_append, definedNames_preamble, definedNames_setup]
    rfl
  opening {name} h := by
    refine (definedNames_fixed (by decide) _).trans ?_
    refine (definedNames_named (definedName?_self h ") \x7b".toList) _).trans ?_
    exact congrArg (name :: ·) (definedNames_cons (by decide) [])
  request _ s r := by
    obtain ⟨front, hrequest, hfront⟩ := led_request s r
    show ∀ line ∈ request (r.resolve s), _
    rw [hrequest]
    exact List.forall_mem_append.2 ⟨fun line hline => definedName?_of_indented (hfront line hline),
      by decide⟩
  assertion s a := definedName?_of_indented (led_assertion s a)
  close := by decide
  closing := by decide

end Rust

end Dialect

namespace Target

/-- How a definition of a function starts. -/
def leads : Target → List String
  | junit => Dialect.Junit.leads
  | rust => Dialect.Rust.leads

/-- The functions that every suite defines. -/
def ownFunctions : Target → List String
  | junit => ["setup"]
  | rust => ["send", "suite"]

/-- The names of the functions that a text defines, in order. -/
def functionNames (target : Target) (text : String) : List String :=
  definedNames target.leads (lines text)

theorem defining (target : Target) {className : String} (h : isIdentifier className = true) :
    (target.dialect className).Defining target.frame target.leads target.ownFunctions := by
  cases target with
  | junit => exact Dialect.Junit.defining (oneLine_of_isIdentifier h)
  | rust => exact Dialect.Rust.defining

theorem functionNames_suite (target : Target) {className : String}
    (hname : isIdentifier className = true) {p : Program} (hp : p.WellFormed) :
    target.functionNames ((target.dialect className).suite p) =
      target.ownFunctions ++ p.tests.map fun t => testNameStart ++ t.name :=
  (target.defining hname).definedNames_suite (target.framed hname) hp.hasTest
    fun t ht => (hp.testName t ht).1

/-- No test function is named as one that every suite defines. -/
private theorem ne_of_mem_ownFunctions {target : Target} {own name : String}
    (hown : own ∈ target.ownFunctions) (hname : OneLine name) : own ≠ testNameStart ++ name := by
  have hled : Led testNameStart (testNameStart ++ name) := led_append hname
  cases target with
  | junit =>
    rw [List.mem_singleton.1 hown]
    exact (hled.ne (by decide)).symm
  | rust =>
    rcases List.mem_pair.1 hown with rfl | rfl
    · exact (hled.ne (by decide)).symm
    · exact (hled.ne (by decide)).symm

/-- A suite defines no function twice exactly if the names of its tests differ. -/
theorem nodup_functionNames_suite (target : Target) {className : String}
    (hname : isIdentifier className = true) {p : Program} (hp : p.WellFormed) :
    (target.functionNames ((target.dialect className).suite p)).Nodup ↔
      (p.tests.map Test.name).Nodup := by
  have hown : target.ownFunctions.Nodup := by cases target <;> decide
  have hnames : (p.tests.map fun t => testNameStart ++ t.name) =
      (p.tests.map Test.name).map (testNameStart ++ ·) := by
    rw [List.map_map]
    rfl
  have hinj : Function.Injective (testNameStart ++ ·) := fun _ _ => (String.append_right_inj _).1
  have hapart : ∀ own ∈ target.ownFunctions, ∀ name ∈ p.tests.map fun t => testNameStart ++ t.name,
      own ≠ name := by
    simp only [List.forall_mem_map]
    exact fun own hmem t ht =>
      ne_of_mem_ownFunctions hmem (oneLine_of_isIdentifier (hp.testName t ht).1)
  rw [target.functionNames_suite hname hp, List.nodup_append, and_iff_right hown,
    and_iff_left hapart, hnames, List.nodup_map_iff hinj]

end Target

/-! ## Compiled suites -/

/-- A compiled suite has one mark for each test of its source, and right behind each, in order, the
line that opens the function named after the test. -/
theorem behind_marks_compile {source : String} {options : Options} {output : Output}
    (h : compile source options = .ok output) :
    ∃ p, Program.parse source = .ok p ∧
      (lines output.source).count options.target.frame.mark = p.tests.length ∧
      behind options.target.frame.mark (lines output.source) =
        p.tests.map fun t => some (options.target.opening t.name) := by
  obtain ⟨hname, p, diagnostics, hparse, -, rfl⟩ := compile_eq_ok_iff.1 h
  have hp := Program.wellFormed_of_parse hparse
  have hone : ∀ t ∈ p.tests, OneLine t.name := fun t ht =>
    oneLine_of_isIdentifier (hp.testName t ht).1
  have hbehind := (options.target.framed hname).behind_suite hp.hasTest hone
    (options.target.head?_functionLines options.className _)
  refine ⟨p, hparse, ?_, hbehind⟩
  rw [← length_behind, hbehind, List.length_map]

/-- Two tests of these names, among texts that look like the marks and functions of a suite. -/
def markedTexts (first second : String) : Program where
  config := some
    { baseUrl := some "\n    @Test\n    void test_c() throws Exception \x7b\n"
      headers := [⟨"\n#[test]\nfn test_c() \x7b\n", "\n    @Test\n"⟩] }
  declarations := [⟨"x", .text "\n    @Test\n"⟩]
  tests :=
    [ ⟨first,
        [ .request { method := .post, url := "/$x", body := some "\n#[test]\n$x" }
        , .assertion (.bodyContains "\n    @Test\n"), .assertion (.statusEquals 200) ]⟩
    , ⟨second,
        [ .request { method := .get, url := "\n#[test]\n" }
        , .assertion (.headerEquals "$x" "\n    \x7d\n"), .assertion (.statusEquals 200) ]⟩ ]

theorem compile_markedTexts {first second : String}
    (h : (markedTexts first second).WellFormed) (target : Target) :
    compile (markedTexts first second).print { target } =
      .ok ⟨(target.dialect defaultClassName).suite (markedTexts first second), []⟩ := by
  have hname : isIdentifier defaultClassName = true := by decide
  exact compile_print h _ hname rfl

/-- No text of the program is taken for a mark. -/
theorem behind_marks_compile_markedTexts :
    (∃ output, compile (markedTexts "a" "b").print { target := .junit } = .ok output ∧
      behind "    @Test" (lines output.source) =
        [some "    void test_a() throws Exception \x7b",
          some "    void test_b() throws Exception \x7b"]) ∧
    ∃ output, compile (markedTexts "a" "b").print { target := .rust } = .ok output ∧
      behind "#[test]" (lines output.source) =
        [some "fn test_a() \x7b", some "fn test_b() \x7b"] := by
  have hwellFormed : (markedTexts "a" "b").WellFormed := by decide
  constructor
  · obtain ⟨p, hp, -, hbehind⟩ := behind_marks_compile (compile_markedTexts hwellFormed .junit)
    rw [Program.parse_print hwellFormed] at hp
    cases hp
    exact ⟨_, compile_markedTexts hwellFormed .junit, hbehind⟩
  · obtain ⟨p, hp, -, hbehind⟩ := behind_marks_compile (compile_markedTexts hwellFormed .rust)
    rw [Program.parse_print hwellFormed] at hp
    cases hp
    exact ⟨_, compile_markedTexts hwellFormed .rust, hbehind⟩

/-- The functions that a compiled suite defines are those of the target and one for each test of the
source, named after it; no two have the same name exactly if no two tests have. -/
theorem nodup_functionNames_compile {source : String} {options : Options} {output : Output}
    (h : compile source options = .ok output) :
    ∃ p, Program.parse source = .ok p ∧
      options.target.functionNames output.source =
        options.target.ownFunctions ++ p.tests.map (fun t => testNameStart ++ t.name) ∧
      ((options.target.functionNames output.source).Nodup ↔ (p.tests.map Test.name).Nodup) := by
  obtain ⟨hname, p, diagnostics, hparse, -, rfl⟩ := compile_eq_ok_iff.1 h
  have hp := Program.wellFormed_of_parse hparse
  exact ⟨p, hparse, options.target.functionNames_suite hname hp,
    options.target.nodup_functionNames_suite hname hp⟩

/-- Tests of different names, among texts that look like functions. -/
theorem nodup_functionNames_compile_markedTexts :
    ∃ output, compile (markedTexts "a" "b").print { target := .rust } = .ok output ∧
      Target.rust.functionNames output.source = ["send", "suite", "test_a", "test_b"] ∧
      (Target.rust.functionNames output.source).Nodup := by
  have hwellFormed : (markedTexts "a" "b").WellFormed := by decide
  have hcompile := compile_markedTexts hwellFormed .rust
  obtain ⟨p, hp, hfunctions, hnodup⟩ := nodup_functionNames_compile hcompile
  rw [Program.parse_print hwellFormed] at hp
  cases hp
  exact ⟨_, hcompile, hfunctions, hnodup.2 (by decide)⟩

theorem not_nodup_functionNames_markedTexts (target : Target) :
    ∃ output, compile (markedTexts "a" "a").print { target } = .ok output ∧
      ¬ (target.functionNames output.source).Nodup := by
  have hwellFormed : (markedTexts "a" "a").WellFormed := by decide
  have hname : isIdentifier defaultClassName = true := by decide
  refine ⟨_, compile_markedTexts hwellFormed target, ?_⟩
  rw [target.nodup_functionNames_suite hname hwellFormed]
  decide

/-- A source that compiles, for either target, to a suite that defines a function twice. -/
theorem exists_repeated_function :
    (∃ output, compile (markedTexts "a" "a").print { target := .junit } = .ok output ∧
      ¬ (Target.junit.functionNames output.source).Nodup) ∧
    ∃ output, compile (markedTexts "a" "a").print { target := .rust } = .ok output ∧
      ¬ (Target.rust.functionNames output.source).Nodup :=
  ⟨not_nodup_functionNames_markedTexts .junit, not_nodup_functionNames_markedTexts .rust⟩

end HttpSuite
