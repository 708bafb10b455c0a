import HttpSuite.Proofs.Literals

/-!
# The lines of a suite

A suite is written piece by piece, and each piece is some lines.  So the whole text is a list of
lines: those that all tests share, then those of each test, then a close.  No text of the program
can break a line, because line ends are escaped; hence cutting the text at its line ends gives these
lines back, and the test functions can be found in the text alone, by the line that marks the start
of each and the line that closes it.

## Main definitions

* `Text.lines`: a text cut at its line ends.
* `Dialect.testLines`: the lines of a test.
* `Frame`, `Frame.functions`: the lines around a test function, and the functions of a text.
* `Dialect.Framed`: the dialect writes lines that cannot be mistaken for those of the frame.

## Main results

* `Dialect.suite_eq`: the text of a suite as its lines.
* `Dialect.Framed.lines_suite`: the lines of a suite.
* `Dialect.Framed.takeWhile_suite`: the lines that all tests share stand before the first test.
* `Dialect.Framed.functions_suite`: the functions of a suite are those of its tests.
-/

namespace HttpSuite

/-! ## Lines of a text -/

namespace Text

/-- A text that has no line end. -/
def OneLine (text : String) : Prop := '\n' ∉ text.toList

instance (text : String) : Decidable (OneLine text) := inferInstanceAs (Decidable (_ ∉ _))

@[simp] theorem oneLine_append {first second : String} :
    OneLine (first ++ second) ↔ OneLine first ∧ OneLine second := by
  simp [OneLine, String.toList_append]

theorem oneLine_ofList {chars : List Char} (h : '\n' ∉ chars) : OneLine (String.ofList chars) := by
  rwa [OneLine, String.toList_ofList]

/-- An escaped text stays on its line. -/
@[simp] theorem oneLine_escape (text : String) : OneLine (escape text) := by
  unfold OneLine
  rw [toList_escape]
  exact lineFeed_not_mem_escapeChars text.toList

theorem oneLine_of_isIdentifier {text : String} (h : isIdentifier text = true) : OneLine text :=
  fun hmem => absurd (isWordPart_of_isIdentifier h _ hmem) (by decide)

/-- Numbers are written on one line. -/
theorem oneLine_toString (n : Int) : OneLine (toString n) := by
  have hdigits (k : Nat) : '\n' ∉ k.repr.toList := by
    intro h
    rw [Nat.toList_repr] at h
    exact absurd (Nat.isDigit_of_mem_toDigits (by decide) (by decide) h) (by decide)
  cases n with
  | ofNat k => exact hdigits k
  | negSucc k =>
    show OneLine ("-" ++ (k + 1).repr)
    exact oneLine_append.2 ⟨by decide, hdigits (k + 1)⟩

/-- A text cut at its line ends. -/
def lines (text : String) : List String := (text.toList.splitOn '\n').map String.ofList

theorem lines_append (first second : String) :
    lines (first ++ "\n" ++ second) = lines first ++ lines second := by
  have hlist : (first ++ "\n" ++ second).toList = first.toList ++ '\n' :: second.toList := by
    simp
  rw [lines, hlist, List.splitOn_append_cons_self, List.map_append]
  rfl

theorem lines_of_oneLine {line : String} (h : OneLine line) : lines line = [line] := by
  rw [lines, List.splitOn_eq_singleton h, List.map_singleton, String.ofList_toList]

theorem lines_line_append {line : String} (h : OneLine line) (text : String) :
    lines (line ++ "\n" ++ text) = line :: lines text := by
  rw [lines_append, lines_of_oneLine h, List.singleton_append]

/-- Lines in front of a text are cut off one by one. -/
theorem lines_unlines_append {these : List String} (h : ∀ line ∈ these, OneLine line)
    (text : String) : lines (unlines these ++ text) = these ++ lines text := by
  induction these with
  | nil => rw [unlines, List.map_nil, String.join_nil, String.empty_append, List.nil_append]
  | cons line these ih =>
    rw [List.forall_mem_cons] at h
    rw [Literal.unlines_cons, String.append_assoc, lines_line_append h.1, ih h.2,
      List.cons_append]

/-- The line starts with this text. -/
def Led (lead line : String) : Prop := ∃ rest, OneLine rest ∧ line = lead ++ rest

theorem led_append {lead rest : String} (h : OneLine rest) : Led lead (lead ++ rest) :=
  ⟨rest, h, rfl⟩

/-- Fixed text is a line that starts with a text. -/
theorem led_ofList {lead : String} {chars : List Char} (h : lead.toList <+: chars ∧ '\n' ∉ chars) :
    Led lead (String.ofList chars) := by
  obtain ⟨⟨rest, rfl⟩, hline⟩ := h
  refine ⟨String.ofList rest, oneLine_ofList fun hmem => hline (List.mem_append_right _ hmem), ?_⟩
  rw [String.ofList_append, String.ofList_toList]

theorem Led.append {lead line rest : String} (h : Led lead line) (hrest : OneLine rest) :
    Led lead (line ++ rest) := by
  obtain ⟨first, hfirst, rfl⟩ := h
  exact ⟨first ++ rest, oneLine_append.2 ⟨hfirst, hrest⟩, String.append_assoc⟩

/-- A line that starts with a text starts with what the text starts with. -/
theorem Led.shorten {lead line : String} (more : String) (hmore : OneLine more)
    (h : Led (lead ++ more) line) : Led lead line := by
  obtain ⟨rest, hrest, rfl⟩ := h
  exact ⟨more ++ rest, oneLine_append.2 ⟨hmore, hrest⟩, String.append_assoc⟩

theorem Led.oneLine {lead line : String} (h : Led lead line) (hlead : OneLine lead) :
    OneLine line := by
  obtain ⟨rest, hrest, rfl⟩ := h
  exact oneLine_append.2 ⟨hlead, hrest⟩

/-- A line does not equal one that does not start as it does. -/
theorem Led.ne {lead line other : String} (h : Led lead line)
    (hother : ¬ lead.toList <+: other.toList) : line ≠ other := by
  obtain ⟨rest, -, rfl⟩ := h
  intro heq
  refine hother ⟨rest.toList, ?_⟩
  rw [← String.toList_append, heq]

/-- Of two starts of one line, one is a start of the other. -/
theorem Led.not_starts {lead start line : String} (h : Led start line)
    (hstart : ¬ lead.toList <+: start.toList ∧ ¬ start.toList <+: lead.toList) :
    ¬ lead.toList <+: line.toList := by
  obtain ⟨rest, -, rfl⟩ := h
  rw [String.toList_append]
  intro hpre
  exact (List.prefix_or_prefix_of_prefix hpre (List.prefix_append _ _)).elim hstart.1 hstart.2

end Text

open Text

/-! ## Lines of a suite -/

namespace Dialect

variable (dialect : Dialect)

/-- The lines of statements; the flag says whether no request was written yet in their test. -/
def statementLines : Bool → List Resolved.Statement → List String
  | _, [] => []
  | fresh, .request r :: statements => dialect.request fresh r ++ statementLines false statements
  | fresh, .assertion a :: statements => dialect.assertion a :: statementLines fresh statements

/-- The lines of a test's statements. -/
def bodyLines (s : Substitution) (t : Test) : List String :=
  dialect.statementLines true (t.statements.map fun statement => statement.resolve s)

/-- The lines of a test. -/
def testLines (s : Substitution) (t : Test) : List String :=
  dialect.beginTest (testNameStart ++ t.name) ++ dialect.bodyLines s t ++ dialect.endTest

/-- The lines that all tests of a program share. -/
def sharedLines (p : Program) : List String := dialect.preamble p.shared ++ dialect.setup p.shared

/-- The lines of a program's tests. -/
def testsLines (p : Program) : List String :=
  p.tests.flatMap (dialect.testLines (.ofVariables p.declarations))

/-- What holds of the lines of every request and assertion holds of those of statements. -/
theorem forall_mem_statementLines {P : String → Prop} (s : Substitution)
    (hrequest : ∀ first (r : Request), ∀ line ∈ dialect.request first (r.resolve s), P line)
    (hassertion : ∀ a : Assertion, P (dialect.assertion (a.resolve s))) (fresh : Bool)
    (statements : List Statement) :
    ∀ line ∈ dialect.statementLines fresh (statements.map fun statement => statement.resolve s),
      P line := by
  induction statements generalizing fresh with
  | nil => exact fun line hline => absurd hline List.not_mem_nil
  | cons statement statements ih =>
    cases statement with
    | request r => exact List.forall_mem_append.2 ⟨hrequest fresh r, ih false⟩
    | assertion a => exact List.forall_mem_cons.2 ⟨hassertion a, ih fresh⟩

theorem text_writeAll_statements (draft : Draft) (statements : List Resolved.Statement) :
    (draft.writeAll dialect (statements.map Resolved.Statement.piece)).text =
      draft.text ++ unlines (dialect.statementLines draft.fresh statements) := by
  induction statements generalizing draft with
  | nil => exact String.append_empty.symm
  | cons statement statements ih =>
    cases statement with
    | request r =>
      have hstep := ih (draft.write dialect (.request r))
      rw [statementLines, Literal.unlines_append, ← String.append_assoc]
      exact hstep
    | assertion a =>
      have hstep := ih (draft.write dialect (.assertion a))
      have hlines := Literal.unlines_append [dialect.assertion a]
        (dialect.statementLines draft.fresh statements)
      rw [List.singleton_append] at hlines
      rw [statementLines, hlines, ← String.append_assoc]
      exact hstep

theorem text_writeAll_test (draft : Draft) (s : Substitution) (t : Test) :
    (draft.writeAll dialect (t.pieces s)).text = draft.text ++ unlines (dialect.testLines s t) := by
  have hstatements := dialect.text_writeAll_statements
    (draft.write dialect (.beginTest (testNameStart ++ t.name)))
    (t.statements.map fun statement => statement.resolve s)
  rw [List.map_map] at hstatements
  rw [testLines, Literal.unlines_append, Literal.unlines_append, ← String.append_assoc,
    ← String.append_assoc, Test.pieces, Draft.writeAll, List.cons_append, List.foldl_cons,
    List.foldl_append]
  exact congrArg (· ++ unlines dialect.endTest) hstatements

theorem text_writeAll_tests (draft : Draft) (s : Substitution) (tests : List Test) :
    (draft.writeAll dialect (tests.flatMap (Test.pieces s))).text =
      draft.text ++ unlines (tests.flatMap (dialect.testLines s)) := by
  induction tests generalizing draft with
  | nil => exact String.append_empty.symm
  | cons t tests ih =>
    rw [List.flatMap_cons, List.flatMap_cons, Literal.unlines_append, ← String.append_assoc,
      ← text_writeAll_test, ← ih, Draft.writeAll, List.foldl_append]
    rfl

/-- The text of a suite is that of its lines, with its close. -/
theorem suite_eq (p : Program) :
    dialect.suite p = dialect.finish (unlines (dialect.sharedLines p ++ dialect.testsLines p)) := by
  have htests := dialect.text_writeAll_tests
    (Draft.writeAll dialect {} [.preamble p.shared, .setup p.shared])
    (.ofVariables p.declarations) p.tests
  have hshared : (Draft.writeAll dialect {} [.preamble p.shared, .setup p.shared]).text =
      unlines (dialect.sharedLines p) := by
    rw [sharedLines, Literal.unlines_append]
    show "" ++ unlines (dialect.preamble p.shared) ++ unlines (dialect.setup p.shared) = _
    rw [String.empty_append]
  rw [suite, Program.pieces, Draft.writeAll, List.foldl_append, List.foldl_append,
    Literal.unlines_append, testsLines, ← hshared, ← htests]
  rfl

/-- A suite of one test or more ends, before its close, as its last test does. -/
theorem exists_eq_append_endTest {p : Program} (h : p.tests ≠ []) :
    ∃ these, dialect.sharedLines p ++ dialect.testsLines p = these ++ dialect.endTest := by
  obtain ⟨before, last, hlast⟩ := List.eq_nil_or_concat p.tests |>.resolve_left h
  refine ⟨dialect.sharedLines p ++ before.flatMap (dialect.testLines (.ofVariables p.declarations))
    ++ (dialect.beginTest (testNameStart ++ last.name)
      ++ dialect.bodyLines (.ofVariables p.declarations) last), ?_⟩
  rw [testsLines, hlast, List.concat_eq_append, List.flatMap_append]
  simp [testLines, List.append_assoc]

end Dialect

/-! ## Test functions -/

/-- The fixed lines around the test functions of a suite. They can be told apart. -/
structure Frame where
  /-- The line before each function. -/
  mark : String
  /-- The line that closes each function. -/
  close : String
  /-- The lines behind the last test. -/
  closing : List String
  mark_oneLine : OneLine mark := by decide
  close_oneLine : OneLine close := by decide
  close_ne : close ≠ "" := by decide
  mark_not_mem : mark ∉ close :: "" :: closing := by decide

/-- The functions of a text, each without the line that marks it and the one that closes it. -/
def Frame.functions (frame : Frame) (text : String) : List (List String) :=
  ((lines text).splitOn frame.mark).tail.map (List.takeWhile (· != frame.close))

/-- A line inside a function: it neither closes it nor marks another. -/
def Frame.Inner (frame : Frame) (line : String) : Prop :=
  OneLine line ∧ line ≠ frame.mark ∧ line ≠ frame.close

theorem Frame.inner_blank (frame : Frame) : frame.Inner "" := by
  have hmark := frame.mark_not_mem
  simp only [List.mem_cons, not_or] at hmark
  exact ⟨by decide, Ne.symm hmark.2.1, Ne.symm frame.close_ne⟩

/-- A line inside a function is known by its start. -/
theorem Frame.inner_of_led {frame : Frame} {lead line : String} (h : Led lead line)
    (hlead : OneLine lead) (hmark : ¬ lead.toList <+: frame.mark.toList)
    (hclose : ¬ lead.toList <+: frame.close.toList) : frame.Inner line :=
  ⟨h.oneLine hlead, h.ne hmark, h.ne hclose⟩

/-- A line outside all functions: it marks none. -/
def Frame.Outer (frame : Frame) (line : String) : Prop := OneLine line ∧ line ≠ frame.mark

/-- Fixed lines outside all functions, one by one. -/
theorem Frame.outer_cons {frame : Frame} {chars : List Char} {these : List String}
    (h : '\n' ∉ chars ∧ chars ≠ frame.mark.toList) (hthese : ∀ line ∈ these, frame.Outer line) :
    ∀ line ∈ String.ofList chars :: these, frame.Outer line :=
  List.forall_mem_cons.2
    ⟨⟨oneLine_ofList h.1, fun heq => h.2 (by rw [← heq, String.toList_ofList])⟩, hthese⟩

/-- A line outside all functions is known by its start. -/
theorem Frame.outer_of_led {frame : Frame} {lead line : String} (h : Led lead line)
    (hlead : OneLine lead) (hmark : ¬ lead.toList <+: frame.mark.toList) : frame.Outer line :=
  ⟨h.oneLine hlead, h.ne hmark⟩

/-- The lines of the dialect stand in the frame, and only its marks mark functions. -/
structure Dialect.Framed (dialect : Dialect) (frame : Frame) : Prop where
  shared (p : Program) : ∀ line ∈ dialect.sharedLines p, frame.Outer line
  mark (name : String) :
    dialect.beginTest name = frame.mark :: (dialect.beginTest name).tail
  opening {name : String} : OneLine name → ∀ line ∈ (dialect.beginTest name).tail, frame.Inner line
  request (first : Bool) (s : Substitution) (r : Request) :
    ∃ front, dialect.request first (r.resolve s) = front ++ [""] ∧
      ∀ line ∈ front, frame.Inner line ∧ line ≠ ""
  assertion (s : Substitution) (a : Assertion) : frame.Inner (dialect.assertion (a.resolve s))
  endTest : dialect.endTest = [frame.close, ""]
  finish (these : List String) :
    (∀ line ∈ these, OneLine line) → lines (dialect.finish (unlines (these ++ dialect.endTest))) =
      these ++ dialect.endTest ++ frame.closing

namespace Dialect

/-- The lines inside a test function. -/
def functionLines (dialect : Dialect) (s : Substitution) (t : Test) : List String :=
  (dialect.beginTest (testNameStart ++ t.name)).tail ++ dialect.bodyLines s t

namespace Framed

variable {dialect : Dialect} {frame : Frame}

theorem inner_statementLines (h : Framed dialect frame) (s : Substitution) (fresh : Bool)
    (statements : List Statement) :
    ∀ line ∈ dialect.statementLines fresh (statements.map fun statement => statement.resolve s),
      frame.Inner line := by
  refine dialect.forall_mem_statementLines s (fun first r => ?_) (h.assertion s) fresh statements
  obtain ⟨front, hrequest, hfront⟩ := h.request first s r
  rw [hrequest]
  exact List.forall_mem_append.2 ⟨fun line hline => (hfront line hline).1,
    List.forall_mem_singleton.2 frame.inner_blank⟩

theorem oneLine_name {t : Test} (h : OneLine t.name) : OneLine (testNameStart ++ t.name) :=
  oneLine_append.2 ⟨by decide, h⟩

theorem inner_functionLines (h : Framed dialect frame) (s : Substitution) {t : Test}
    (hname : OneLine t.name) : ∀ line ∈ dialect.functionLines s t, frame.Inner line :=
  List.forall_mem_append.2
    ⟨h.opening (oneLine_name hname), h.inner_statementLines s true t.statements⟩

/-- A test is its function in the frame. -/
theorem testLines_eq (h : Framed dialect frame) (s : Substitution) (t : Test) :
    dialect.testLines s t =
      frame.mark :: (dialect.functionLines s t ++ [frame.close, ""]) := by
  rw [testLines, h.mark, h.endTest]
  simp [functionLines]

theorem oneLine_testLines (h : Framed dialect frame) (s : Substitution) {t : Test}
    (hname : OneLine t.name) : ∀ line ∈ dialect.testLines s t, OneLine line := by
  rw [h.testLines_eq]
  refine List.forall_mem_cons.2 ⟨frame.mark_oneLine, List.forall_mem_append.2 ⟨?_, ?_⟩⟩
  · exact fun line hline => (h.inner_functionLines s hname line hline).1
  · exact List.forall_mem_cons.2 ⟨frame.close_oneLine, by decide⟩

/-- The lines of a suite are those that were written. -/
theorem lines_suite (h : Framed dialect frame) {p : Program} (htests : p.tests ≠ [])
    (hnames : ∀ t ∈ p.tests, OneLine t.name) :
    lines (dialect.suite p) = dialect.sharedLines p ++ dialect.testsLines p ++ frame.closing := by
  obtain ⟨these, hsplit⟩ := dialect.exists_eq_append_endTest htests
  have hone : ∀ line ∈ dialect.sharedLines p ++ dialect.testsLines p, OneLine line := by
    refine List.forall_mem_append.2 ⟨fun line hline => (h.shared p line hline).1, ?_⟩
    intro line hline
    obtain ⟨t, ht, hline⟩ := List.mem_flatMap.1 hline
    exact h.oneLine_testLines _ (hnames t ht) line hline
  rw [suite_eq, hsplit]
  rw [hsplit] at hone
  exact h.finish _ (List.forall_mem_append.1 hone).1

/-- The lines before the first mark are those that all tests share. -/
theorem takeWhile_suite (h : Framed dialect frame) {p : Program} (htests : p.tests ≠ [])
    (hnames : ∀ t ∈ p.tests, OneLine t.name) :
    (lines (dialect.suite p)).takeWhile (· != frame.mark) = dialect.sharedLines p := by
  obtain ⟨t, tests, hcons⟩ := List.exists_cons_of_ne_nil htests
  rw [h.lines_suite htests hnames, testsLines, hcons, List.flatMap_cons, h.testLines_eq,
    List.append_assoc, List.takeWhile_append_of_pos]
  · simp
  · intro line hline
    simpa using (h.shared p line hline).2

/-- A function is what stands before its closing line. -/
theorem takeWhile_function {function : List String} (h : ∀ line ∈ function, frame.Inner line)
    (rest : List String) :
    (function ++ frame.close :: rest).takeWhile (· != frame.close) = function := by
  rw [List.takeWhile_append_of_pos]
  · simp
  · intro line hline
    simpa using (h line hline).2.2

theorem mark_not_mem {function : List String} (h : ∀ line ∈ function, frame.Inner line) :
    frame.mark ∉ function ++ [frame.close, ""] := by
  have hframe := frame.mark_not_mem
  simp only [List.mem_cons, not_or] at hframe
  simp only [List.mem_append, List.mem_cons, List.not_mem_nil, or_false, not_or]
  exact ⟨fun hmem => (h _ hmem).2.1 rfl, hframe.1, hframe.2.1⟩

/-- Cutting at the marks and the closing lines, from the start of a function on. -/
theorem functions_from (h : Framed dialect frame) (s : Substitution) {tests : List Test}
    (hnames : ∀ t ∈ tests, OneLine t.name) {function : List String}
    (hfunction : ∀ line ∈ function, frame.Inner line) :
    ((function ++ [frame.close, ""] ++ (tests.flatMap (dialect.testLines s)
        ++ frame.closing)).splitOn frame.mark).map (List.takeWhile (· != frame.close)) =
      function :: tests.map (dialect.functionLines s) := by
  have hmark := mark_not_mem hfunction
  induction tests generalizing function with
  | nil =>
    have hclosing : frame.mark ∉ frame.closing := fun hmem =>
      frame.mark_not_mem (List.mem_cons_of_mem _ (List.mem_cons_of_mem _ hmem))
    have hmarks : frame.mark ∉ function ++ [frame.close, ""] ++ frame.closing :=
      fun hmem => (List.mem_append.1 hmem).elim hmark hclosing
    rw [List.flatMap_nil, List.nil_append, List.splitOn_eq_singleton hmarks, List.map_singleton,
      List.append_assoc, List.cons_append, takeWhile_function hfunction]
    rfl
  | cons t tests ih =>
    rw [List.forall_mem_cons] at hnames
    have hinner := h.inner_functionLines s hnames.1
    rw [List.flatMap_cons, h.testLines_eq, List.cons_append, List.cons_append,
      List.splitOn_append_cons_self_of_not_mem hmark, List.map_cons,
      List.append_assoc _ _ frame.closing, ih hnames.2 hinner (mark_not_mem hinner),
      takeWhile_function hfunction, List.map_cons]

/-- The functions that are found in a suite are those of its tests. -/
theorem functions_suite (h : Framed dialect frame) {p : Program} (htests : p.tests ≠ [])
    (hnames : ∀ t ∈ p.tests, OneLine t.name) :
    frame.functions (dialect.suite p) =
      p.tests.map (dialect.functionLines (.ofVariables p.declarations)) := by
  have hshared : frame.mark ∉ dialect.sharedLines p := fun hmem => (h.shared p _ hmem).2 rfl
  rw [Frame.functions, h.lines_suite htests hnames, testsLines]
  obtain ⟨t, tests, hcons⟩ := List.exists_cons_of_ne_nil htests
  rw [hcons, List.forall_mem_cons] at hnames
  have hfirst := h.functions_from (.ofVariables p.declarations) hnames.2
    (h.inner_functionLines (.ofVariables p.declarations) hnames.1)
  rw [hcons, List.flatMap_cons, h.testLines_eq, List.append_assoc, List.cons_append,
    List.cons_append, List.splitOn_append_cons_self_of_not_mem hshared, List.tail_cons,
    List.append_assoc _ _ frame.closing, hfirst, List.map_cons]

end Framed

end Dialect

end HttpSuite
