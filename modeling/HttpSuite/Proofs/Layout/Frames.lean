import HttpSuite.Proofs.Layout

/-!
# The frames of the two dialects

In both dialects the lines inside a test function are indented further than the lines around it, and
no text of the program stands at the start of a line.  So these lines cannot be mistaken for the
marks and closing lines of the frame.

## Main results

* `Dialect.Junit.framed`, `Dialect.Rust.framed`: the frames of the two dialects.
-/

namespace HttpSuite

open Text

namespace Dialect

/-! ## JUnit -/

namespace Junit

/-- The lines around the test functions of a JUnit class. -/
def frame : Frame where
  mark := "    @Test"
  close := "    \x7d"
  closing := ["\x7d", ""]

/-- An indented line stands inside a function. -/
theorem inner_of_led {line : String} (h : Led indent line) : frame.Inner line ∧ line ≠ "" :=
  ⟨Frame.inner_of_led h (by decide) (by decide) (by decide), h.ne (by decide)⟩

/-- A line that continues a statement is indented. -/
theorem led_indent {line : String} (h : Led continuation line) : Led indent line :=
  .shorten "    " (by decide) h

theorem oneLine_url (s : Substitution) (u : String) : OneLine (url (s.url u)) := by
  unfold Substitution.url
  dsimp only
  split
  · exact oneLine_append.2 ⟨oneLine_append.2 ⟨by decide, oneLine_escape _⟩, by decide⟩
  · exact oneLine_append.2 ⟨oneLine_append.2 ⟨by decide, oneLine_escape _⟩, by decide⟩

private theorem oneLine_methodCall (s : Substitution) (r : Request) :
    OneLine (methodCall (r.resolve s)) := by
  have hverb : OneLine ("." ++ r.method.verb ++ "(") := by cases r.method <;> decide
  have hbody : (r.resolve s).body = s.body r.method r.body := rfl
  unfold methodCall
  rcases s.body_cases r with ⟨-, heq, -⟩ | ⟨-, heq, -⟩ | ⟨content, -, heq, -⟩
  · rw [hbody, heq]
    exact oneLine_append.2 ⟨oneLine_append.2 ⟨hverb, by decide⟩, by decide⟩
  · rw [hbody, heq]
    exact oneLine_append.2 ⟨oneLine_append.2 ⟨hverb, oneLine_ofList (by decide)⟩, by decide⟩
  · rw [hbody, heq]
    refine oneLine_append.2 ⟨oneLine_append.2 ⟨hverb, ?_⟩, by decide⟩
    simp only [oneLine_append, oneLine_escape]
    decide

theorem led_header (h : Header) :
    Led indent (indent ++ "b.header(\"" ++ h.resolve.1 ++ "\", \"" ++ h.resolve.2 ++ "\");") :=
  ((((led_append (by decide)).append (oneLine_escape _)).append (by decide)).append
    (oneLine_escape _)).append (by decide)

/-- A request is some indented lines and a blank one. -/
theorem led_request (first : Bool) (s : Substitution) (r : Request) :
    ∃ front, request first (r.resolve s) = front ++ [""] ∧ ∀ line ∈ front, Led indent line := by
  refine ⟨_, (List.append_assoc _ [_] [""]).symm, ?_⟩
  simp only [Request.resolve, List.forall_mem_append, List.forall_mem_cons, List.forall_mem_map,
    List.not_mem_nil, false_imp_iff, implies_true, and_true]
  refine ⟨⟨⟨⟨?url, ?timeout, ?call⟩, fun h _ => led_header h⟩, ?shared⟩, ?send⟩
  case url =>
    refine (((led_append ?_).append (by decide)).append (oneLine_url s r.url)).append (by decide)
    cases first <;> decide
  case timeout =>
    exact led_indent (((led_append (by decide)).append (by decide)).append (by decide))
  case call => exact led_indent ((led_append (oneLine_methodCall s r)).append (by decide))
  case shared => exact led_append (oneLine_ofList (by decide))
  case send =>
    refine (led_append ?_).append (oneLine_ofList (by decide))
    cases first <;> decide

theorem led_assertion (s : Substitution) (a : Assertion) :
    Led indent (assertion (a.resolve s)) := by
  refine led_append ?_
  cases a with
  | statusEquals code =>
    exact oneLine_append.2 ⟨oneLine_append.2 ⟨by decide, oneLine_toString _⟩, by decide⟩
  | headerEquals | headerContains | bodyContains =>
    simp only [Assertion.resolve, Substitution.literal, oneLine_append, oneLine_escape]
    decide

theorem led_class {className : String} (hname : OneLine className) :
    Led "public class " ("public class " ++ className ++ " \x7b") :=
  (led_append hname).append (by decide)

theorem led_base (p : Program) : Led "    static String BASE = \""
    ("    static String BASE = \"" ++ p.shared.baseUrl ++ "\";") :=
  (led_append (oneLine_escape _)).append (by decide)

theorem led_client : Led indent (indent
    ++ "client = HttpClient.newBuilder().connectTimeout(Duration.ofSeconds("
    ++ toString connectTimeout ++ ")).build();") :=
  ((led_append (oneLine_ofList (by decide))).append (by decide)).append (by decide)

theorem led_sharedHeader (h : Header) :
    Led indent (indent ++ "DEFAULT_HEADERS.put(\"" ++ h.resolve.1
      ++ "\",\"" ++ h.resolve.2 ++ "\");") :=
  ((((led_append (by decide)).append (oneLine_escape _)).append (by decide)).append
    (oneLine_escape _)).append (by decide)

/-- The fixed lines before the first test mark no test. -/
theorem outer_fixed : ∀ line ∈ imports ++ fields ++ setupStart ++ methodEnd, frame.Outer line := by
  simp only [imports, fields, setupStart, methodEnd, List.cons_append, List.nil_append]
  repeat refine Frame.outer_cons (by decide) ?_
  exact List.forall_mem_nil _

theorem outer_preamble {className : String} (hname : OneLine className) (p : Program) :
    ∀ line ∈ preamble className p.shared, frame.Outer line := by
  have hfixed := outer_fixed
  simp only [List.forall_mem_append] at hfixed
  obtain ⟨⟨⟨himports, hfields⟩, -⟩, -⟩ := hfixed
  simp only [preamble, List.forall_mem_append, List.forall_mem_cons]
  refine ⟨⟨himports, ?opening, ?blank, ?base, List.forall_mem_nil _⟩, hfields⟩
  case opening => exact Frame.outer_of_led (led_class hname) (by decide) (by decide)
  case blank => exact ⟨by decide, by decide⟩
  case base => exact Frame.outer_of_led (led_base p) (by decide) (by decide)

theorem outer_setup (p : Program) :
    ∀ line ∈ setup p.shared, frame.Outer line := by
  have hfixed := outer_fixed
  simp only [List.forall_mem_append] at hfixed
  obtain ⟨⟨-, hstart⟩, hend⟩ := hfixed
  simp only [setup, Program.shared, List.forall_mem_append, List.forall_mem_singleton,
    List.forall_mem_map]
  refine ⟨⟨⟨hstart, ?client⟩, fun h _ => ?header⟩, hend⟩
  case client => exact Frame.outer_of_led led_client (by decide) (by decide)
  case header => exact Frame.outer_of_led (led_sharedHeader h) (by decide) (by decide)

/-- The lines of a JUnit suite. -/
theorem framed {className : String} (hname : OneLine className) :
    Framed (.junit className) frame where
  shared p := List.forall_mem_append.2 ⟨outer_preamble hname p, outer_setup p⟩
  mark name := rfl
  opening {name} h := by
    have hline : Led "    void " ("    void " ++ name ++ "() throws Exception \x7b") :=
      (led_append h).append (by decide)
    exact List.forall_mem_singleton.2
      (Frame.inner_of_led hline (by decide) (by decide) (by decide))
  request first s r := by
    obtain ⟨front, hrequest, hfront⟩ := led_request first s r
    exact ⟨front, hrequest, fun line hline => inner_of_led (hfront line hline)⟩
  assertion s a := (inner_of_led (led_assertion s a)).1
  endTest := rfl
  finish these h := by
    have hend : ∀ line ∈ ["    \x7d", ""], OneLine line := by decide
    exact lines_unlines_append (List.forall_mem_append.2 ⟨h, hend⟩) "\x7d\n"

end Junit

/-! ## Rust -/

namespace Rust

/-- The lines around the test functions of a Rust file. -/
def frame : Frame where
  mark := "#[test]"
  close := "\x7d"
  closing := []

/-- An indented line stands inside a function. -/
theorem inner_of_led {line : String} (h : Led indent line) : frame.Inner line ∧ line ≠ "" :=
  ⟨Frame.inner_of_led h (by decide) (by decide) (by decide), h.ne (by decide)⟩

/-- A line that continues a statement is indented. -/
theorem led_indent {line : String} (h : Led continuation line) : Led indent line :=
  .shorten "    " (by decide) h

theorem url_relative (path : String) :
    url (.relative path) = "format!(\"\x7b\x7d\x7b\x7d\", BASE, \"" ++ path ++ "\")" := rfl

theorem url_absolute (u : String) : url (.absolute u) = "\"" ++ u ++ "\"" := rfl

theorem oneLine_url (s : Substitution) (u : String) : OneLine (url (s.url u)) := by
  unfold Substitution.url
  dsimp only
  split
  all_goals exact oneLine_append.2 ⟨oneLine_append.2 ⟨by decide, oneLine_escape _⟩, by decide⟩

theorem led_limits (s : Substitution) (r : Request) :
    ∀ line ∈ limits (s.body r.method r.body), Led continuation line := by
  have htimeout : Led continuation (continuation ++ ".timeout(Duration::from_secs("
      ++ toString requestTimeout ++ "))") :=
    ((led_append (by decide)).append (by decide)).append (by decide)
  unfold limits
  rcases s.body_cases r with ⟨-, heq, -⟩ | ⟨-, heq, -⟩ | ⟨content, -, heq, -⟩
  · rw [heq]
    exact List.forall_mem_singleton.2 (htimeout.append (by decide))
  · rw [heq]
    exact List.forall_mem_cons.2 ⟨htimeout, List.forall_mem_singleton.2 (led_append (by decide))⟩
  · rw [heq]
    have hbody : Led continuation (continuation ++ ".body(\"" ++ Text.escape (s.apply content)
        ++ "\");") :=
      ((led_append (by decide)).append (oneLine_escape _)).append (by decide)
    exact List.forall_mem_cons.2 ⟨htimeout, List.forall_mem_singleton.2 hbody⟩

/-- A request is some indented lines and a blank one. -/
theorem led_request (s : Substitution) (r : Request) :
    ∃ front, request (r.resolve s) = front ++ [""] ∧ ∀ line ∈ front, Led indent line := by
  have hheader (h : Header) : Led indent (indent ++ "b = b.header(\"" ++ h.resolve.1 ++ "\", \""
      ++ h.resolve.2 ++ "\");") :=
    ((((led_append (by decide)).append (oneLine_escape _)).append (by decide)).append
      (oneLine_escape _)).append (by decide)
  refine ⟨_, (List.append_assoc _ [_] [""]).symm, ?_⟩
  simp only [Request.resolve, List.forall_mem_append, List.forall_mem_cons, List.forall_mem_map,
    List.not_mem_nil, false_imp_iff, implies_true, and_true]
  refine ⟨⟨⟨⟨⟨?builder, ?client, ?call⟩, ?limits⟩, fun h _ => hheader h⟩, ?shared⟩, ?send⟩
  case client => exact led_indent (led_append (by decide))
  case call =>
    refine led_indent (((((led_append (by decide)).append ?_).append (by decide)).append
      (oneLine_url s r.url)).append (by decide))
    cases r.method <;> decide
  case limits => exact fun line hline => led_indent (led_limits s r line hline)
  all_goals exact led_append (oneLine_ofList (by decide))

theorem led_assertion (s : Substitution) (a : Assertion) :
    Led indent (assertion (a.resolve s)) := by
  refine led_append ?_
  cases a with
  | statusEquals code =>
    exact oneLine_append.2 ⟨oneLine_append.2 ⟨by decide, oneLine_toString _⟩, by decide⟩
  | headerEquals | headerContains | bodyContains =>
    simp only [Assertion.resolve, Substitution.literal, oneLine_append, oneLine_escape]
    decide

theorem led_base (p : Program) : Led "const BASE: &str = \""
    ("const BASE: &str = \"" ++ p.shared.baseUrl ++ "\";") :=
  (led_append (oneLine_escape _)).append (by decide)

/-- The fixed lines before the first test mark no test. -/
theorem outer_fixed : ∀ line ∈ imports ++ helpers ++ (setupStart ++ clientEnd ++ setupEnd),
    frame.Outer line := by
  simp only [imports, helpers, setupStart, clientEnd, setupEnd, List.cons_append, List.nil_append]
  repeat refine Frame.outer_cons (by decide) ?_
  exact List.forall_mem_nil _

theorem outer_preamble (p : Program) :
    ∀ line ∈ preamble p.shared, frame.Outer line := by
  have hfixed := outer_fixed
  simp only [List.forall_mem_append] at hfixed
  obtain ⟨⟨himports, hhelpers⟩, -⟩ := hfixed
  simp only [preamble, List.forall_mem_append, List.forall_mem_singleton]
  exact ⟨⟨himports, Frame.outer_of_led (led_base p) (by decide) (by decide)⟩, hhelpers⟩

theorem led_sharedHeader (h : Header) : ∀ line ∈ sharedHeader h.resolve, Led indent line := by
  have hkey : Led "            HeaderName::try_from(\"" ("            HeaderName::try_from(\""
      ++ h.resolve.1 ++ "\").expect(\"invalid default header name '" ++ h.resolve.1
      ++ "'\"),") :=
    (((led_append (oneLine_escape _)).append (oneLine_ofList (by decide))).append
      (oneLine_escape _)).append (by decide)
  have hvalue : Led "            HeaderValue::from_str(\"" ("            HeaderValue::from_str(\""
      ++ h.resolve.2 ++ "\").expect(\"invalid value for default header '" ++ h.resolve.1
      ++ "'\"),") :=
    (((led_append (oneLine_escape _)).append (oneLine_ofList (by decide))).append
      (oneLine_escape _)).append (by decide)
  simp only [sharedHeader, List.forall_mem_cons]
  exact ⟨led_ofList (by decide), .shorten "        HeaderName::try_from(\"" (by decide) hkey,
    .shorten "        HeaderValue::from_str(\"" (by decide) hvalue, led_ofList (by decide),
    List.forall_mem_nil _⟩

/-- The statements that build the shared headers are indented. -/
theorem led_sharedHeaders (headers : List Header) :
    ∀ line ∈ sharedHeaders (headers.map Header.resolve), Led indent line := by
  unfold sharedHeaders
  split
  · exact List.forall_mem_singleton.2 (led_ofList (by decide))
  · refine List.forall_mem_cons.2 ⟨led_ofList (by decide), ?_⟩
    intro line hline
    obtain ⟨pair, hpair, hline⟩ := List.mem_flatMap.1 hline
    obtain ⟨h, -, rfl⟩ := List.mem_map.1 hpair
    exact led_sharedHeader h line hline

theorem outer_setup (p : Program) : ∀ line ∈ setup p.shared, frame.Outer line := by
  have htimeout : Led "            .connect_timeout(Duration::from_secs("
      ("            .connect_timeout(Duration::from_secs(" ++ toString connectTimeout ++ "))") :=
    (led_append (by decide)).append (by decide)
  have hheaders (line : String) (hline : line ∈ sharedHeaders p.shared.headers) :
      frame.Outer line :=
    Frame.outer_of_led (led_sharedHeaders _ line hline) (by decide) (by decide)
  have hfixed := outer_fixed
  simp only [List.forall_mem_append] at hfixed
  obtain ⟨-, ⟨hstart, hclient⟩, hend⟩ := hfixed
  simp only [setup, List.forall_mem_append, List.forall_mem_singleton]
  refine ⟨⟨⟨⟨hstart, ?timeout⟩, hclient⟩, hheaders⟩, hend⟩
  case timeout => exact Frame.outer_of_led htimeout (oneLine_ofList (by decide)) (by decide)

/-- A blank last line is dropped. -/
theorem dropBlankEnd_unlines (these : List String) :
    dropBlankEnd (unlines ((these ++ ["\x7d"]) ++ [""])) = unlines (these ++ ["\x7d"]) := by
  have hend : (unlines ((these ++ ["\x7d"]) ++ [""])).toList.reverse =
      '\n' :: '\n' :: '\x7d' :: (unlines these).toList.reverse := by
    simp [unlines]
  have hkept : (unlines (these ++ ["\x7d"])).toList =
      (unlines these).toList ++ ['\x7d', '\n'] := by
    simp [unlines]
  unfold dropBlankEnd
  rw [hend]
  show String.ofList ('\n' :: '\x7d' :: (unlines these).toList.reverse).reverse = _
  rw [← String.toList_inj, String.toList_ofList, hkept]
  simp

/-- The lines of a Rust suite. -/
theorem framed : Framed .rust frame where
  shared p := List.forall_mem_append.2 ⟨outer_preamble p, outer_setup p⟩
  mark name := rfl
  opening {name} h := by
    have hline : Led "fn " ("fn " ++ name ++ "() \x7b") := (led_append h).append (by decide)
    refine List.forall_mem_cons.2 ⟨?_, List.forall_mem_singleton.2
      (inner_of_led (led_append (oneLine_ofList (by decide)))).1⟩
    exact Frame.inner_of_led hline (by decide) (by decide) (by decide)
  request _ s r := by
    obtain ⟨front, hrequest, hfront⟩ := led_request s r
    exact ⟨front, hrequest, fun line hline => inner_of_led (hfront line hline)⟩
  assertion s a := (inner_of_led (led_assertion s a)).1
  endTest := rfl
  finish these h := by
    have hend : ∀ line ∈ these ++ ["\x7d"], OneLine line :=
      List.forall_mem_append.2 ⟨h, by decide⟩
    rw [show Dialect.rust.endTest = ["\x7d"] ++ [""] from rfl, ← List.append_assoc]
    show lines (dropBlankEnd (unlines ((these ++ ["\x7d"]) ++ [""]))) = _
    rw [dropBlankEnd_unlines, ← String.append_empty (s := unlines _), lines_unlines_append hend]
    simp [lines, frame]

end Rust

end Dialect

namespace Target

/-- The lines around the test functions of a target's suites. -/
def frame : Target → Frame
  | junit => Dialect.Junit.frame
  | rust => Dialect.Rust.frame

theorem framed (target : Target) {className : String} (h : isIdentifier className = true) :
    (target.dialect className).Framed target.frame := by
  cases target with
  | junit => exact Dialect.Junit.framed (oneLine_of_isIdentifier h)
  | rust => exact Dialect.Rust.framed

end Target

end HttpSuite
