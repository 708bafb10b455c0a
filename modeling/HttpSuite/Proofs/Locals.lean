import HttpSuite.Proofs.Acceptance
import HttpSuite.Proofs.Layout.Frames
import Mathlib.Data.List.Forall2
import Mathlib.Data.List.Induction

/-!
# The locals of a JUnit test

A request of a JUnit suite writes two locals: the request in the making and the response to it.  The
first request of a test declares them and the later ones assign them.  A draft remembers which it
is, whatever is written in whatever order: it is the first if no request was written since the last
test began.

In a compiled suite each test makes a request, so each of its functions has one line that declares
the first local and one that declares the second.  Texts of the program stand in literals and cannot
start a line, so no other line looks like a declaration.

## Main definitions

* `Piece.RequestSince`: a request was written since the last test began.
* `Dialect.Junit.opening`, `Dialect.Junit.ending`: how a request declares its locals, or assigns
  them.
* `Text.Begins`: what a line begins with, behind its indentation.
* `Dialect.Junit.DeclaresOnce`: each local is declared in one line, of the first request.

## Main results

* `Draft.fresh_writeAll_eq_false_iff`: what a draft remembers.
* `Dialect.Junit.countP_request`: the declarations among the lines of a request.
* `locals_declared_once`: the requests that declare the locals, and the lines that do.
-/

namespace HttpSuite

/-! ## The first request of a test -/

namespace Piece

variable {pieces : List Piece} {piece : Piece}

/-- A request was written since the last test began, or since the start if no test did. -/
def RequestSince (pieces : List Piece) : Prop :=
  ∃ before r after, pieces = before ++ .request r :: after ∧ ∀ name, .beginTest name ∉ after

theorem not_requestSince_nil : ¬ RequestSince [] := by
  rintro ⟨before, r, after, hsplit, -⟩
  exact List.append_ne_nil_of_right_ne_nil before (List.cons_ne_nil _ _) hsplit.symm

/-- A request counts from now on, and the beginning of a test makes it forgotten. -/
theorem requestSince_concat_iff : RequestSince (pieces ++ [piece]) ↔
    (∃ r, piece = .request r) ∨ (∀ name, piece ≠ .beginTest name) ∧ RequestSince pieces := by
  constructor
  · rintro ⟨before, r, after, hsplit, hafter⟩
    rcases List.eq_nil_or_concat after with rfl | ⟨after, last, rfl⟩
    · obtain ⟨-, hlast⟩ := List.append_inj' hsplit rfl
      exact .inl ⟨r, (List.cons.inj hlast).1⟩
    · rw [List.concat_eq_append] at hsplit hafter
      rw [← List.cons_append, ← List.append_assoc] at hsplit
      obtain ⟨rfl, hlast⟩ := List.append_inj' hsplit rfl
      obtain rfl := (List.cons.inj hlast).1
      refine .inr ⟨fun name heq => hafter name ?_, before, r, after, rfl, fun name hmem => ?_⟩
      · exact heq ▸ List.mem_append_right _ List.mem_cons_self
      · exact hafter name (List.mem_append_left _ hmem)
  · rintro (⟨r, rfl⟩ | ⟨hother, before, r, after, rfl, hafter⟩)
    · exact ⟨pieces, r, [], rfl, fun _ => List.not_mem_nil⟩
    · refine ⟨before, r, after ++ [piece], by simp, fun name hmem => ?_⟩
      rcases List.mem_append.1 hmem with hmem | hmem
      · exact hafter name hmem
      · exact hother name (List.mem_singleton.1 hmem).symm

end Piece

namespace Draft

/-- What one piece does to the memory of a draft. -/
theorem fresh_write_eq_false_iff (dialect : Dialect) (draft : Draft) (piece : Piece) :
    (draft.write dialect piece).fresh = false ↔ (∃ r, piece = .request r) ∨
      (∀ name, piece ≠ .beginTest name) ∧ draft.fresh = false := by
  cases piece <;> simp [write, append]

/-- A draft remembers whether a request was written since the last test began. -/
theorem fresh_writeAll_eq_false_iff (dialect : Dialect) (pieces : List Piece) :
    (writeAll dialect {} pieces).fresh = false ↔ Piece.RequestSince pieces := by
  induction pieces using List.reverseRecOn with
  | nil => exact iff_of_false (Bool.noConfusion ·) Piece.not_requestSince_nil
  | append_singleton pieces piece ih =>
    rw [writeAll, List.foldl_append, List.foldl_cons, List.foldl_nil, fresh_write_eq_false_iff,
      Piece.requestSince_concat_iff, ← ih]
    rfl

end Draft

/-! ## Lines that begin with a declaration -/

namespace Text

/-- A line without its indentation. -/
def unindented (line : String) : List Char := line.toList.dropWhile Char.isWhitespace

/-- The line begins with this text, behind its indentation. -/
def Begins (start line : String) : Prop := start.toList <+: unindented line

instance (start line : String) : Decidable (Begins start line) :=
  inferInstanceAs (Decidable (_ <+: _))

/-- What a line begins with is known from a part of it, if the part is not cut off too early. -/
theorem begins_append_iff {start lead rest : String}
    (hne : unindented lead ≠ []) (h : unindented lead <+: start.toList → Begins start lead) :
    Begins start (lead ++ rest) ↔ Begins start lead := by
  have hrest : unindented (lead ++ rest) = unindented lead ++ rest.toList := by
    rw [unindented, String.toList_append, List.dropWhile_append]
    exact if_neg (mt List.isEmpty_iff.1 hne)
  rw [Begins, hrest]
  refine ⟨fun hstart => ?_, fun hstart => List.IsPrefix.trans hstart (List.prefix_append _ _)⟩
  exact (List.prefix_or_prefix_of_prefix hstart (List.prefix_append _ _)).elim id h

end Text

open Text

namespace Dialect

namespace Junit

/-- What starts the lines that declare the two locals. -/
def declarations : List String := ["HttpRequest.Builder b = ", "HttpResponse<String> resp = "]

/-- The line declares no local. -/
def Plain (line : String) : Prop := ∀ declaration ∈ declarations, ¬ Begins declaration line

/-- A line that starts with fixed text other than a declaration. -/
theorem plain_append {lead rest : String} (h : ∀ declaration ∈ declarations,
    ¬ unindented lead <+: declaration.toList ∧ ¬ Begins declaration lead) :
    Plain (lead ++ rest) := by
  intro declaration hmem
  obtain ⟨hlead, hbegins⟩ := h declaration hmem
  have hne : unindented lead ≠ [] := fun hnil => hlead (hnil ▸ List.nil_prefix)
  exact mt (begins_append_iff hne fun hpre => absurd hpre hlead).1 hbegins

/-- A line that starts with fixed text other than a declaration, behind a fixed indentation. -/
theorem plain_indented {blanks lead rest : String} (h : ∀ declaration ∈ declarations,
    ¬ unindented (blanks ++ lead) <+: declaration.toList ∧
      ¬ Begins declaration (blanks ++ lead)) : Plain (blanks ++ (lead ++ rest)) := by
  rw [← String.append_assoc]
  exact plain_append h

theorem plain_header (h : String × String) :
    Plain (indent ++ "b.header(\"" ++ h.1 ++ "\", \"" ++ h.2 ++ "\");") := by
  simp only [String.append_assoc]
  exact plain_indented (by decide)

theorem plain_methodCall (r : Resolved.Request) : Plain (continuation ++ methodCall r ++ ";") := by
  simp only [methodCall, String.append_assoc]
  exact plain_indented (by decide)

theorem plain_assertion (a : Resolved.Assertion) : Plain (assertion a) := by
  cases a <;> simp only [assertion, String.append_assoc] <;> exact plain_indented (by decide)

theorem plain_opening (name : String) :
    Plain ("    void " ++ name ++ "() throws Exception \x7b") := by
  rw [String.append_assoc]
  exact plain_append (by decide)

/-- Lines that declare no local. -/
theorem countP_eq_zero {declaration : String} (h : declaration ∈ declarations) {these : List String}
    (hthese : ∀ line ∈ these, Plain line) : these.countP (Begins declaration) = 0 :=
  List.countP_eq_zero.2 fun line hline => mt of_decide_eq_true (hthese line hline declaration h)

/-! ## Requests -/

/-- How a request starts that declares the local for the request, or assigns it. -/
def opening (declares : Bool) : String :=
  indent ++ (if declares then "HttpRequest.Builder b" else "b") ++ " = "

/-- How a line starts that declares the local for the response, or assigns it. -/
def sending (declares : Bool) : String :=
  indent ++ (if declares then "HttpResponse<String> resp" else "resp") ++ " = "

/-- What sends a request. -/
def sendCall : String :=
  "client.send(b.build(), HttpResponse.BodyHandlers.ofString(StandardCharsets.UTF_8));"

/-- How a text ends whose last statement declares the local for the response, or assigns it. -/
def ending (declares : Bool) : String := ";\n" ++ sending declares ++ (sendCall ++ "\n\n")

/-- The statement that adds the shared headers, without its end. -/
def headerLoop : String :=
  indent ++ "for (var e: DEFAULT_HEADERS.entrySet()) b.header(e.getKey(), e.getValue())"

/-- A request between the line that opens it and the shared headers. -/
def middle (r : Resolved.Request) : List String :=
  [ continuation ++ ".timeout(Duration.ofSeconds(" ++ toString requestTimeout ++ "))"
  , continuation ++ methodCall r ++ ";" ]
  ++ r.headers.map (fun h => indent ++ "b.header(\"" ++ h.1 ++ "\", \"" ++ h.2 ++ "\");")

theorem request_eq (first : Bool) (r : Resolved.Request) : request first r =
    (opening first ++ ("HttpRequest.newBuilder(URI.create(" ++ url r.url ++ "))"))
      :: middle r ++ [headerLoop ++ ";", sending first ++ sendCall, ""] := by
  have hopening : " = HttpRequest.newBuilder(URI.create(" =
      " = " ++ "HttpRequest.newBuilder(URI.create(" := by
    decide
  have hloop : "for (var e: DEFAULT_HEADERS.entrySet()) b.header(e.getKey(), e.getValue());" =
      "for (var e: DEFAULT_HEADERS.entrySet()) b.header(e.getKey(), e.getValue())" ++ ";" := by
    decide
  have hsend :
      " = client.send(b.build(), HttpResponse.BodyHandlers.ofString(StandardCharsets.UTF_8));" =
        " = " ++ sendCall := by
    decide
  simp only [request, middle, opening, sending, headerLoop, hopening, hloop, hsend,
    String.append_assoc, List.append_assoc, List.cons_append, List.nil_append]

private theorem plain_middle (r : Resolved.Request) : ∀ line ∈ middle r, Plain line := by
  refine List.forall_mem_append.2 ⟨?_, List.forall_mem_map.2 fun h _ => plain_header h⟩
  simp only [List.forall_mem_cons]
  refine ⟨?_, plain_methodCall r, List.forall_mem_nil _⟩
  rw [String.append_assoc, String.append_assoc]
  exact plain_indented (by decide)

private theorem plain_headerLoop : Plain (headerLoop ++ ";") := by
  rw [headerLoop, String.append_assoc]
  exact plain_indented (by decide)

theorem opening_request (first : Bool) (r : Resolved.Request) :
    (opening first).toList <+: (unlines (request first r)).toList := by
  rw [request_eq, List.cons_append, Literal.unlines_cons, String.append_assoc, String.append_assoc,
    String.toList_append]
  exact List.prefix_append _ _

theorem ending_request (first : Bool) (r : Resolved.Request) :
    (ending first).toList <:+ (unlines (request first r)).toList := by
  have hends : unlines [headerLoop ++ ";", sending first ++ sendCall, ""] =
      headerLoop ++ ending first := by
    have hstatement : ";\n" = ";" ++ "\n" := rfl
    have hblank : "\n\n" = "\n" ++ "\n" := rfl
    rw [ending, hstatement, hblank]
    simp only [Literal.unlines_cons, String.append_assoc, String.empty_append]
    rfl
  rw [request_eq, Literal.unlines_append, hends, ← String.append_assoc, String.toList_append]
  exact List.suffix_append _ _

/-- A request declares the local for the request exactly if it is the first. -/
theorem opening_request_iff {declares first : Bool} {r : Resolved.Request} :
    (opening declares).toList <+: (unlines (request first r)).toList ↔ declares = first := by
  constructor
  · intro h
    have hstarts := List.prefix_or_prefix_of_prefix h (opening_request first r)
    cases declares <;> cases first <;> revert hstarts <;> decide
  · rintro rfl
    exact opening_request declares r

/-- A request declares the local for the response exactly if it is the first. -/
theorem ending_request_iff {declares first : Bool} {r : Resolved.Request} :
    (ending declares).toList <:+ (unlines (request first r)).toList ↔ declares = first := by
  constructor
  · intro h
    have hends := List.suffix_or_suffix_of_suffix h (ending_request first r)
    have hcut (declares : Bool) : (ending declares).toList =
        (";\n" ++ sending declares).toList ++ (sendCall ++ "\n\n").toList :=
      String.toList_append
    rw [hcut declares, hcut first, List.suffix_append_self_iff,
      List.suffix_append_self_iff] at hends
    cases declares <;> cases first <;> revert hends <;> decide
  · rintro rfl
    exact ending_request declares r

/-- The lines of a first request declare each local once, and those of a later one declare none. -/
theorem countP_request {declaration : String} (h : declaration ∈ declarations) (first : Bool)
    (r : Resolved.Request) :
    (request first r).countP (Begins declaration) = if first then 1 else 0 := by
  have hleads : ∀ lead ∈ [opening first, sending first], unindented lead ≠ [] ∧
      (unindented lead <+: declaration.toList → Begins declaration lead) := by
    revert declaration
    cases first <;> decide
  have hlead {lead : String} (hmem : lead ∈ [opening first, sending first]) (rest : String) :
      Begins declaration (lead ++ rest) ↔ Begins declaration lead :=
    begins_append_iff (hleads lead hmem).1 (hleads lead hmem).2
  have hloop : ¬ Begins declaration (headerLoop ++ ";") := plain_headerLoop declaration h
  rw [request_eq, List.countP_append, List.countP_cons, countP_eq_zero h (plain_middle r)]
  simp only [List.countP_cons, decide_eq_true_eq, hlead List.mem_cons_self,
    hlead (List.mem_cons_of_mem _ List.mem_cons_self), hloop, if_false]
  clear hleads hlead hloop
  revert declaration
  cases first <;> decide

/-- Statements among which no request is the first of its test declare no local. -/
theorem countP_statementLines {declaration : String} (h : declaration ∈ declarations)
    (className : String) {fresh : Bool} {statements : List Resolved.Statement}
    (hfirst : fresh = true → ∀ r, .request r ∉ statements) :
    ((junit className).statementLines fresh statements).countP (Begins declaration) = 0 := by
  induction statements with
  | nil => rfl
  | cons statement statements ih =>
    have hrest := ih fun hfresh r hmem => hfirst hfresh r (List.mem_cons_of_mem _ hmem)
    cases statement with
    | request r =>
      obtain rfl : fresh = false :=
        Bool.eq_false_iff.2 fun hfresh => hfirst hfresh r List.mem_cons_self
      rw [statementLines, List.countP_append, hrest]
      exact countP_request h false r
    | assertion a =>
      rw [statementLines, List.countP_cons_of_neg, hrest]
      exact mt of_decide_eq_true (plain_assertion a declaration h)

end Junit

/-- The first request of a test stands between what comes before it and what comes behind it. -/
private theorem statementLines_append_request (dialect : Dialect) (fresh : Bool)
    (r : Resolved.Request) {before : List Resolved.Statement} (h : ∀ r, .request r ∉ before)
    (after : List Resolved.Statement) :
    dialect.statementLines fresh (before ++ .request r :: after) =
      dialect.statementLines fresh before ++ dialect.request fresh r
        ++ dialect.statementLines false after := by
  induction before with
  | nil => rfl
  | cons statement before ih =>
    cases statement with
    | request r => exact absurd List.mem_cons_self (h r)
    | assertion a =>
      exact congrArg (dialect.assertion a :: ·)
        (ih fun r hmem => h r (List.mem_cons_of_mem _ hmem))

end Dialect

/-! ## Compiled suites -/

/-- A test that is sufficient has a first request. -/
private theorem Test.Sufficient.exists_first_request {t : Test} (h : t.Sufficient) :
    ∃ before r after, t.statements = before ++ .request r :: after ∧ ∀ r, .request r ∉ before := by
  obtain ⟨r, later, hcons⟩ := List.exists_cons_of_length_pos h.request
  obtain ⟨before, statement, after, hsplit, hbefore, hrequest, -⟩ :=
    List.filterMap_eq_cons_iff.1 hcons
  cases statement with
  | request r => exact ⟨before, r, after, hsplit, fun r hmem => by cases hbefore _ hmem⟩
  | assertion a => cases hrequest

namespace Dialect.Junit

/-- The function is the lines of the statements before the first request of the test, those of this
request and those of the statements behind it. Each local is declared in one of all these lines, and
this is a line of the request. -/
def DeclaresOnce (className : String) (s : Substitution) (t : Test) (function : List String) :
    Prop :=
  ∃ before r after,
    t.statements = before ++ .request r :: after ∧ (∀ r, .request r ∉ before) ∧
    function = (junit className).functionLines s { t with statements := before }
      ++ request true (r.resolve s)
      ++ (junit className).statementLines false (after.map fun statement => statement.resolve s) ∧
    ∀ declaration ∈ declarations, function.countP (Begins declaration) = 1 ∧
      (request true (r.resolve s)).countP (Begins declaration) = 1

/-- The function of a sufficient test declares each local once. -/
theorem declaresOnce_functionLines (className : String) (s : Substitution) {t : Test}
    (h : t.Sufficient) : DeclaresOnce className s t ((junit className).functionLines s t) := by
  obtain ⟨before, r, after, hsplit, hbefore⟩ := h.exists_first_request
  have hresolved : ∀ r, .request r ∉ before.map fun statement => statement.resolve s := by
    intro r hmem
    obtain ⟨statement, hstatement, heq⟩ := List.mem_map.1 hmem
    cases statement with
    | request r => exact hbefore r hstatement
    | assertion a => cases heq
  have hfunction : (junit className).functionLines s t =
      (junit className).functionLines s { t with statements := before }
        ++ request true (r.resolve s)
        ++ (junit className).statementLines false
          (after.map fun statement => statement.resolve s) := by
    rw [functionLines, functionLines, bodyLines, bodyLines, hsplit, List.map_append, List.map_cons,
      Statement.resolve, statementLines_append_request _ _ _ hresolved]
    simp only [List.append_assoc]
    rfl
  refine ⟨before, r, after, hsplit, hbefore, hfunction, fun declaration hmem => ?_⟩
  have hopening : (((junit className).beginTest (testNameStart ++ t.name)).tail).countP
      (Begins declaration) = 0 :=
    countP_eq_zero hmem (List.forall_mem_singleton.2 (plain_opening _))
  have hlines := countP_request hmem true (r.resolve s)
  refine ⟨?_, hlines⟩
  rw [hfunction, List.countP_append, List.countP_append, hlines, functionLines, List.countP_append,
    bodyLines, countP_statementLines hmem className fun _ => hresolved,
    countP_statementLines hmem className (Bool.noConfusion ·), hopening]
  rfl

end Dialect.Junit

open Dialect.Junit

/-- A request declares its locals exactly if no request was written since the last test began,
whatever was written before; else it assigns them. So in a compiled suite each function declares
each local in one line, which belongs to the first request of its test. -/
theorem locals_declared_once (className : String) :
    (∀ pieces r, ∃ added,
      let draft := Draft.writeAll (.junit className) {} pieces
      (draft.write (.junit className) (.request r)).text = draft.text ++ added ∧
      ((opening true).toList <+: added.toList ↔ ¬ Piece.RequestSince pieces) ∧
      ((ending true).toList <:+ added.toList ↔ ¬ Piece.RequestSince pieces) ∧
      ((opening false).toList <+: added.toList ↔ Piece.RequestSince pieces) ∧
      ((ending false).toList <:+ added.toList ↔ Piece.RequestSince pieces)) ∧
    ∀ source output, compile source { target := .junit, className } = .ok output →
      ∃ p, Program.parse source = .ok p ∧
        List.Forall₂ (fun function t =>
            DeclaresOnce className (.ofVariables p.declarations) t function)
          (Target.junit.frame.functions output.source) p.tests := by
  refine ⟨fun pieces r => ⟨_, rfl, ?_⟩, fun source output h => ?_⟩
  · have hfresh := Draft.fresh_writeAll_eq_false_iff (.junit className) pieces
    rw [← hfresh, Bool.not_eq_false]
    exact ⟨opening_request_iff.trans eq_comm, ending_request_iff.trans eq_comm,
      opening_request_iff.trans eq_comm, ending_request_iff.trans eq_comm⟩
  · obtain ⟨hname, p, diagnostics, hparse, hvalid, rfl⟩ := compile_eq_ok_iff.1 h
    have hp := Program.wellFormed_of_parse hparse
    have hsufficient := hp.violation?_eq_none_iff.1 (Program.validate_eq_ok_iff.1 hvalid).1
    have hnames : ∀ t ∈ p.tests, OneLine t.name := fun t ht =>
      oneLine_of_isIdentifier (hp.testName t ht).1
    refine ⟨p, hparse, ?_⟩
    rw [(Target.junit.framed hname).functions_suite hp.hasTest hnames, List.forall₂_map_left_iff,
      List.forall₂_same]
    exact fun t ht => declaresOnce_functionLines className _ (hsufficient t ht)

/-- A program whose texts look like declarations, with a test of two requests and one that begins
with an assertion. -/
def lookalikes : Program where
  tests :=
    [ ⟨"twice",
        [ .request { method := .post, url := "/\n        HttpRequest.Builder b = "
                     body := some "\nHttpResponse<String> resp = " }
        , .assertion (.statusEquals 200)
        , .request { method := .get, url := "/", headers := [⟨"\nHttpRequest.Builder b = ", ""⟩] }
        , .assertion (.statusEquals 200) ]⟩
    , ⟨"late",
        [ .assertion (.bodyContains "\n        HttpRequest.Builder b = ")
        , .request { method := .get, url := "/" }
        , .assertion (.statusEquals 200) ]⟩ ]

theorem wellFormed_lookalikes : lookalikes.WellFormed := by decide

theorem locals_declared_once_lookalikes :
    ∃ output, compile lookalikes.print { target := .junit } = .ok output ∧
      ∃ twice late, Target.junit.frame.functions output.source = [twice, late] ∧
        ∀ declaration ∈ declarations, twice.countP (Begins declaration) = 1 ∧
          late.countP (Begins declaration) = 1 := by
  have hname : isIdentifier defaultClassName = true := by decide
  have hcompile := compile_print wellFormed_lookalikes { target := .junit } hname rfl
  obtain ⟨p, hparse, honce⟩ := (locals_declared_once defaultClassName).2 _ _ hcompile
  rw [Program.parse_print wellFormed_lookalikes] at hparse
  cases hparse
  obtain ⟨twice, _, htwice, hrest, hfunctions⟩ := List.forall₂_cons_right_iff.1 honce
  obtain ⟨late, _, hlate, hend, rfl⟩ := List.forall₂_cons_right_iff.1 hrest
  rw [List.forall₂_nil_right_iff] at hend
  obtain ⟨_, _, _, -, -, -, hcounts⟩ := htwice
  obtain ⟨_, _, _, -, -, -, hcounts'⟩ := hlate
  exact ⟨_, hcompile, twice, late, hend ▸ hfunctions, fun declaration hmem =>
    ⟨(hcounts declaration hmem).1, (hcounts' declaration hmem).1⟩⟩

end HttpSuite
