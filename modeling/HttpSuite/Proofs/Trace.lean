import HttpSuite.Outline
import HttpSuite.Trace
import HttpSuite.Proofs.Acceptance
import HttpSuite.Proofs.Calls.Interleaved
import HttpSuite.Proofs.CommandLine

/-!
# Traces agree with compilation

A trace runs the stages of a compilation in another way: it reads all tokens first and shows them,
and only then parses the text, which reads them again as far as it needs them.  The two ways come to
the same end.  What parses has been read to its last token, so a trace that fails at a token fails
where compilation does; but a text may be refused at a token that stands before a malformed lexeme,
and then the trace reports the lexeme and compilation the token.

The end of a trace is its last line.  Messages of failure may have several lines and may quote the
source, but none of them ends as the announcement of a success does.

## Main definitions

* `Text.lastLine?`: the last line of a text.
* `Trace.Chosen`: the target of a trace.
* `Trace.Reported`: the message with which a trace fails.

## Main results

* `Text.lastLine?_unlines`: the last line of printed lines is the last line of the last of them.
* `Trace.ofSource_of_compile_eq_ok`, `Trace.ofSource_of_compile_eq_error`: how traces end.
* `Trace.run_agrees`: a trace ends as compilation does.
-/

namespace HttpSuite

open Text

/-! ## The last line of a text -/

namespace Text

/-- The lines of printed texts, and what stands behind the last line end. -/
private theorem lines_unlines (these : List String) :
    lines (unlines these) = these.flatMap lines ++ [""] := by
  induction these with
  | nil => rfl
  | cons text these ih =>
    rw [Literal.unlines_cons, lines_append, ih, List.flatMap_cons, List.append_assoc]

private theorem lines_ne_nil (text : String) : lines text ≠ [] := by
  rw [lines, ne_eq, List.map_eq_nil_iff]
  exact List.splitOn_ne_nil _ _

/-- The last line of a text that ends with a line end. -/
def lastLine? (text : String) : Option String := (lines text).dropLast.getLast?

/-- The last line of printed texts is the last line of the last of them. -/
theorem lastLine?_unlines (front : List String) (last : String) :
    lastLine? (unlines (front ++ [last])) = (lines last).getLast? := by
  obtain ⟨line, hline⟩ := Option.ne_none_iff_exists'.1
    fun hnone => lines_ne_nil last (List.getLast?_eq_none_iff.1 hnone)
  rw [lastLine?, lines_unlines, List.dropLast_concat, List.flatMap_append, List.getLast?_append,
    List.flatMap_singleton, hline, Option.some_or]

/-- The last of some parts ends the whole. -/
private theorem suffix_intercalate {α : Type} {last : List α} {parts : List (List α)}
    (separator : List α) (h : parts.getLast? = some last) :
    last <:+ separator.intercalate parts := by
  induction parts with
  | nil => cases h
  | cons part parts ih =>
    cases parts with
    | nil =>
      cases h
      simp
    | cons part' parts =>
      rw [List.getLast?_cons_cons] at h
      rw [List.intercalate_cons_cons]
      exact (ih h).trans (List.suffix_append _ _)

private theorem suffix_of_getLast?_lines {text line : String}
    (h : (lines text).getLast? = some line) : line.toList <:+ text.toList := by
  rw [lines, List.getLast?_map, Option.map_eq_some_iff] at h
  obtain ⟨chars, hlast, rfl⟩ := h
  have hsuffix := suffix_intercalate ['\n'] hlast
  rwa [List.intercalate_splitOn, ← String.toList_ofList (l := chars)] at hsuffix

/-- The text ends, but not with an exclamation mark. -/
def Unexclaimed (text : String) : Prop := ∃ c, text.toList.getLast? = some c ∧ c ≠ '!'

theorem Unexclaimed.append {second : String} (h : Unexclaimed second) (first : String) :
    Unexclaimed (first ++ second) := by
  obtain ⟨c, hlast, hc⟩ := h
  refine ⟨c, ?_, hc⟩
  rw [String.toList_append, List.getLast?_append, hlast, Option.some_or]

theorem unexclaimed_quote : Unexclaimed "'" := ⟨'\'', rfl, by decide⟩

/-- Numbers end with a digit. -/
theorem unexclaimed_toString (n : Int) : Unexclaimed (toString n) := by
  have hdigits (k : Nat) : Unexclaimed k.repr := by
    have hne : k.repr.toList ≠ [] := by
      rw [Nat.toList_repr]
      exact Nat.toDigits_ne_nil
    refine ⟨k.repr.toList.getLast hne, List.getLast?_eq_some_getLast hne, fun hlast => ?_⟩
    have hmem := List.getLast_mem hne
    rw [hlast, Nat.toList_repr] at hmem
    exact absurd (Nat.isDigit_of_mem_toDigits (by decide) (by decide) hmem) (by decide)
  cases n with
  | ofNat k => exact hdigits k
  | negSucc k => exact (hdigits (k + 1)).append "-"

end Text

/-! ## Messages of failure -/

theorem TokenKind.unexclaimed_display (kind : TokenKind) : Unexclaimed kind.display := by
  cases kind with
  | keyword k => exact unexclaimed_quote.append _
  | identifier name => exact unexclaimed_quote.append _
  | string content => exact (Unexclaimed.append ⟨'"', rfl, by decide⟩ _).append _
  | number value => exact (unexclaimed_toString _).append _
  | leftBrace | rightBrace | semicolon | equals => exact ⟨'\'', rfl, by decide⟩
  | endOfFile => exact ⟨'e', rfl, by decide⟩

theorem LexError.unexclaimed_message (e : LexError) : Unexclaimed e.message := by
  unfold message describe
  split
  · next hempty =>
    -- Nothing is quoted, so the message ends as the wording of its cause does.
    refine Unexclaimed.append ?_ _
    obtain ⟨cause, line, column⟩ := e
    cases cause with
    | illegalCharacter c => exact unexclaimed_quote.append _
    | digitLedWord word => exact Unexclaimed.append ⟨'t', rfl, by decide⟩ _
    | unterminatedString text =>
      show Unexclaimed "Unterminated string"
      exact ⟨'g', rfl, by decide⟩
    | unknownEscape c => exact unexclaimed_quote.append _
    | numberOutOfRange digits =>
      have hdigits : digits = "" := String.isEmpty_iff.1 hempty
      rw [hdigits]
      show Unexclaimed ("Number out of range: " ++ "")
      exact ⟨' ', rfl, by decide⟩
  · exact unexclaimed_quote.append _

theorem ParseError.unexclaimed_message (e : ParseError) : Unexclaimed e.message := by
  have hcontext : Unexclaimed e.context := e.found.kind.unexclaimed_display.append _
  unfold message describe
  dsimp only
  split
  · next hempty =>
    rw [String.isEmpty_iff.1 hempty] at hcontext
    obtain ⟨c, hlast, -⟩ := hcontext
    cases hlast
  · exact hcontext.append _

theorem ValidationError.unexclaimed_message (e : ValidationError) : Unexclaimed e.message := by
  refine Unexclaimed.append ?_ _
  cases e.rule with
  | noTests => exact ⟨'k', rfl, by decide⟩
  | missingRequest => exact ⟨')', rfl, by decide⟩
  | tooFewAssertions found => exact Unexclaimed.append ⟨')', rfl, by decide⟩ _
  | statusOutOfRange code => exact Unexclaimed.append ⟨')', rfl, by decide⟩ _

namespace Trace

variable {describe : Program → String} {source : String} {target : Target}

/-- A message of failure does not read like a success. -/
private theorem lastLine?_failure_ne {message : String} (h : Unexclaimed message)
    (front : List String) :
    lastLine? (unlines (front ++ [failureLine message])) ≠ some successLine := by
  rw [lastLine?_unlines]
  intro hline
  obtain ⟨c, hlast, hc⟩ : Unexclaimed (failureLine message) := h.append _
  obtain ⟨rest, hrest⟩ := suffix_of_getLast?_lines hline
  -- The last line ends the whole message, which would then end with an exclamation mark.
  have hmark : successLine.toList.getLast? = some '!' := rfl
  rw [← hrest, List.getLast?_append, hmark, Option.some_or] at hlast
  exact hc (Option.some.inj hlast).symm

/-! ## How traces end -/

/-- The target of a trace: JUnit, unless the first option names one. -/
inductive Chosen : List String → Target → Prop
  | default : Chosen [] .junit
  | named {text : String} {target : Target} (rest : List String) :
    Target.ofText text = .ok target → Chosen (text :: rest) target

/-- The message with which a trace fails, if compilation fails with an error: that of the error.
But if the text is refused at a token, and a lexeme behind this token is malformed, it is that of
the lexeme. -/
inductive Reported (source : String) : CompileError → String → Prop
  | error {e : CompileError} :
    (∀ refusal, e = .source (.parse refusal) → ∃ all, tokenize source = .ok all) →
    Reported source e e.message
  | lexeme {refusal : ParseError} {slip : LexError} {before behind : List Token} :
    tokenize source = .error slip →
    (Lexer.ofString source).collect =
      (before ++ refusal.found :: behind).map .ok ++ [.error slip] →
    Reported source (.source (.parse refusal)) slip.message

/-- The line of a pull. -/
def pullLine : Pull → String
  | .ok t => tokenLine t
  | .error e => failureLine e.message

/-- What a trace shows of a text that was understood as a program. -/
def understood (describe : Program → String) (source : String) (p : Program) : List String :=
  ["📝 INPUT:", source, "", "🔤 TOKENS:", rule] ++ (Lexer.ofString source).collect.map pullLine ++
    "" :: programLines describe p

/-- A trace goes on behind its tokens. -/
theorem tokenLines_map_ok (behind : List String) (tokens : List Token) :
    tokenLines behind (tokens.map .ok) = (tokens.map .ok).map pullLine ++ behind := by
  induction tokens with
  | nil => rfl
  | cons token tokens ih => exact congrArg (tokenLine token :: ·) ih

/-- A trace ends with the first error among its tokens. -/
theorem tokenLines_error (behind : List String) (tokens : List Token) (slip : LexError) :
    tokenLines behind (tokens.map .ok ++ [.error slip]) =
      tokens.map tokenLine ++ [failureLine slip.message] := by
  induction tokens with
  | nil => rfl
  | cons token tokens ih => exact congrArg (tokenLine token :: ·) ih

theorem ofSource_of_tokenize_eq_error (describe : Program → String) (target : Target)
    {slip : LexError} (h : tokenize source = .error slip) :
    ∃ front, ofSource describe target source = front ++ [failureLine slip.message] := by
  obtain ⟨before, hcollect, -⟩ := Lexer.collect_of_tokenize_eq_error h
  rw [ofSource, hcollect, tokenLines_error]
  exact ⟨_, (List.append_assoc _ _ _).symm⟩

theorem ofSource_of_parse_eq_error (describe : Program → String) (target : Target)
    {all : List Token} (h : tokenize source = .ok all) {e : SourceError}
    (hparse : Program.parse source = .error e) :
    ∃ front, ofSource describe target source = front ++ [failureLine e.message] := by
  rw [ofSource, hparse, Lexer.collect_of_tokenize_eq_ok h, tokenLines_map_ok, ← List.append_assoc]
  exact ⟨_, (List.append_assoc _ [""] _).symm⟩

/-- A text that parses has been read to its end. -/
private theorem exists_tokenize_eq_ok {p : Program} (h : Program.parse source = .ok p) :
    ∃ all, tokenize source = .ok all := by
  obtain ⟨w, hkinds, -⟩ := Program.parse_eq_ok_iff.1 h
  cases htokens : tokenize source with
  | ok all => exact ⟨all, rfl⟩
  | error slip =>
    rw [htokens] at hkinds
    cases hkinds

theorem ofSource_of_parse_eq_ok {p : Program} (h : Program.parse source = .ok p) :
    ofSource describe target source = understood describe source p ++ suiteLines target p := by
  obtain ⟨all, htokens⟩ := exists_tokenize_eq_ok h
  have hcollect := Lexer.collect_of_tokenize_eq_ok htokens
  rw [ofSource, understood, h, hcollect, tokenLines_map_ok, ← List.append_assoc]
  exact (List.append_assoc _ ("" :: programLines describe p) _).symm

/-- The tokens that a trace shows before a malformed lexeme include the one that is refused. -/
private theorem exists_collect_eq {refusal : ParseError} {slip : LexError}
    (hparse : Program.parse source = .error (.parse refusal))
    (htokens : tokenize source = .error slip) : ∃ before behind,
      (Lexer.ofString source).collect =
        (before ++ refusal.found :: behind).map .ok ++ [.error slip] := by
  obtain ⟨tokens, last, hyields, hpull⟩ := Cursor.tokenize_eq_error_iff.1 htokens
  have hcollect := hyields.collect_ofString (Cursor.spent_of_error hpull)
  obtain ⟨before, behind, rfl, -⟩ := Program.refused_before_error hparse hyields hpull
  exact ⟨before, behind, by rw [hcollect, hpull]⟩

/-- If a text compiles, its trace ends with the suite. -/
theorem ofSource_of_compile_eq_ok (describe : Program → String) {output : Output}
    (h : compile source { target } = .ok output) :
    ∃ p, Program.parse source = .ok p ∧
      ofSource describe target source = understood describe source p ++
        ["⚙️  GENERATED (" ++ target.name ++ "):", rule] ++ output.diagnostics.map warningLine ++
        [output.source, successLine] := by
  obtain ⟨-, p, diagnostics, hparse, hvalid, rfl⟩ := compile_eq_ok_iff.1 h
  have hgenerate : p.generate target defaultClassName =
      .ok ⟨(target.dialect defaultClassName).suite p, diagnostics⟩ := by
    rw [Program.generate, hvalid]
    rfl
  refine ⟨p, hparse, ?_⟩
  rw [ofSource_of_parse_eq_ok hparse, suiteLines, hgenerate, List.append_assoc, List.append_assoc]

/-- If a text does not compile, its trace ends with the message of the error, or of a malformed
lexeme behind it. -/
theorem ofSource_of_compile_eq_error (describe : Program → String) {e : CompileError}
    (h : compile source { target } = .error e) :
    ∃ front message, Reported source e message ∧ Unexclaimed message ∧
      ofSource describe target source = front ++ [failureLine message] := by
  have hrefused : Refused source defaultClassName e := compile_eq_error_iff.1 h
  cases hrefused with
  | className hname => exact absurd hname (by decide)
  | @test p before after t rule _ hparse hsplit hbefore hlacks =>
    have hviolation := (Program.wellFormed_of_parse hparse).violation?_eq_some_iff.2
      ⟨before, t, after, rule, hsplit, hbefore, hlacks, rfl⟩
    have hgenerate : p.generate target defaultClassName = .error ⟨rule, some t.name⟩ := by
      rw [Program.generate, Program.validate_eq_error_iff.2 hviolation]
      rfl
    have hmessage := ValidationError.unexclaimed_message ⟨rule, some t.name⟩
    refine ⟨understood describe source p
      ++ ["⚙️  GENERATED (" ++ target.name ++ "):", Trace.rule], _,
      .error (fun _ heq => by cases heq), hmessage, ?_⟩
    rw [ofSource_of_parse_eq_ok hparse, suiteLines, hgenerate]
    exact (List.append_assoc _ _ _).symm
  | @source e _ hparse =>
    cases e with
    | lex slip =>
      obtain ⟨tokens, last, hyields, hpull, -⟩ := Program.parse_eq_lex_iff.1 hparse
      obtain ⟨front, hfront⟩ := ofSource_of_tokenize_eq_error describe target
        (Cursor.tokenize_eq_error_iff.2 ⟨tokens, last, hyields, hpull⟩)
      exact ⟨front, _, .error (fun _ heq => by cases heq), slip.unexclaimed_message, hfront⟩
    | parse refusal =>
      cases htokens : tokenize source with
      | error slip =>
        obtain ⟨before, behind, hcollect⟩ := exists_collect_eq hparse htokens
        obtain ⟨front, hfront⟩ := ofSource_of_tokenize_eq_error describe target htokens
        exact ⟨front, _, .lexeme htokens hcollect, slip.unexclaimed_message, hfront⟩
      | ok all =>
        obtain ⟨front, hfront⟩ := ofSource_of_parse_eq_error describe target htokens hparse
        exact ⟨front, _, .error fun _ _ => ⟨all, htokens⟩, refusal.unexclaimed_message, hfront⟩

theorem lastLine?_trace_eq_iff (describe : Program → String) :
    lastLine? (unlines (banner ++ ofSource describe target source)) = some successLine ↔
      ∃ output, compile source { target } = .ok output := by
  cases hcompile : compile source { target } with
  | ok output =>
    obtain ⟨p, -, htrace⟩ := ofSource_of_compile_eq_ok describe hcompile
    have hsuccess : lines successLine = [successLine] := lines_of_oneLine (by decide)
    rw [htrace, List.append_cons _ output.source, ← List.append_assoc, lastLine?_unlines, hsuccess]
    exact iff_of_true rfl ⟨output, rfl⟩
  | error e =>
    obtain ⟨front, message, -, hmessage, htrace⟩ := ofSource_of_compile_eq_error describe hcompile
    rw [htrace, ← List.append_assoc]
    refine iff_of_false (lastLine?_failure_ne hmessage _) ?_
    rintro ⟨output, houtput⟩
    cases houtput

private theorem oneLine_warningLine {d : Diagnostic} (h : OneLine d.display) :
    OneLine (warningLine d) := by
  cases d with
  | unusedVariable name =>
    have hcode : OneLine Diagnostic.unusedVariableCode := by decide
    exact oneLine_append.2 ⟨oneLine_append.2 ⟨oneLine_append.2 ⟨by decide, hcode⟩, by decide⟩, h⟩

/-! ## Runs of the tracer -/

private theorem run_eq (describe : Program → String) (fs : FileSystem) (state : fs.State)
    {path : String} {options : List String} (hread : fs.read state path = .ok source)
    (hchosen : Chosen options target) :
    run describe fs.access (path :: options) state =
      ({ exitCode := 0, stdout := unlines (banner ++ ofSource describe target source) },
        state) := by
  have htarget : (options.head?.map Target.ofText).getD (.ok .junit) = .ok target := by
    cases hchosen with
    | default => rfl
    | named rest htext => exact htext
  simp only [run, htarget, bind, StateT.bind, fs.access_read, hread]
  rfl

/-- A trace of a file that can be read changes nothing, and its last line announces a success
exactly if the text compiles. Then it ends with the suite: a line for each warning, and the source.
Otherwise it ends with the message of the error, or of a malformed lexeme behind it. How the program
is described makes no difference. -/
theorem run_agrees (describe : Program → String) (fs : FileSystem) (state : fs.State)
    {path source : String} {options : List String} {target : Target}
    (hread : fs.read state path = .ok source) (hchosen : Chosen options target) :
    ∃ stdout, run describe fs.access (path :: options) state = ({ exitCode := 0, stdout }, state) ∧
      (lastLine? stdout = some "✅ Compile succeeded!" ↔
        ∃ output, compile source { target } = .ok output) ∧
      (∀ output, compile source { target } = .ok output → ∃ p, Program.parse source = .ok p ∧
        stdout = unlines (banner ++ understood describe source p ++
          ["⚙️  GENERATED (" ++ target.name ++ "):", rule] ++ output.diagnostics.map warningLine ++
          [output.source, "✅ Compile succeeded!"]) ∧
        ∀ d ∈ output.diagnostics, OneLine (warningLine d)) ∧
      ∀ e, compile source { target } = .error e → ∃ front message, Reported source e message ∧
        stdout = unlines (front ++ ["❌ " ++ message]) := by
  refine ⟨_, run_eq describe fs state hread hchosen, lastLine?_trace_eq_iff describe,
    fun output hcompile => ?_, fun e hcompile => ?_⟩
  · obtain ⟨p, hparse, htrace⟩ := ofSource_of_compile_eq_ok describe hcompile
    refine ⟨p, hparse, ?_, fun d hd => ?_⟩
    · rw [htrace]
      simp only [List.append_assoc]
      rfl
    · exact oneLine_warningLine (oneLine_display_of_compile hcompile d hd)
  · obtain ⟨front, message, hreported, -, htrace⟩ :=
      ofSource_of_compile_eq_error describe hcompile
    rw [htrace, ← List.append_assoc]
    exact ⟨banner ++ front, message, hreported, rfl⟩

/-- A text with a brace that is refused, and a character behind it that is no token. -/
def bracedTree : FileTree where
  entries := [(["a.test"], .file "test a \x7d @".toUTF8)]

theorem read_bracedTree : bracedTree.read "a.test" = .ok "test a \x7d @" := by
  have hread : bracedTree.read "a.test" = decodeText "test a \x7d @".toUTF8 := rfl
  rw [hread, decodeText_toUTF8]

/-- Compilation reports the brace, and the trace the character behind it. -/
theorem run_agrees_bracedTree :
    compile "test a \x7d @" {} = .error (.source (.parse
      { cause := .missing .leftBrace .afterTestName
        found := ⟨.rightBrace, { start := 7, stop := 8, line := 1, column := 8 }⟩ })) ∧
    ∃ front stdout, run Program.describe FileTree.access ["a.test"] bracedTree =
        ({ exitCode := 0, stdout }, bracedTree) ∧
      stdout = unlines (front ++
        ["❌ Lexer error at line 1, column 10: Illegal character '@'\n  Near: '@'"]) ∧
      lastLine? stdout ≠ some "✅ Compile succeeded!" := by
  have hslip : tokenize "test a \x7d @" = .error ⟨.illegalCharacter '@', 1, 10⟩ := by
    with_unfolding_all rfl
  have hcompile : compile "test a \x7d @" {} = .error (.source (.parse
      { cause := .missing .leftBrace .afterTestName
        found := ⟨.rightBrace, { start := 7, stop := 8, line := 1, column := 8 }⟩ })) :=
    compile_of_parse_eq_error (by decide) (by
      set_option maxRecDepth 2000 in with_unfolding_all rfl)
  obtain ⟨stdout, hrun, hlast, -, herror⟩ :=
    run_agrees Program.describe FileTree.system bracedTree read_bracedTree .default
  obtain ⟨front, message, hreported, hstdout⟩ := herror _ hcompile
  refine ⟨hcompile, front, stdout, hrun, ?_, ?_⟩
  · cases hreported with
    | error hread =>
      obtain ⟨all, hall⟩ := hread _ rfl
      rw [hslip] at hall
      cases hall
    | lexeme hslip' =>
      rw [hslip] at hslip'
      cases hslip'
      exact hstdout
  · rw [ne_eq, hlast, hcompile]
    rintro ⟨output, houtput⟩
    cases houtput

end Trace

end HttpSuite
