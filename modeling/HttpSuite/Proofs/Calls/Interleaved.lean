import HttpSuite.Proofs.Places.Calls
import Mathlib.Data.List.Forall2

/-!
# Calls in any order

Tokens are pulled from a lexer in three ways: one by one, as items of an iteration, or all up to the
end.  All three pull from the same cursor, so whatever is called, the outcomes come in the order in
which pulling one by one would give them, and none is lost or seen twice.  The iteration has a mark
of its own that says it is over; only its own items set it.

## Main definitions

* `Lexer.Ends`: an outcome that is the end of the text or an error.
* `Lexer.Answer.MadeOf`: the pulls that a call makes, and the answer that it gives from them.

## Main results

* `Lexer.answers_replicate`: pulling one by one gives the outcomes of a run of pulls.
* `Lexer.answers_madeOf`: calls in order are made of the pulls of one run.
* `Lexer.ended_answers_iff`: what sets the mark.
* `Cursor.Pulls.next_of_mem`: behind the end of the text it is pulled again and again.
* `Lexer.answers_interleaved`: the three ways of pulling tokens agree.
-/

namespace HttpSuite

/-! ## Behind the end of the text -/

namespace Cursor

variable {cursor last : Cursor} {pulls : List Pull} {token : Token}

/-- A run from a cursor that a pull does not move stays there. -/
private theorem Pulls.eq_of_next_eq {pull : Pull} (h : Pulls cursor pulls last)
    (hnext : cursor.next = (pull, cursor)) : last = cursor := by
  induction h with
  | refl => rfl
  | pull _ ih =>
    rw [hnext] at ih
    exact ih hnext

/-- Once the end of the text has been pulled it is pulled again. -/
theorem Pulls.next_of_mem (h : Pulls cursor pulls last) (hmem : .ok token ∈ pulls)
    (hend : token.kind = .endOfFile) : last.next.1 = .ok token := by
  induction h with
  | refl => exact absurd hmem List.not_mem_nil
  | @pull cursor last pulls hpulls ih =>
    rcases List.mem_cons.1 hmem with hfirst | hlater
    · have hagain := next_behind_end (Prod.ext hfirst.symm rfl) hend
      rw [hpulls.eq_of_next_eq hagain, hagain]
    · exact ih hlater

end Cursor

namespace Lexer

/-! ## The pulls behind an answer -/

/-- The outcome is the end of the text or an error. -/
def Ends (pull : Pull) : Prop := ∀ token, pull = .ok token → token.kind = .endOfFile

theorem isLast_iff {pull : Pull} : isLast pull = true ↔ Ends pull := by
  cases pull with
  | error e => simp [isLast, Ends]
  | ok token => simp [isLast, Ends]

/-- A call makes these pulls and reports them in its answer. All tokens are pulled up to the first
outcome that is the end of the text or an error. -/
structure Answer.MadeOf (answer : Answer) (pulls : List Pull) : Prop where
  reports : answer.Reports pulls
  stops : ∀ result, answer = .all result → ∃ before last, pulls = before ++ [last] ∧ Ends last ∧
    ∀ pull ∈ before, ¬ Ends pull

/-- An answer about one token has nothing else to keep to. -/
theorem Answer.Reports.madeOf {answer : Answer} {pulls : List Pull} (h : answer.Reports pulls)
    (hone : ∀ result, answer ≠ .all result) : answer.MadeOf pulls :=
  ⟨h, fun result heq => absurd heq (hone result)⟩

private theorem madeOf_tokens (lexer : Lexer) : ∃ pulls, (Answer.all lexer.tokens.1).MadeOf pulls ∧
    Cursor.Pulls lexer.cursor pulls lexer.tokens.2.cursor := by
  obtain ⟨tokens, last, hyields, hspent⟩ := lexer.cursor.exists_yields
  obtain ⟨hreports, hpulls⟩ := reports_of_yields hyields hspent
  have hlast : Ends last.next.1 := fun token hpull => hspent token _ (Prod.ext hpull rfl)
  have hbefore : ∀ pull ∈ tokens.map .ok, ¬ Ends pull := by
    intro pull hmem hends
    obtain ⟨token, htoken, rfl⟩ := List.mem_map.1 hmem
    exact hyields.kind_ne token htoken (hends token rfl)
  exact ⟨_, ⟨hreports, fun _ _ => ⟨_, _, rfl, hlast, hbefore⟩⟩, hpulls⟩

/-- A call makes some pulls, and its answer is made of them. -/
private theorem answer_madeOf (lexer : Lexer) (call : Call) :
    ∃ pulls, (lexer.answer call).1.MadeOf pulls ∧
      Cursor.Pulls lexer.cursor pulls (lexer.answer call).2.cursor := by
  cases call with
  | tokens => exact lexer.madeOf_tokens
  | nextToken =>
    obtain ⟨pulls, hreports, hpulls⟩ := lexer.answer_reports .nextToken
    exact ⟨pulls, hreports.madeOf fun _ => nofun, hpulls⟩
  | next =>
    obtain ⟨pulls, hreports, hpulls⟩ := lexer.answer_reports .next
    exact ⟨pulls, hreports.madeOf fun _ => nofun, hpulls⟩

/-- Calls in order are made of the pulls of one run. -/
theorem answers_madeOf (lexer : Lexer) (calls : List Call) :
    ∃ parts, List.Forall₂ Answer.MadeOf (lexer.answers calls).1 parts ∧
      Cursor.Pulls lexer.cursor parts.flatten (lexer.answers calls).2.cursor := by
  induction calls generalizing lexer with
  | nil => exact ⟨[], .nil, .refl _⟩
  | cons call calls ih =>
    obtain ⟨first, hfirst, hpulls⟩ := lexer.answer_madeOf call
    obtain ⟨others, hothers, hmore⟩ := ih (lexer.answer call).2
    exact ⟨first :: others, .cons hfirst hothers, hpulls.append hmore⟩

/-- Pulling one by one gives the outcomes of a run of pulls. -/
theorem answers_replicate (lexer : Lexer) {pulls : List Pull} {last : Cursor}
    (h : Cursor.Pulls lexer.cursor pulls last) :
    (lexer.answers (.replicate pulls.length .nextToken)).1 = pulls.map .token := by
  generalize hcursor : lexer.cursor = cursor at h
  induction h generalizing lexer with
  | refl => rfl
  | pull _ ih =>
    subst hcursor
    exact congrArg (Answer.token lexer.cursor.next.1 :: ·) (ih _ rfl)

/-! ## The mark of the iteration -/

theorem next?_fst_eq_none_iff {lexer : Lexer} : lexer.next?.1 = none ↔ lexer.ended = true := by
  cases hended : lexer.ended <;> simp [next?, hended]

/-- A call sets the mark if it is a call for an item and the item is the last. -/
theorem ended_answer_iff (lexer : Lexer) (call : Call) : (lexer.answer call).2.ended = true ↔
    lexer.ended = true ∨ ∃ pull, (lexer.answer call).1 = .item (some pull) ∧ Ends pull := by
  cases call with
  | nextToken | tokens => simp [answer, nextToken, tokens]
  | next => cases hended : lexer.ended <;> simp [answer, next?, hended, isLast_iff]

/-- The mark is set once an item has been the end of the text or an error. -/
theorem ended_answers_iff (lexer : Lexer) (calls : List Call) :
    (lexer.answers calls).2.ended = true ↔
      lexer.ended = true ∨ ∃ pull, .item (some pull) ∈ (lexer.answers calls).1 ∧ Ends pull := by
  induction calls generalizing lexer with
  | nil => simp [answers]
  | cons call calls ih =>
    rw [answers, ih, ended_answer_iff, or_assoc]
    simp only [List.mem_cons, or_and_right, exists_or, eq_comm]

/-! ## Whole iterations -/

/-- The iteration over a text that is tokenized yields its tokens. -/
theorem collect_of_tokenize_eq_ok {source : String} {tokens : List Token}
    (h : tokenize source = .ok tokens) : (Lexer.ofString source).collect = tokens.map .ok := by
  obtain ⟨before, last, final, after, hyields, hnext, hend, rfl⟩ := Cursor.tokenize_eq_ok_iff.1 h
  have hspent : last.Spent := by
    intro token after' hnext'
    rw [hnext] at hnext'
    cases hnext'
    exact hend
  rw [hyields.collect_ofString hspent, hnext, List.map_append, List.map_singleton]

/-- The iteration over a text that is not yields the tokens before the error, and the error; and so
does pulling one by one. -/
theorem collect_of_tokenize_eq_error {source : String} {e : LexError}
    (h : tokenize source = .error e) :
    ∃ before : List Token, (Lexer.ofString source).collect = before.map .ok ++ [.error e] ∧
      (∀ token ∈ before, token.kind ≠ .endOfFile) ∧
      ((Lexer.ofString source).answers (.replicate (before.length + 1) .nextToken)).1 =
        (Lexer.ofString source).collect.map .token := by
  obtain ⟨before, last, hyields, hpull⟩ := Cursor.tokenize_eq_error_iff.1 h
  have hpulls := hyields.pulls.append last.pulls_next
  rw [hpull] at hpulls
  have hcollect := hyields.collect_ofString (Cursor.spent_of_error hpull)
  rw [hpull] at hcollect
  have hall := (Lexer.ofString source).answers_replicate hpulls
  rw [List.length_append, List.length_map, List.length_singleton, ← hcollect] at hall
  exact ⟨before, hcollect, hyields.kind_ne, hall⟩

/-! ## All calls -/

/-- The tokens that are answered were pulled. -/
private theorem mem_flatten_of_mem_tokens {answers : List Answer} {parts : List (List Pull)}
    {token : Token} (h : List.Forall₂ Answer.MadeOf answers parts)
    (hmem : token ∈ answers.flatMap Answer.tokens) :
    .ok token ∈ parts.flatten := by
  induction h with
  | nil => exact absurd hmem List.not_mem_nil
  | @cons answer part answers parts hfirst _ ih =>
    rw [List.flatMap_cons, List.mem_append] at hmem
    rw [List.flatten_cons, List.mem_append]
    exact hmem.imp (fun hmem => mem_pulledTokens.1 (hfirst.reports.tokens_sublist.subset hmem)) ih

/-- The three ways of pulling tokens agree, whatever is called before and in between. The outcomes
that calls in order report are those of pulling one by one from the start; the iteration is over
exactly if one of its own items was the end of the text or an error; once the end of the text has
been answered it is pulled again; and the items of an iteration from the start are the tokens of the
text, or those before the first error and that error. -/
theorem answers_interleaved (source : String) (calls : List Call) :
    let start := Lexer.ofString source
    let answers := (start.answers calls).1
    let lexer := (start.answers calls).2
    (∃ parts, List.Forall₂ Answer.MadeOf answers parts ∧
      (start.answers (.replicate parts.flatten.length .nextToken)).1 =
        parts.flatten.map .token) ∧
    (lexer.next?.1 = none ↔ ∃ pull, .item (some pull) ∈ answers ∧ Ends pull) ∧
    (∀ token ∈ answers.flatMap Answer.tokens, token.kind = .endOfFile →
      lexer.nextToken.1 = .ok token) ∧
    (∀ tokens, tokenize source = .ok tokens → start.collect = tokens.map .ok) ∧
    ∀ e, tokenize source = .error e → ∃ before : List Token,
      start.collect = before.map .ok ++ [.error e] ∧
      (∀ token ∈ before, token.kind ≠ .endOfFile) ∧
      (start.answers (.replicate (before.length + 1) .nextToken)).1 =
        start.collect.map .token := by
  intro start answers lexer
  obtain ⟨parts, hparts, hpulls⟩ := start.answers_madeOf calls
  refine ⟨⟨parts, hparts, start.answers_replicate hpulls⟩, ?_, ?_,
    fun _ => collect_of_tokenize_eq_ok, fun _ => collect_of_tokenize_eq_error⟩
  · rw [next?_fst_eq_none_iff, ended_answers_iff]
    exact or_iff_right Bool.false_ne_true
  · intro token hmem hend
    exact hpulls.next_of_mem (mem_flatten_of_mem_tokens hparts hmem) hend

/-- All tokens are asked for and an unknown escape is met; the iteration goes on behind it and is
over at the string that the closing quote opens; then one more token is pulled. -/
theorem answers_interleaved_resumed :
    let source := "a \"\\q\" ;"
    let calls : List Call := [.tokens, .next, .next, .nextToken]
    let answers := ((Lexer.ofString source).answers calls).1
    let lexer := ((Lexer.ofString source).answers calls).2
    let slip : LexError := ⟨.unknownEscape 'q', 1, 4⟩
    let opened : LexError := ⟨.unterminatedString "\" ;", 1, 6⟩
    let final : Token := ⟨.endOfFile, ⟨8, 8, 1, 9⟩⟩
    answers = [.all (.error slip), .item (some (.ok ⟨.identifier "q", ⟨4, 5, 1, 5⟩⟩)),
      .item (some (.error opened)), .token (.ok final)] ∧
    lexer.next?.1 = none ∧ lexer.nextToken.1 = .ok final ∧ tokenize source = .error slip ∧
    ∃ before : List Token, (Lexer.ofString source).collect = before.map .ok ++ [.error slip] := by
  intro source calls answers lexer slip opened final
  have hanswers : ((Lexer.ofString source).answers calls).1 =
      [.all (.error slip), .item (some (.ok ⟨.identifier "q", ⟨4, 5, 1, 5⟩⟩)),
        .item (some (.error opened)), .token (.ok final)] := by
    simp only [source, calls, slip, opened, final]
    set_option maxRecDepth 2000 in with_unfolding_all rfl
  have hslip : tokenize source = .error slip := by
    simp only [source, slip]
    set_option maxRecDepth 2000 in with_unfolding_all rfl
  obtain ⟨-, hover, hfinal, -, hcollect⟩ := answers_interleaved source calls
  obtain ⟨before, hitems, -⟩ := hcollect slip hslip
  have hend : Ends (.error opened) := fun _ h => by cases h
  refine ⟨hanswers, hover.2 ⟨.error opened, ?_, hend⟩, hfinal final ?_ rfl, hslip, before, hitems⟩
  · simp [hanswers]
  · simp [hanswers, Answer.tokens, pulledTokens, Except.toOption]

end Lexer

end HttpSuite
