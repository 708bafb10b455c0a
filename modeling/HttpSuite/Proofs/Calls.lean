import HttpSuite.Proofs.Pulls

/-!
# Calls of a lexer

A lexer answers three calls, and they may come in any order, also behind an error: one token, the
next item of the iteration, or all tokens up to the end.  Whichever is called, what happens is that
tokens are pulled from the cursor, one after the other, and the answer reports the outcomes.  What
is said of every run of pulls therefore holds behind every sequence of calls.

## Main definitions

* `Cursor.Pulls`: a run of pulls, whatever their outcomes.
* `Lexer.Call`, `Lexer.Answer`, `Lexer.answers`: calls of one lexer in order, and what they answer.
* `Lexer.Answer.Reports`: the outcomes of which an answer is made.

## Main results

* `Lexer.answer_reports`: a call is a run of pulls, and its answer reports them.
* `Lexer.answers_pulls`: calls in order are a run of pulls, and every token they answer was pulled.
-/

namespace HttpSuite

/-! ## Runs of pulls -/

/-- The tokens among the outcomes of pulls. -/
def pulledTokens (pulls : List Pull) : List Token := pulls.filterMap Except.toOption

theorem pulledTokens_append (first second : List Pull) :
    pulledTokens (first ++ second) = pulledTokens first ++ pulledTokens second :=
  List.filterMap_append

theorem pulledTokens_ok (tokens : List Token) : pulledTokens (tokens.map .ok) = tokens := by
  rw [pulledTokens, List.filterMap_map]
  exact List.filterMap_some

theorem mem_pulledTokens {pulls : List Pull} {token : Token} :
    token ∈ pulledTokens pulls ↔ .ok token ∈ pulls := by
  rw [pulledTokens, List.mem_filterMap]
  constructor
  · rintro ⟨pull | token', hmem, heq⟩
    · cases heq
    · cases heq
      exact hmem
  · exact fun hmem => ⟨_, hmem, rfl⟩

namespace Cursor

/-- Pulling from one cursor has these outcomes, errors among them, and leads to the other cursor. -/
inductive Pulls : Cursor → List Pull → Cursor → Prop
  | refl (cursor : Cursor) : Pulls cursor [] cursor
  | pull {cursor last : Cursor} {pulls : List Pull} :
    Pulls cursor.next.2 pulls last → Pulls cursor (cursor.next.1 :: pulls) last

theorem Pulls.append {cursor middle last : Cursor} {first second : List Pull}
    (h : Pulls cursor first middle) (h' : Pulls middle second last) :
    Pulls cursor (first ++ second) last := by
  induction h with
  | refl => exact h'
  | pull _ ih => exact .pull (ih h')

theorem pulls_next (cursor : Cursor) : Pulls cursor [cursor.next.1] cursor.next.2 :=
  .pull (.refl _)

theorem Yields.pulls {cursor last : Cursor} {tokens : List Token} (h : Yields cursor tokens last) :
    Pulls cursor (tokens.map .ok) last := by
  induction h with
  | refl cursor => exact .refl cursor
  | @pull cursor after last token tokens hnext _ _ ih =>
    have hpull : Pulls cursor (cursor.next.1 :: tokens.map .ok) last := .pull (by rwa [hnext])
    rwa [hnext] at hpull

theorem Yields.kind_ne {cursor last : Cursor} {tokens : List Token} (h : Yields cursor tokens last) :
    ∀ token ∈ tokens, token.kind ≠ .endOfFile := by
  induction h with
  | refl => exact List.forall_mem_nil _
  | pull _ hne _ ih => exact List.forall_mem_cons.2 ⟨hne, ih⟩

/-- Pulling all tokens stops where the last of the pulls stops. -/
theorem Yields.tokens_snd {cursor last : Cursor} {tokens : List Token}
    (h : Yields cursor tokens last) : cursor.tokens.2 = last.tokens.2 := by
  induction h with
  | refl => rfl
  | pull hnext hk _ ih => rw [tokens_of_ok hnext, if_neg hk, ih]

theorem Spent.tokens_snd {cursor : Cursor} (h : cursor.Spent) :
    cursor.tokens.2 = cursor.next.2 := by
  cases hnext : cursor.next with
  | mk pull after =>
    cases pull with
    | error e => rw [tokens_of_error hnext]
    | ok token => rw [tokens_of_ok hnext, if_pos (h token after hnext)]

end Cursor

namespace Lexer

/-! ## Calls and answers -/

/-- What can be asked of a lexer. -/
inductive Call where
  | nextToken
  | next
  | tokens
deriving DecidableEq, Repr

/-- What a lexer answers. -/
inductive Answer where
  | token (pull : Pull)
  | item (found : Option Pull)
  | all (tokens : Except LexError (List Token))

/-- The answer to a call, and the lexer after it. -/
def answer (lexer : Lexer) : Call → Answer × Lexer
  | .nextToken => (.token lexer.nextToken.1, lexer.nextToken.2)
  | .next => (.item lexer.next?.1, lexer.next?.2)
  | .tokens => (.all lexer.tokens.1, lexer.tokens.2)

/-- The answers to calls in order, and the lexer after the last of them. -/
def answers (lexer : Lexer) : List Call → List Answer × Lexer
  | [] => ([], lexer)
  | call :: calls =>
    let rest := (lexer.answer call).2.answers calls
    ((lexer.answer call).1 :: rest.1, rest.2)

/-- The tokens that an answer hands out. -/
def Answer.tokens : Answer → List Token
  | token pull => pulledTokens [pull]
  | item found => pulledTokens found.toList
  | all (.ok tokens) => tokens
  | all (.error _) => []

/-- The outcomes of which an answer is made. The tokens before a failure are not handed out. -/
inductive Answer.Reports : Answer → List Pull → Prop
  | token (pull : Pull) : Reports (.token pull) [pull]
  | nothing : Reports (.item none) []
  | item (pull : Pull) : Reports (.item (some pull)) [pull]
  | all (tokens : List Token) : Reports (.all (.ok tokens)) (tokens.map .ok)
  | failure (before : List Token) (e : LexError) :
    Reports (.all (.error e)) (before.map .ok ++ [.error e])

theorem Answer.Reports.tokens_sublist {answer : Answer} {pulls : List Pull}
    (h : answer.Reports pulls) : answer.tokens.Sublist (pulledTokens pulls) := by
  cases h with
  | token pull => exact .refl _
  | nothing => exact .refl _
  | item pull => exact .refl _
  | all tokens =>
    rw [pulledTokens_ok]
    exact .refl _
  | failure before e => exact List.nil_sublist _

/-! ## Calls are pulls -/

/-- Pulling all tokens goes on until nothing but the end of the text or an error is left, pulls that
too, and reports all of it. -/
theorem reports_of_yields {lexer : Lexer} {tokens : List Token} {last : Cursor}
    (hyields : Cursor.Yields lexer.cursor tokens last) (hspent : last.Spent) :
    (Answer.all lexer.tokens.1).Reports (tokens.map .ok ++ [last.next.1]) ∧
      Cursor.Pulls lexer.cursor (tokens.map .ok ++ [last.next.1]) lexer.tokens.2.cursor := by
  have hall : lexer.tokens.1 = last.next.1.map fun final => tokens ++ [final] := by
    have hfirst : lexer.tokens.1 = _ := hyields.tokens_eq
    rw [hfirst, hspent.tokens_eq]
    cases last.next.1 <;> rfl
  have hcursor : lexer.tokens.2.cursor = last.next.2 :=
    hyields.tokens_snd.trans hspent.tokens_snd
  constructor
  · rw [hall]
    cases last.next.1 with
    | error e => exact .failure tokens e
    | ok final =>
      have hreports := Answer.Reports.all (tokens ++ [final])
      rwa [List.map_append] at hreports
  · rw [hcursor]
    exact hyields.pulls.append last.pulls_next

theorem reports_tokens (lexer : Lexer) : ∃ pulls, (Answer.all lexer.tokens.1).Reports pulls ∧
    Cursor.Pulls lexer.cursor pulls lexer.tokens.2.cursor := by
  obtain ⟨tokens, last, hyields, hspent⟩ := lexer.cursor.exists_yields
  exact ⟨_, reports_of_yields hyields hspent⟩

/-- A call is a run of pulls, and its answer reports them. -/
theorem answer_reports (lexer : Lexer) (call : Call) :
    ∃ pulls, (lexer.answer call).1.Reports pulls ∧
      Cursor.Pulls lexer.cursor pulls (lexer.answer call).2.cursor := by
  cases call with
  | nextToken => exact ⟨_, .token _, lexer.cursor.pulls_next⟩
  | tokens => exact lexer.reports_tokens
  | next =>
    cases hended : lexer.ended with
    | true =>
      have hover : lexer.next? = (none, lexer) := by rw [next?, if_pos hended]
      rw [answer, hover]
      exact ⟨[], .nothing, .refl _⟩
    | false =>
      have hitem : lexer.next? = (some lexer.cursor.next.1,
          { cursor := lexer.cursor.next.2, ended := isLast lexer.cursor.next.1 }) := by
        rw [next?, hended, if_neg Bool.false_ne_true]
      rw [answer, hitem]
      exact ⟨_, .item _, lexer.cursor.pulls_next⟩

/-- Calls in order are a run of pulls, and every token that is answered was pulled, in this
order. -/
theorem answers_pulls (lexer : Lexer) (calls : List Call) :
    ∃ pulls, Cursor.Pulls lexer.cursor pulls (lexer.answers calls).2.cursor ∧
      ((lexer.answers calls).1.flatMap Answer.tokens).Sublist (pulledTokens pulls) := by
  induction calls generalizing lexer with
  | nil => exact ⟨[], .refl _, .refl _⟩
  | cons call calls ih =>
    obtain ⟨first, hreports, hfirst⟩ := lexer.answer_reports call
    obtain ⟨others, hothers, hsublist⟩ := ih (lexer.answer call).2
    refine ⟨first ++ others, hfirst.append hothers, ?_⟩
    rw [answers, List.flatMap_cons, pulledTokens_append]
    exact hreports.tokens_sublist.append hsublist

end Lexer

end HttpSuite
