import HttpSuite.Proofs.Parse

/-!
# Reading ends

Reading is made of loops: the pulls of a text, the iteration over them, and the repetitions of the
grammar.  Here each loop is written as the step of one round, which gives the result or the state
of the next round.  A loop ends if every further round leaves less to do; for the repetitions of the
grammar a further round has gone over at least one token, and no round goes over the end of the
text.  So a program that breaks off inside an open block is refused, and not waited for.

## Main definitions

* `Rounds`: a loop that ends after a number of rounds.
* `Item.round`, `Item.Terminates`: a round of a repetition, and what makes the repetition end.
* `Grammar.Shut`: words that leave no block open.

## Main results

* `exists_rounds`: a loop ends if every further round leaves less to do.
* `Item.Terminates.of_reads`: the repetitions of the grammar end.
* `Program.exists_halts`: a call of the parser stops after no more tokens than characters.
* `Grammar.shut_program`: every program shuts its blocks.
* `reading_ends`: lexing and parsing end on every text.
-/

namespace HttpSuite

open Grammar

/-! ## Loops -/

section Loops

variable {σ ρ : Type} {step : σ → σ ⊕ ρ}

/-- The loop with this step, started at a state, is over after a number of rounds and has given a
result. -/
inductive Rounds (step : σ → σ ⊕ ρ) : σ → Nat → ρ → Prop
  | last {s : σ} {r : ρ} : step s = .inr r → Rounds step s 1 r
  | further {s next : σ} {n : Nat} {r : ρ} : step s = .inl next → Rounds step next n r →
    Rounds step s (n + 1) r

/-- What a round has to keep: the last one gives the result, and every other one passes the result
on and leaves less to do. -/
def Keeps (result : σ → ρ) (left : σ → Nat) (s : σ) : σ ⊕ ρ → Prop
  | .inr r => result s = r
  | .inl next => result s = result next ∧ left next < left s

/-- A loop ends if every round that is not the last leaves less to do. -/
theorem exists_rounds {result : σ → ρ} {left : σ → Nat}
    (h : ∀ s, Keeps result left s (step s)) (s : σ) :
    ∃ n, n ≤ left s + 1 ∧ Rounds step s n (result s) := by
  have hround := h s
  cases hstep : step s with
  | inr r =>
    rw [hstep] at hround
    rw [show result s = r from hround]
    exact ⟨1, Nat.le_add_left 1 _, .last hstep⟩
  | inl next =>
    rw [hstep] at hround
    obtain ⟨hsame, hlt⟩ := hround
    obtain ⟨n, hn, hrounds⟩ := exists_rounds h next
    rw [hsame]
    exact ⟨n + 1, Nat.succ_le_succ (Nat.le_trans hn hlt), .further hstep hrounds⟩
termination_by left s

end Loops

/-! ## Pulling tokens -/

namespace Cursor

/-- A run of tokens is no longer than the text it is pulled from. -/
theorem Yields.length_le {cursor last : Cursor} {tokens : List Token}
    (h : Yields cursor tokens last) : tokens.length + last.rest.length ≤ cursor.rest.length := by
  induction h with
  | refl => exact Nat.le_of_eq (Nat.zero_add _)
  | pull hnext hk _ ih =>
    have hlt := length_next_lt hnext hk
    rw [List.length_cons]
    omega

/-- A pull of any token but the end of the text moves the place on. -/
private theorem offset_lt_of_next {cursor after : Cursor} {token : Token}
    (h : cursor.next = (.ok token, after)) (hk : token.kind ≠ .endOfFile) :
    cursor.position.offset < after.position.offset := by
  have hlt := length_next_lt h hk
  obtain ⟨taken, hrest, hplace⟩ := cursor.next_eq
  rw [h] at hrest hplace
  rw [hplace]
  refine Position.offset_lt_past fun hnil => ?_
  rw [hrest, hnil] at hlt
  exact absurd hlt (Nat.lt_irrefl _)

end Cursor

namespace Lexer

/-- A round of pulling all tokens: the end of the text and an error are the last. -/
def tokensRound : List Token × Lexer →
    (List Token × Lexer) ⊕ (Except LexError (List Token) × Lexer)
  | (tokens, lexer) =>
    match lexer.nextToken with
    | (.error e, after) => .inr (.error e, after)
    | (.ok token, after) =>
      if token.kind = .endOfFile then .inr (.ok (tokens ++ [token]), after)
      else .inl (tokens ++ [token], after)

/-- A round of the iteration: the first that yields nothing is the last. -/
def collectRound : List Pull × Lexer → (List Pull × Lexer) ⊕ List Pull
  | (pulls, lexer) =>
    match lexer.next? with
    | (none, _) => .inr pulls
    | (some pull, after) => .inl (pulls ++ [pull], after)

/-- The tokens pulled so far and those still to come make up the result. -/
private theorem keeps_tokensRound (s : List Token × Lexer) :
    Keeps (fun s => (s.2.tokens.1.map (s.1 ++ ·), s.2.tokens.2))
      (fun s => s.2.cursor.rest.length) s (tokensRound s) := by
  obtain ⟨tokens, cursor, ended⟩ := s
  cases hnext : cursor.next with
  | mk pull after =>
    cases pull with
    | error e =>
      simp only [tokensRound, nextToken, hnext, Keeps, Lexer.tokens, Cursor.tokens_of_error hnext]
      rfl
    | ok token =>
      simp only [tokensRound, nextToken, hnext]
      split
      · next hend =>
        simp only [Keeps, Lexer.tokens, Cursor.tokens_of_ok hnext, if_pos hend]
        rfl
      · next hk =>
        refine ⟨?_, Cursor.length_next_lt hnext hk⟩
        simp only [Lexer.tokens, Cursor.tokens_of_ok hnext, if_neg hk]
        cases after.tokens.1 <;> simp [Except.map]

theorem exists_rounds_tokens (lexer : Lexer) : ∃ n, n ≤ lexer.cursor.rest.length + 1 ∧
    Rounds tokensRound ([], lexer) n lexer.tokens := by
  obtain ⟨n, hn, hrounds⟩ := exists_rounds keeps_tokensRound ([], lexer)
  have hstart : (lexer.tokens.1.map ([] ++ ·), lexer.tokens.2) = lexer.tokens := by
    rw [show lexer.tokens.1.map ([] ++ ·) = lexer.tokens.1 from congrFun Except.map_id _]
  rw [hstart] at hrounds
  exact ⟨n, hn, hrounds⟩

/-- The same for what the iteration yields. -/
private theorem keeps_collectRound (s : List Pull × Lexer) :
    Keeps (fun s => s.1 ++ s.2.collect) (fun s => s.2.remaining) s (collectRound s) := by
  obtain ⟨pulls, cursor, ended⟩ := s
  cases ended with
  | true =>
    show pulls ++ collect ⟨cursor, true⟩ = pulls
    rw [Cursor.collect_ended, List.append_nil]
  | false =>
    refine ⟨?_, remaining_next?_lt rfl⟩
    show pulls ++ collect ⟨cursor, false⟩ =
      pulls ++ [cursor.next.1] ++ collect ⟨cursor.next.2, isLast cursor.next.1⟩
    rw [Cursor.collect_eq, List.append_cons]

theorem exists_rounds_collect (lexer : Lexer) : ∃ n, n ≤ lexer.remaining + 1 ∧
    Rounds collectRound ([], lexer) n lexer.collect :=
  exists_rounds keeps_collectRound ([], lexer)

/-- There are no more tokens in a text than characters, and the end. -/
theorem length_le_of_tokenize {source : String} {tokens : List Token}
    (h : tokenize source = .ok tokens) : tokens.length ≤ source.length + 1 := by
  obtain ⟨first, last, final, after, hyields, -, -, rfl⟩ := Cursor.tokenize_eq_ok_iff.1 h
  have hle : first.length + last.rest.length ≤ source.toList.length := hyields.length_le
  rw [String.length_toList] at hle
  rw [List.length_append, List.length_singleton]
  omega

theorem length_collect_le (source : String) :
    (ofString source).collect.length ≤ source.length + 1 := by
  obtain ⟨tokens, last, hyields, hspent⟩ := (Cursor.ofString source).exists_yields
  have hle : tokens.length + last.rest.length ≤ source.toList.length := hyields.length_le
  rw [String.length_toList] at hle
  rw [hyields.collect_ofString hspent, List.length_append, List.length_map, List.length_singleton]
  omega

end Lexer

/-! ## Repetitions -/

namespace Item

variable {α : Type}

/-- A round of a repetition: it is over where no item starts or where one fails. -/
def round (item : Item α) : List α × ReaderState →
    (List α × ReaderState) ⊕ EStateM.Result SourceError ReaderState (List α)
  | (as, s) =>
    if item.starts s.current.kind then
      match item.read s with
      | .error e after => .inr (.error e after)
      | .ok a after => .inl (as ++ [a], after)
    else .inr (.ok as s)

/-- A repetition that ends: every round that is not the last goes over tokens, none of them the end
of the text, and there are no more rounds than tokens left, and one. -/
structure Terminates (item : Item α) : Prop where
  progress ⦃as others : List α⦄ ⦃s next : ReaderState⦄ :
    item.round (as, s) = .inl (others, next) → ∃ w, w ≠ [] ∧ s.Steps w next
  ends (s : ReaderState) : ∃ n, n ≤ s.remaining + 1 ∧
    Rounds item.round ([], s) n (Reader.many item s)

/-- The items read so far and those still to come make up the result. -/
theorem keeps_round (item : Item α) (s : List α × ReaderState) :
    Keeps (fun s => (Reader.many item >>= fun others => pure (s.1 ++ others)) s.2)
      (fun s => s.2.remaining) s (item.round s) := by
  obtain ⟨as, s⟩ := s
  by_cases hs : item.starts s.current.kind = true
  · cases hread : item.read s with
    | error e after =>
      simp only [round, hs, hread, Keeps, Bind.bind, EStateM.bind, Reader.many_of_starts hs]
      rfl
    | ok a after =>
      simp only [round, hs, hread]
      refine ⟨?_, item.shrinks hs hread⟩
      simp only [Bind.bind, EStateM.bind, Reader.many_of_starts hs, hread]
      cases hmany : Reader.many item after with
      | error e last => rfl
      | ok others last =>
        show EStateM.Result.ok (as ++ a :: others) last = .ok (as ++ [a] ++ others) last
        rw [List.append_cons]
  · simp only [round, hs, Keeps]
    rw [Reader.bind_of_ok (Reader.many_of_not_starts (Bool.eq_false_iff.2 hs)), List.append_nil]
    rfl

/-- A repetition ends if its items start with a token. -/
theorem Terminates.of_reads {item : Item α} {part : Phrase α}
    (hitem : Reader.Reads (item.starts · = true) item.read part Reader.anyFollow)
    (hleads : Reader.Leads item part) : item.Terminates where
  progress as others s next h := by
    by_cases hs : item.starts s.current.kind = true
    · cases hread : item.read s with
      | error e after => simp [round, hs, hread] at h
      | ok a after =>
        obtain ⟨w, hsteps, ha, -⟩ := (hitem.ok_iff hs).1 hread
        obtain ⟨kind, rest, rfl, -⟩ := hleads a w ha
        simp only [round, hs, hread] at h
        cases h
        exact ⟨_, List.cons_ne_nil _ _, hsteps⟩
    · simp [round, hs] at h
  ends s := by
    obtain ⟨n, hn, hrounds⟩ := exists_rounds item.keeps_round ([], s)
    have hstart : (Reader.many item >>= fun others => pure ([] ++ others)) = Reader.many item :=
      bind_pure _
    rw [hstart] at hrounds
    exact ⟨n, hn, hrounds⟩

end Item

/-! ## Runs of the reader -/

/-- There are no more pulls ahead than characters. -/
theorem TokenStream.length_ofCursor_le (cursor : Cursor) :
    (ofCursor cursor).length ≤ cursor.rest.length := by
  rw [ofCursor]
  split
  · cases cursor.next.1 <;> exact Nat.zero_le _
  · next hne =>
    have hlt := Cursor.length_next_lt_of_offset_ne hne
    exact Nat.lt_of_le_of_lt (length_ofCursor_le cursor.next.2) hlt
termination_by cursor.rest.length
decreasing_by exact Cursor.length_next_lt_of_offset_ne ‹_›

namespace ReaderState

/-- A reader has no more tokens left to read than there are characters. -/
private theorem remaining_le_of_faces {cursor : Cursor} {s : ReaderState} (h : cursor.Faces s) :
    s.remaining ≤ cursor.rest.length := by
  obtain ⟨token, after, hnext, rfl⟩ := h
  have hahead := TokenStream.length_ofCursor_le after
  simp only [remaining]
  split
  · obtain ⟨taken, hrest, -⟩ := cursor.next_eq
    rw [hnext] at hrest
    rw [hrest, List.length_append]
    exact Nat.le_trans hahead (Nat.le_add_left _ _)
  · next hk => exact Nat.lt_of_le_of_lt hahead (Cursor.length_next_lt hnext hk)

/-- A run of the reader is no longer than what is left to read. -/
theorem Steps.length_le {s after : ReaderState} {w : List TokenKind} (h : s.Steps w after) :
    w.length + after.remaining ≤ s.remaining := by
  induction h with
  | refl => exact Nat.le_of_eq (Nat.zero_add _)
  | step hk hadvance _ ih =>
    have hlt := (Reader.remaining_advance hadvance).2 hk
    rw [List.length_cons]
    omega

/-- What a call gives, judged by the state it stops at. -/
inductive Halts (last : ReaderState) : Except SourceError Program → Prop
  /-- A program ends with the text. -/
  | program (p : Program) : last.current.kind = .endOfFile → Halts last (.ok p)
  /-- The token under decision is refused. -/
  | refusal (e : ParseError) : e.found = last.current → Halts last (.error (.parse e))
  /-- The next pull fails. -/
  | slip (e : LexError) (after : ReaderState) : Reader.advance last = .error (.lex e) after →
    Halts last (.error (.lex e))

/-- A call goes over finitely many tokens and stops. -/
theorem exists_halts (s : ReaderState) : ∃ w last, s.Steps w last ∧ last.Halts s.read.1 := by
  unfold read
  cases hread : Reader.program s with
  | ok p after =>
    obtain ⟨w, hsteps, -, hend⟩ := (Reader.reads_program.ok_iff trivial).1 hread
    exact ⟨w, after, hsteps, .program p hend⟩
  | error e after =>
    cases e with
    | parse e =>
      obtain ⟨hfound, w, hsteps, -, -⟩ := Reader.reads_program.refused trivial hread
      exact ⟨w, after, hsteps, .refusal e hfound⟩
    | lex e =>
      obtain ⟨w, last, hsteps, hadvance, -⟩ := Reader.reads_program.broken trivial hread
      exact ⟨w, last, hsteps, .slip e after hadvance⟩

end ReaderState

/-- Parsing stops at once if there is no first token, and else after no more tokens than the text
has characters. -/
theorem Program.exists_halts (source : String) :
    (∃ e, ReaderState.ofString source = .error e ∧ parse source = .error (.lex e)) ∨
    ∃ first w last, ReaderState.ofString source = .ok first ∧ first.Steps w last ∧
      w.length ≤ source.length ∧ last.Halts (parse source) := by
  cases hs : ReaderState.ofString source with
  | error e => exact .inl ⟨e, rfl, by rw [parse, hs]⟩
  | ok first =>
    obtain ⟨w, last, hsteps, hhalts⟩ := first.exists_halts
    have hfaces := Cursor.ofString_eq_ok_iff.1 hs
    refine .inr ⟨first, w, last, rfl, hsteps, ?_, ?_⟩
    · calc w.length ≤ first.remaining := Nat.le_of_add_right_le hsteps.length_le
        _ ≤ source.toList.length := ReaderState.remaining_le_of_faces hfaces
        _ = source.length := String.length_toList
    · rwa [parse_of_faces hfaces]

/-! ## Open blocks -/

namespace Grammar

/-- Words that leave no block open: every end of them closes as many blocks as it opens. -/
def Shut (w : List TokenKind) : Prop :=
  ∀ rest, rest <:+ w → rest.count .leftBrace ≤ rest.count .rightBrace

theorem Shut.append {v w : List TokenKind} (hv : Shut v) (hw : Shut w) : Shut (v ++ w) := by
  intro rest hrest
  obtain ⟨before, hbefore⟩ := hrest
  rcases List.append_eq_append_iff.1 hbefore with ⟨u, rfl, rfl⟩ | ⟨u, rfl, rfl⟩
  · have hu := hv u (List.suffix_append _ _)
    have hall := hw w List.suffix_rfl
    rw [List.count_append, List.count_append]
    omega
  · exact hw rest (List.suffix_append _ _)

/-- Words without an opening brace. -/
theorem shut_of_not_mem {w : List TokenKind} (h : TokenKind.leftBrace ∉ w) : Shut w := by
  intro rest hrest
  rw [List.count_eq_zero.2 fun hmem => h (hrest.subset hmem)]
  exact Nat.zero_le _

/-- A block with what stands in it. -/
theorem Shut.block {w : List TokenKind} (h : Shut w) :
    Shut (.leftBrace :: (w ++ [.rightBrace])) := by
  have hclosed : Shut (w ++ [.rightBrace]) := h.append (shut_of_not_mem (by simp))
  intro rest hrest
  rcases List.suffix_cons_iff.1 hrest with rfl | hrest
  · have hinside := h w List.suffix_rfl
    simp only [List.count_cons, List.count_append, List.count_nil]
    simpa using hinside
  · exact hclosed rest hrest

/-- A program shuts its blocks. -/
theorem shut_program : Throughout Shut Program.Derives := by
  refine Inherited.program ⟨?_, fun _ _ => Shut.append, fun _ => Shut.block⟩
  intro w hopen _ _
  exact shut_of_not_mem hopen

end Grammar

/-- A text that leaves a block open is refused. -/
theorem Program.refused_of_not_shut {source : String} {tokens : List Token}
    (htokens : tokenize source = .ok tokens) (h : ¬ Shut (tokens.map Token.kind)) :
    ∃ e, parse source = .error (.parse e) := by
  cases hparse : parse source with
  | ok p =>
    obtain ⟨w, hkinds, hp⟩ := parse_eq_ok_iff.1 hparse
    rw [htokens] at hkinds
    have hshut := (shut_program p w hp).append
      (shut_of_not_mem (by simp) : Shut [TokenKind.endOfFile])
    rw [← Except.ok.inj hkinds] at hshut
    exact absurd hshut h
  | error e =>
    cases e with
    | parse e => exact ⟨e, rfl⟩
    | lex e =>
      obtain ⟨before, last, hyields, hpull, -⟩ := parse_eq_lex_iff.1 hparse
      rw [Cursor.tokenize_eq_error_iff.2 ⟨before, last, hyields, hpull⟩] at htokens
      cases htokens

/-- Lexing and parsing end on every text.  A pull reads a run of characters, which is not empty if
the token is not the end of the text, so that pulling all tokens and iterating over them are over
after no more rounds than characters.  The repetitions of the grammar end from every state of the
reader, since a round that is not the last goes over tokens.  Parsing therefore stops, after no more
tokens than characters; and a text that leaves a block open is refused. -/
theorem reading_ends :
    (∀ lexer : Lexer, ∃ taken, lexer.cursor.rest = taken ++ lexer.nextToken.2.cursor.rest ∧
      lexer.nextToken.2.cursor.position = lexer.cursor.position.past taken ∧
      ∀ token, lexer.nextToken.1 = .ok token → token.kind ≠ .endOfFile →
        lexer.cursor.position.offset < lexer.nextToken.2.cursor.position.offset) ∧
    (∀ lexer : Lexer,
      (∃ n, n ≤ lexer.cursor.rest.length + 1 ∧
        Rounds Lexer.tokensRound ([], lexer) n lexer.tokens) ∧
      ∃ n, n ≤ lexer.remaining + 1 ∧ Rounds Lexer.collectRound ([], lexer) n lexer.collect) ∧
    (∀ source : String,
      (∀ tokens, tokenize source = .ok tokens → tokens.length ≤ source.length + 1) ∧
      (Lexer.ofString source).collect.length ≤ source.length + 1) ∧
    (Reader.declarations.Terminates ∧ Reader.tests.Terminates ∧ Reader.configLines.Terminates ∧
      Reader.statements.Terminates ∧ Reader.headers.Terminates) ∧
    ∀ source : String,
      ((∃ e, ReaderState.ofString source = .error e ∧ Program.parse source = .error (.lex e)) ∨
        ∃ first w last, ReaderState.ofString source = .ok first ∧ first.Steps w last ∧
          w.length ≤ source.length ∧ last.Halts (Program.parse source)) ∧
      ∀ tokens, tokenize source = .ok tokens → ¬ Shut (tokens.map Token.kind) →
        ∃ e, Program.parse source = .error (.parse e) := by
  refine ⟨fun lexer => ?_, fun lexer => ⟨lexer.exists_rounds_tokens, lexer.exists_rounds_collect⟩,
    fun source => ⟨fun _ => Lexer.length_le_of_tokenize, Lexer.length_collect_le source⟩, ?_,
    fun source => ⟨Program.exists_halts source, fun _ => Program.refused_of_not_shut⟩⟩
  · obtain ⟨taken, hrest, hplace⟩ := lexer.cursor.next_eq
    refine ⟨taken, hrest, hplace, fun token hpull hk => ?_⟩
    exact Cursor.offset_lt_of_next (Prod.ext hpull rfl) hk
  · open Reader in
    exact ⟨.of_reads (reads_declaration.mono fun _ h => eq_of_beq h) leads_declarations,
      .of_reads (reads_test.mono fun _ h => eq_of_beq h) leads_tests,
      .of_reads reads_configLine leads_configLines,
      .of_reads (reads_statement.mono fun _ _ => trivial) leads_statements,
      .of_reads (reads_header.mono fun _ h => eq_of_beq h) leads_headers⟩

/-- Two blocks are open where the text ends. -/
theorem reading_ends_openBlocks :
    let source := "test t \x7b GET \"/\" \x7b"
    ∃ tokens, tokenize source = .ok tokens ∧ ¬ Shut (tokens.map Token.kind) ∧
      ∃ e, Program.parse source = .error (.parse e) := by
  intro source
  let kinds : List TokenKind :=
    [.keyword .test, .identifier "t", .leftBrace, .keyword (.method .get), .string "/", .leftBrace,
      .endOfFile]
  have hkinds : (tokenize source).map (List.map Token.kind) = .ok kinds := by
    simp only [source, kinds]
    set_option maxRecDepth 2000 in with_unfolding_all rfl
  have hopen : ¬ Shut kinds := fun h => absurd (h kinds List.suffix_rfl) (by decide)
  cases htokens : tokenize source with
  | error e =>
    rw [htokens] at hkinds
    cases hkinds
  | ok tokens =>
    rw [htokens] at hkinds
    rw [← show tokens.map Token.kind = kinds from Except.ok.inj hkinds] at hopen
    exact ⟨tokens, rfl, hopen, (reading_ends.2.2.2.2 source).2 tokens htokens hopen⟩

end HttpSuite
