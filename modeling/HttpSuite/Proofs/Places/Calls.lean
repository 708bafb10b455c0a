import HttpSuite.Proofs.Calls
import HttpSuite.Proofs.LexicalGrammar

/-!
# Places behind calls

A lexer keeps its place in three units while it reads, and it reads in many ways: over gaps, words,
numbers and strings, and up to the spot where a string goes wrong.  Whatever was called before, the
place is the one that is counted from the text read so far.  In particular it lies between two
characters, so the source can be cut there.

Line ends are met in gaps only, since no lexeme holds one, not even a malformed one.  So a token
starts and ends on the same line, and tokens stand one behind the other.

## Main definitions

* `Cursor.Behind`: the cursor stands right behind a text, and its place is counted from it.
* `Token.Covers`: the token is a lexeme of the source, and its span is counted from the text before.
* `Laid`: tokens stand in the source between two offsets, one behind the other.

## Main results

* `Lexeme.lineFeed_not_mem_taken`: no lexeme holds a line end.
* `Cursor.Behind.next`: one pull keeps the place and covers a lexeme.
* `Cursor.Pulls.laid`: what a run of pulls does to the place, and where its tokens stand.
* `Lexer.answers_placed`: the same behind all calls.
-/

namespace HttpSuite

open Text Lexical

/-! ## Lexemes stay on their line -/

theorem Quotation.lineFeed_not_mem_taken (text : List Char) :
    '\n' ∉ (Quotation.read text).taken := by
  fun_induction Quotation.read text with
  | case3 letter text c hletter ih =>
    have hne : '\n' ≠ letter := by
      rintro rfl
      have hnone : unescape? '\n' = none := by decide
      rw [hnone] at hletter
      cases hletter
    simpa [hne] using ih
  | case8 c text _ _ _ hline ih => simpa [Ne.symm hline] using ih
  | _ => simp [taken]

theorem lineFeed_not_mem_takeWhile (text : List Char) :
    '\n' ∉ text.takeWhile isWordPart := by
  intro hmem
  exact absurd (List.mem_takeWhile_imp hmem) (by decide)

/-- Not even a malformed lexeme holds a line end. -/
theorem Lexeme.lineFeed_not_mem_taken (text : List Char) : '\n' ∉ (Lexeme.read text).taken := by
  cases text with
  | nil => exact List.not_mem_nil
  | cons c text =>
    rw [Lexeme.read]
    split_ifs with hopen hclose hsemicolon hequals
    · simp [hopen]
    · simp [hclose]
    · simp [hsemicolon]
    · simp [hequals]
    · simpa [readString] using Quotation.lineFeed_not_mem_taken text
    · exact lineFeed_not_mem_takeWhile _
    · exact lineFeed_not_mem_takeWhile _
    · exact List.not_mem_nil

/-- Only the end of the text is read as the end of the text. -/
theorem Lexeme.eq_nil_of_read {text : List Char}
    (h : (Lexeme.read text).result = .ok .endOfFile) : text = [] := by
  cases text with
  | nil => rfl
  | cons c text => exact absurd rfl (spells_of_read h).1.ne_endOfFile

/-! ## One pull -/

/-- The end of the text is pulled where nothing but a gap is left. -/
theorem Cursor.skipGap_of_end {cursor after : Cursor} {token : Token}
    (h : cursor.next = (.ok token, after)) (hend : token.kind = .endOfFile) :
    cursor.skipGap.rest = [] := by
  simp only [Cursor.next, Prod.mk.injEq] at h
  obtain ⟨hpull, -⟩ := h
  split at hpull
  · next kind hread =>
    cases hpull
    exact Lexeme.eq_nil_of_read (hread.trans (by rw [← hend]))
  · cases hpull

/-- Behind the end of the text it is pulled again. -/
theorem Cursor.next_behind_end {cursor after : Cursor} {token : Token}
    (h : cursor.next = (.ok token, after)) (hend : token.kind = .endOfFile) :
    after.next = (.ok token, after) := by
  have hnil := skipGap_of_end h hend
  simp only [Cursor.next, hnil, Lexeme.read, Position.past_nil, Prod.mk.injEq,
    Except.ok.injEq] at h
  obtain ⟨rfl, rfl⟩ := h
  rfl

/-- The cursor stands in the source right behind `before`, and its place is the one counted from
there. -/
structure Cursor.Behind (source : String) (before : List Char) (cursor : Cursor) : Prop where
  text : source.toList = before ++ cursor.rest
  place : cursor.position = Position.ofText before

/-- The token is the text `lexeme` that stands in the source behind `before`, on one line, with the
span counted from there; and the end of the text stands behind all of it. -/
structure Token.Covers (source : String) (before lexeme : List Char) (token : Token) : Prop where
  text : before ++ lexeme <+: source.toList
  span : token.span = spanOf before lexeme
  oneLine : '\n' ∉ lexeme
  final : token.kind = .endOfFile → before = source.toList ∧ lexeme = []

theorem Token.Covers.start_le_stop {source : String} {before lexeme : List Char} {token : Token}
    (h : token.Covers source before lexeme) : token.span.start ≤ token.span.stop := by
  rw [h.span]
  show Position.byteCount before ≤ Position.byteCount (before ++ lexeme)
  rw [Position.byteCount_append]
  omega

theorem Token.Covers.span_of_endOfFile {source : String} {before lexeme : List Char} {token : Token}
    (h : token.Covers source before lexeme) (hend : token.kind = .endOfFile) :
    token.span.start = source.utf8ByteSize ∧ token.span.stop = source.utf8ByteSize := by
  obtain ⟨rfl, rfl⟩ := h.final hend
  rw [h.span]
  show Position.byteCount source.toList = _ ∧ Position.byteCount (source.toList ++ []) = _
  rw [List.append_nil, Position.byteCount_toList]
  exact ⟨rfl, rfl⟩

namespace Cursor

variable {source : String} {before : List Char} {cursor : Cursor}

theorem behind_start (source : String) : (Cursor.ofString source).Behind source [] := ⟨rfl, rfl⟩

/-- The source can be cut at the place. -/
theorem Behind.isValid (h : cursor.Behind source before) :
    String.Pos.Raw.IsValid source ⟨cursor.position.offset⟩ := by
  refine String.Pos.Raw.isValid_iff_exists_append.2
    ⟨String.ofList before, String.ofList cursor.rest, ?_, ?_⟩
  · rw [← String.ofList_append, ← h.text, String.ofList_toList]
  · rw [h.place]
    rfl

/-- A pull goes on behind a gap and a lexeme, and a token that it yields covers the lexeme. -/
theorem Behind.next (h : cursor.Behind source before) :
    ∃ gap lexeme, cursor.next.2.Behind source (before ++ gap ++ lexeme) ∧
      ∀ token, cursor.next.1 = .ok token → token.Covers source (before ++ gap) lexeme := by
  obtain ⟨gap, hrest, hplace⟩ := cursor.skipGap_eq
  rw [h.place, Position.past_ofText] at hplace
  have hread := Lexeme.taken_append_rest cursor.skipGap.rest
  have htext : source.toList = before ++ gap ++ cursor.skipGap.rest := by
    rw [h.text, hrest, List.append_assoc]
  refine ⟨gap, (Lexeme.read cursor.skipGap.rest).taken, ⟨?_, ?_⟩, fun token hpull => ?_⟩
  · rw [htext, List.append_assoc _ _ cursor.next.2.rest]
    exact congrArg (before ++ gap ++ ·) hread.symm
  · show cursor.skipGap.position.past _ = _
    rw [hplace, Position.past_ofText]
  · simp only [Cursor.next, hplace, Position.past_ofText] at hpull
    split at hpull
    · next kind hkind =>
      cases hpull
      refine ⟨?_, rfl, Lexeme.lineFeed_not_mem_taken _, fun hend => ?_⟩
      · refine ⟨(Lexeme.read cursor.skipGap.rest).rest, ?_⟩
        rw [htext, List.append_assoc, hread]
      · have hnil : cursor.skipGap.rest = [] := Lexeme.eq_nil_of_read (hkind.trans (by rw [← hend]))
        rw [htext, hnil, List.append_nil]
        exact ⟨rfl, rfl⟩
    · cases hpull

end Cursor

/-! ## Runs of pulls -/

/-- The tokens stand in the source between two offsets, one behind the other. -/
structure Laid (source : String) (first last : Nat) (tokens : List Token) : Prop where
  covers : ∀ token ∈ tokens, ∃ before lexeme, token.Covers source before lexeme
  within : ∀ token ∈ tokens, first ≤ token.span.start ∧ token.span.stop ≤ last
  ordered : tokens.Pairwise fun earlier later => earlier.span.stop ≤ later.span.start

namespace Laid

variable {source : String} {first middle last : Nat} {tokens those : List Token}

theorem nil : Laid source first last [] :=
  ⟨List.forall_mem_nil _, List.forall_mem_nil _, .nil⟩

theorem single {token : Token} {before lexeme : List Char}
    (h : token.Covers source before lexeme) (hfirst : first ≤ token.span.start)
    (hlast : token.span.stop ≤ last) : Laid source first last [token] :=
  ⟨List.forall_mem_singleton.2 ⟨before, lexeme, h⟩, List.forall_mem_singleton.2 ⟨hfirst, hlast⟩,
    List.pairwise_singleton _ _⟩

theorem sublist (h : Laid source first last tokens) (hsublist : those.Sublist tokens) :
    Laid source first last those :=
  ⟨fun token hmem => h.covers token (hsublist.subset hmem),
    fun token hmem => h.within token (hsublist.subset hmem), h.ordered.sublist hsublist⟩

/-- Tokens up to an offset, and tokens from there on. -/
theorem append (h : Laid source first middle tokens) (h' : Laid source middle last those)
    (hfirst : first ≤ middle) (hlast : middle ≤ last) :
    Laid source first last (tokens ++ those) := by
  refine ⟨List.forall_mem_append.2 ⟨h.covers, h'.covers⟩,
    List.forall_mem_append.2 ⟨fun token hmem => ?_, fun token hmem => ?_⟩,
    List.pairwise_append.2 ⟨h.ordered, h'.ordered, fun earlier he later hl => ?_⟩⟩
  · have hwithin := h.within token hmem
    omega
  · have hwithin := h'.within token hmem
    omega
  · have hearlier := h.within earlier he
    have hlater := h'.within later hl
    omega

end Laid

namespace Cursor

variable {source : String} {before : List Char} {cursor last : Cursor}

/-- One pull moves the place forward, over the token that it yields. -/
theorem Behind.laid_next (h : cursor.Behind source before) :
    cursor.position.offset ≤ cursor.next.2.position.offset ∧
      Laid source cursor.position.offset cursor.next.2.position.offset
        (pulledTokens [cursor.next.1]) := by
  obtain ⟨gap, lexeme, hafter, hcovers⟩ := h.next
  have hgap := Position.byteCount_append before gap
  have hlexeme := Position.byteCount_append (before ++ gap) lexeme
  have hfrom : cursor.position.offset = Position.byteCount before := by rw [h.place]; rfl
  have hto : cursor.next.2.position.offset = Position.byteCount (before ++ gap ++ lexeme) := by
    rw [hafter.place]
    rfl
  refine ⟨by omega, ?_⟩
  cases hpull : cursor.next.1 with
  | error e => exact .nil
  | ok token =>
    have hcovers := hcovers token hpull
    have hstart : token.span.start = Position.byteCount (before ++ gap) := by rw [hcovers.span]; rfl
    have hstop : token.span.stop = Position.byteCount (before ++ gap ++ lexeme) := by
      rw [hcovers.span]
      rfl
    exact .single hcovers (by omega) (by omega)

/-- A run of pulls keeps the place and moves it forward, and its tokens stand in between. -/
theorem Pulls.laid {pulls : List Pull} (h : Pulls cursor pulls last)
    (hbefore : cursor.Behind source before) :
    (∃ after, last.Behind source after) ∧ cursor.position.offset ≤ last.position.offset ∧
      Laid source cursor.position.offset last.position.offset (pulledTokens pulls) := by
  induction h generalizing before with
  | refl cursor => exact ⟨⟨before, hbefore⟩, Nat.le_refl _, .nil⟩
  | @pull cursor last pulls _ ih =>
    obtain ⟨gap, lexeme, hafter, -⟩ := hbefore.next
    obtain ⟨hle, hlaid⟩ := hbefore.laid_next
    obtain ⟨hlast, hle', hlaid'⟩ := ih hafter
    refine ⟨hlast, Nat.le_trans hle hle', ?_⟩
    have hboth := hlaid.append hlaid' hle hle'
    rwa [← pulledTokens_append] at hboth

end Cursor

namespace Lexer

/-- Whatever was called before: the place of a lexer is counted from the text that it has read, the
source can be cut there, and no call moves it back; and the tokens that were answered are lexemes on
one line, each with the span counted from the text before it, none reaching into a later one. -/
theorem answers_placed (source : String) (calls : List Call) :
    let lexer := ((Lexer.ofString source).answers calls).2
    let tokens := ((Lexer.ofString source).answers calls).1.flatMap Answer.tokens
    (∃ before, lexer.cursor.Behind source before) ∧
    String.Pos.Raw.IsValid source ⟨lexer.cursor.position.offset⟩ ∧
    (∀ call, lexer.cursor.position.offset ≤ (lexer.answer call).2.cursor.position.offset ∧
      ∀ token ∈ (lexer.answer call).1.tokens, lexer.cursor.position.offset ≤ token.span.start) ∧
    (∀ token ∈ tokens, token.span.start ≤ token.span.stop ∧
      (∃ before lexeme, token.Covers source before lexeme) ∧
      (token.kind = .endOfFile →
        token.span.start = source.utf8ByteSize ∧ token.span.stop = source.utf8ByteSize)) ∧
    tokens.Pairwise fun earlier later => earlier.span.stop ≤ later.span.start := by
  intro lexer tokens
  obtain ⟨pulls, hpulls, hsublist⟩ := (Lexer.ofString source).answers_pulls calls
  obtain ⟨⟨before, hbefore⟩, -, hlaid⟩ := hpulls.laid (Cursor.behind_start source)
  have htokens := hlaid.sublist hsublist
  refine ⟨⟨before, hbefore⟩, hbefore.isValid, fun call => ?_, fun token hmem => ?_, htokens.ordered⟩
  · obtain ⟨more, hreports, hmore⟩ := lexer.answer_reports call
    obtain ⟨-, hle, hlaid'⟩ := hmore.laid hbefore
    exact ⟨hle, fun token hmem => (hlaid'.within token (hreports.tokens_sublist.subset hmem)).1⟩
  · obtain ⟨text, lexeme, hcovers⟩ := htokens.covers token hmem
    exact ⟨hcovers.start_le_stop, ⟨text, lexeme, hcovers⟩, hcovers.span_of_endOfFile⟩

end Lexer

end HttpSuite
