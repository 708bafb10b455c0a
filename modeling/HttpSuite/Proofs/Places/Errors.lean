import HttpSuite.Proofs.Places.Calls

/-!
# Errors quote the source

A lexical error names a place and quotes a text.  A malformed number, an unterminated string and a
character that starts nothing are pointed at where they start, and quoted as far as they were read;
an unknown escape is pointed at inside its string, at the backslash, and its quotation is put
together anew from the backslash and the letter behind it.  In each case the quoted text is what
the source holds at the place.

This is a property of one lexeme, and of the text behind which it stands.  The place of a cursor is
counted from the text that was read, whatever was called before, so it holds behind all calls.

## Main definitions

* `LexError.Quotes`: the error is about a text that stands in the source behind another.
* `Lexer.Answer.error?`: the error that an answer reports.

## Main results

* `Lexeme.prefix_of_read_eq_error`: a malformed lexeme holds the quoted text.
* `Cursor.Behind.quotes_next`: a pull that fails quotes the source.
* `Lexer.error_quotes_source`: the same behind all calls.
-/

namespace HttpSuite

/-! ## Malformed lexemes -/

theorem Quotation.push_eq_unknownEscape {c d : Char} {written lead left : List Char}
    {q : Quotation} (h : q.push c written = unknownEscape d lead left) :
    ∃ lead', q = unknownEscape d lead' left := by
  cases q with
  | closed => cases h
  | unterminated => cases h
  | unknownEscape _ lead' _ =>
    cases h
    exact ⟨lead', rfl⟩

/-- Behind the backslash of an unknown escape stands its letter. -/
private theorem Quotation.left_of_unknownEscape {text lead left : List Char} {c : Char}
    (h : read text = unknownEscape c lead left) : ∃ tail, left = c :: tail := by
  fun_induction read text generalizing lead with
  | case3 letter text d hletter ih =>
    obtain ⟨lead', hread⟩ := push_eq_unknownEscape h
    exact ih hread
  | case5 letter text =>
    cases h
    exact ⟨text, rfl⟩
  | case8 d text _ _ _ _ ih =>
    obtain ⟨lead', hread⟩ := push_eq_unknownEscape h
    exact ih hread
  | _ => cases h

namespace Lexeme

/-- A run that is no number is quoted as a whole. -/
private theorem text_of_numberOf_eq_error {run : List Char} {cause : LexError.Cause}
    (h : numberOf run = .error cause) : cause.text = String.ofList run := by
  simp only [numberOf] at h
  split_ifs at h
  · cases h
    rfl
  · cases h
    rfl

/-- The quoted text of a malformed string stands at the place that is pointed at. -/
private theorem prefix_of_readString_eq_error {text lead : List Char} {cause : LexError.Cause}
    (h : (readString text).result = .error (lead, cause)) :
    cause.text ≠ "" ∧ lead ++ cause.text.toList <+: '"' :: text := by
  have hsplit := Quotation.taken_append_rest text
  unfold readString at h
  cases hread : Quotation.read text with
  | closed content taken left =>
    rw [hread] at h
    cases h
  | unterminated taken left =>
    rw [hread] at h hsplit
    cases h
    refine ⟨by simp [LexError.Cause.text], left, ?_⟩
    rw [LexError.Cause.text, String.toList_ofList, ← hsplit]
    rfl
  | unknownEscape c before left =>
    obtain ⟨tail, rfl⟩ := Quotation.left_of_unknownEscape hread
    rw [hread] at h hsplit
    cases h
    refine ⟨by simp [LexError.Cause.text], tail, ?_⟩
    rw [← hsplit]
    simp [LexError.Cause.text, Quotation.taken, Quotation.rest]

/-- A malformed number is quoted from its start. -/
private theorem prefix_of_readNumber_eq_error {c : Char} {text lead : List Char}
    {cause : LexError.Cause} (hdigit : c.isDigit = true)
    (h : (readNumber (c :: text)).result = .error (lead, cause)) :
    cause.text ≠ "" ∧ lead ++ cause.text.toList <+: c :: text := by
  have hrun : (c :: text).takeWhile Text.isWordPart ≠ [] := by
    simp [isWordPart_of_isDigit hdigit]
  simp only [readNumber] at h
  cases hnumber : numberOf ((c :: text).takeWhile Text.isWordPart) with
  | ok kind =>
    rw [hnumber] at h
    cases h
  | error cause' =>
    rw [hnumber] at h
    cases h
    rw [text_of_numberOf_eq_error hnumber, List.nil_append, String.toList_ofList]
    exact ⟨by simpa using hrun, List.takeWhile_prefix _⟩

/-- The quoted text of a malformed lexeme stands at the place that is pointed at. -/
theorem prefix_of_read_eq_error {text lead : List Char} {cause : LexError.Cause}
    (h : (read text).result = .error (lead, cause)) :
    cause.text ≠ "" ∧ lead ++ cause.text.toList <+: text := by
  cases text with
  | nil => cases h
  | cons c text =>
    rw [read] at h
    split_ifs at h with _ _ _ _ hquote hdigit
    · subst hquote
      exact prefix_of_readString_eq_error h
    · exact prefix_of_readNumber_eq_error hdigit h
    · cases h
    · cases h
      exact ⟨by simp [LexError.Cause.text], by simp [LexError.Cause.text]⟩

end Lexeme

/-! ## One pull -/

/-- The text that the error quotes is not empty and stands in the source right behind `before`, and
the line and the column are counted from there. -/
structure LexError.Quotes (source : String) (before : List Char) (e : LexError) : Prop where
  stands : before ++ e.text.toList <+: source.toList
  nonempty : e.text ≠ ""
  line : e.line = (Position.ofText before).line
  column : e.column = (Position.ofText before).column

namespace Cursor

/-- A pull that fails quotes the source somewhere behind the cursor. -/
theorem Behind.quotes_next {source : String} {before : List Char} {cursor : Cursor} {e : LexError}
    (h : cursor.Behind source before) (hpull : cursor.next.1 = .error e) :
    ∃ skipped, e.Quotes source (before ++ skipped) := by
  obtain ⟨gap, hrest, hplace⟩ := cursor.skipGap_eq
  rw [h.place, Position.past_ofText] at hplace
  simp only [Cursor.next, hplace, Position.past_ofText] at hpull
  split at hpull
  · cases hpull
  · next lead cause hread =>
    cases hpull
    obtain ⟨hne, hprefix⟩ := Lexeme.prefix_of_read_eq_error hread
    refine ⟨gap ++ lead, ?_, hne, by rw [← List.append_assoc], by rw [← List.append_assoc]⟩
    rw [h.text, hrest, List.append_assoc, List.append_assoc, List.prefix_append_right_inj,
      List.prefix_append_right_inj]
    exact hprefix

/-- The last pull of a run, and the run before it. -/
private theorem Pulls.exists_last {cursor last : Cursor} {pulls : List Pull} {pull : Pull}
    (h : Pulls cursor (pulls ++ [pull]) last) :
    ∃ middle, Pulls cursor pulls middle ∧ middle.next.1 = pull := by
  induction pulls generalizing cursor with
  | nil =>
    cases h
    exact ⟨cursor, .refl cursor, rfl⟩
  | cons first pulls ih =>
    cases h with
    | pull hmore =>
      obtain ⟨middle, hpulls, hpull⟩ := ih hmore
      exact ⟨middle, .pull hpulls, hpull⟩

end Cursor

/-! ## All calls -/

namespace Lexer

/-- The error that an answer reports, if it reports one. -/
def Answer.error? : Answer → Option LexError
  | token (.error e) | item (some (.error e)) | all (.error e) => some e
  | _ => none

/-- The error of an answer is the outcome of the last pull. -/
private theorem Answer.Reports.exists_error {answer : Answer} {pulls : List Pull} {e : LexError}
    (h : answer.Reports pulls) (he : answer.error? = some e) :
    ∃ before, pulls = before ++ [.error e] := by
  cases h with
  | token pull | item pull =>
    cases pull with
    | ok token => cases he
    | error e' =>
      cases he
      exact ⟨[], rfl⟩
  | nothing => cases he
  | all tokens => cases he
  | failure before e' =>
    cases he
    exact ⟨_, rfl⟩

/-- Whatever was called before, also behind earlier errors: an error points at a place that no
token reaches beyond that was answered before, and quotes the text that the source holds there. -/
theorem error_quotes_source (source : String) (calls : List Call) (call : Call) (e : LexError)
    (h : (((Lexer.ofString source).answers calls).2.answer call).1.error? = some e) :
    ∃ before, e.Quotes source before ∧
      ∀ token ∈ ((Lexer.ofString source).answers calls).1.flatMap Answer.tokens,
        token.span.stop ≤ (Position.ofText before).offset := by
  obtain ⟨earlier, hearlier, hsublist⟩ := (Lexer.ofString source).answers_pulls calls
  obtain ⟨⟨first, hfirst⟩, -, hlaid⟩ := hearlier.laid (Cursor.behind_start source)
  obtain ⟨pulls, hreports, hpulls⟩ := ((Lexer.ofString source).answers calls).2.answer_reports call
  obtain ⟨others, rfl⟩ := hreports.exists_error h
  obtain ⟨middle, hothers, hpull⟩ := hpulls.exists_last
  obtain ⟨⟨before, hbefore⟩, hle, -⟩ := hothers.laid hfirst
  obtain ⟨skipped, hquotes⟩ := hbefore.quotes_next hpull
  refine ⟨before ++ skipped, hquotes, fun token hmem => ?_⟩
  have hstop := (hlaid.within token (hsublist.subset hmem)).2
  have hplace : middle.position.offset = Position.byteCount before := by rw [hbefore.place]; rfl
  show token.span.stop ≤ Position.byteCount (before ++ skipped)
  rw [Position.byteCount_append]
  omega

/-- Behind a word on the first line and an unknown escape on the second, all tokens are asked for. -/
theorem error_quotes_source_resumed :
    let source := "a\n\"\u00fc\\q\n 12x"
    let earlier := (Lexer.ofString source).answers [.next, .nextToken]
    let e : LexError := ⟨.digitLedWord "12x", 3, 2⟩
    earlier.1.map Answer.error? = [none, some ⟨.unknownEscape 'q', 2, 3⟩] ∧
      (earlier.2.answer .tokens).1.error? = some e ∧
      ∃ before, e.Quotes source before ∧ ∀ token ∈ earlier.1.flatMap Answer.tokens,
        token.span.stop ≤ (Position.ofText before).offset := by
  intro source earlier e
  have herrors : earlier.1.map Answer.error? = [none, some ⟨.unknownEscape 'q', 2, 3⟩] := by
    simp only [earlier, source]
    set_option maxRecDepth 2000 in with_unfolding_all rfl
  have he : (earlier.2.answer .tokens).1.error? = some e := by
    simp only [earlier, source, e]
    set_option maxRecDepth 2000 in with_unfolding_all rfl
  exact ⟨herrors, he, error_quotes_source source [.next, .nextToken] .tokens e he⟩

end Lexer

end HttpSuite
