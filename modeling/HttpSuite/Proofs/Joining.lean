import HttpSuite.Proofs.Places.Calls
import HttpSuite.Proofs.Places.Twins

/-!
# Texts joined by a line end

Nothing is read across a line end.  A comment ends before it, a word or a number ends there, and a
string that is still open there is unterminated, as it would be at the end of the text; a lone slash
and a backslash without a letter stay what they are.  So a text in front of a line end is read as it
is read alone, up to its end, where nothing but blanks and a comment are left; and behind the line
end reading starts anew, some bytes and lines further down.

## Main definitions

* `Cursor.extend`: the cursor with more text behind.
* `Position.lower`, `Token.lower`, `LexError.lower`: further down in a text.

## Main results

* `Lexeme.read_line`: a lexeme in front of a line end.
* `Cursor.Yields.extend`: the tokens in front of a line end.
* `Cursor.tokens_lower`: the tokens of a text that starts further down.
* `tokenize_join`: the tokens of two texts that are joined by a line end.
-/

namespace HttpSuite

open Text

/-! ## Lexemes in front of a line end -/

/-- The quotation when more text is left behind it. -/
def Quotation.leaving (more : List Char) : Quotation → Quotation
  | closed content taken rest => closed content taken (rest ++ more)
  | unterminated taken rest => unterminated taken (rest ++ more)
  | unknownEscape c lead rest => unknownEscape c lead (rest ++ more)

theorem Quotation.leaving_push (c : Char) (written more : List Char) (q : Quotation) :
    (q.push c written).leaving more = (q.leaving more).push c written := by
  cases q <;> rfl

/-- A line end behind a quotation is as good as the end of the text. -/
theorem Quotation.read_line (text tail : List Char) :
    read (text ++ '\n' :: tail) = (read text).leaving ('\n' :: tail) := by
  have hescape : unescape? '\n' = none := by decide
  fun_induction read text with
  | case1 => rfl
  | case2 => simp [read, hescape, leaving]
  | case3 letter text c hletter ih =>
    simp only [List.cons_append, read, hletter, ih, leaving_push]
  | case4 text hletter => simp [read, hescape, leaving]
  | case5 letter text hletter hline => simp [read, hletter, hline, leaving]
  | case6 text => rfl
  | case7 text => rfl
  | case8 c text hend hescaped hquote hline ih =>
    have hbackslash : c ≠ '\\' := by
      intro hc
      cases text with
      | nil => exact hend hc rfl
      | cons letter text => exact hescaped letter text hc rfl
    rw [List.cons_append, read_cons _ hbackslash hquote hline, ih, leaving_push]

/-- A lexeme in front of a line end is read as it is at the end of the text. -/
theorem Lexeme.read_line {text : List Char} (hne : text ≠ []) (tail : List Char) :
    read (text ++ '\n' :: tail) =
      ⟨(read text).result, (read text).taken, (read text).rest ++ '\n' :: tail⟩ := by
  have hparted : Parted text ('\n' :: tail) := .inr (by rfl)
  obtain ⟨c, text, rfl⟩ := List.exists_cons_of_ne_nil hne
  obtain ⟨htake, hdrop⟩ := hparted.span_eq hne
  rw [List.cons_append] at htake hdrop ⊢
  rcases read_cons_cases c with ⟨mark, -, hread⟩ | hread | ⟨-, hread⟩ | ⟨-, hread⟩ | hread
  · rw [hread, hread]
  · rw [hread, hread, readString, readString, Quotation.read_line]
    cases Quotation.read text <;> rfl
  · simp only [hread, readNumber, htake, hdrop]
  · simp only [hread, readWord, htake, hdrop]
  · rw [hread, hread]
    rfl

namespace Cursor

/-! ## Pulls in front of a line end -/

/-- The cursor with more text behind the rest. -/
def extend (cursor : Cursor) (more : List Char) : Cursor := ⟨cursor.position, cursor.rest ++ more⟩

/-- A gap ends before the line end, or it is all that is left and goes on behind the line end. -/
private theorem skipGapFrom_line (inComment : Bool) (p : Position) (text tail : List Char) :
    skipGapFrom inComment p (text ++ '\n' :: tail) =
      if (skipGapFrom inComment p text).rest = [] then
        skipGapFrom false ((p.past text).advance '\n') tail
      else (skipGapFrom inComment p text).extend ('\n' :: tail) := by
  induction text generalizing inComment p with
  | nil => cases inComment <;> rfl
  | cons c text ih =>
    have hslash : (text ++ '\n' :: tail).head? = some '/' ↔ text.head? = some '/' := by
      cases text <;> simp
    rw [List.cons_append, skipGapFrom, skipGapFrom]
    simp only [Bool.and_eq_true, beq_iff_eq, hslash]
    by_cases hcomment : inComment = true
    · rw [if_pos hcomment, if_pos hcomment]
      exact ih _ _
    by_cases hblank : isGapChar c = true
    · rw [if_neg hcomment, if_neg hcomment, if_pos hblank, if_pos hblank]
      exact ih _ _
    by_cases hopen : c = '/' ∧ text.head? = some '/'
    · rw [if_neg hcomment, if_neg hcomment, if_neg hblank, if_neg hblank, if_pos hopen,
        if_pos hopen]
      exact ih _ _
    · rw [if_neg hcomment, if_neg hcomment, if_neg hblank, if_neg hblank, if_neg hopen,
        if_neg hopen, if_neg (List.cons_ne_nil c text)]
      rfl

theorem skipGap_line (cursor : Cursor) (tail : List Char) :
    (cursor.extend ('\n' :: tail)).skipGap =
      if cursor.skipGap.rest = [] then
        skipGap ⟨(cursor.position.past cursor.rest).advance '\n', tail⟩
      else cursor.skipGap.extend ('\n' :: tail) :=
  skipGapFrom_line _ _ _ _

/-- Where nothing but a gap is left, the end of the text is pulled. -/
private theorem exists_end_of_skipGap {cursor : Cursor} (h : cursor.skipGap.rest = []) :
    ∃ span, cursor.next.1 = .ok ⟨.endOfFile, span⟩ := by
  simp only [next, h, Lexeme.read]
  exact ⟨_, rfl⟩

/-- A pull of anything but the end of the text is the same in front of a line end. -/
theorem next_extend {cursor : Cursor} (h : ∀ span, cursor.next.1 ≠ .ok ⟨.endOfFile, span⟩)
    (tail : List Char) : (cursor.extend ('\n' :: tail)).next =
      (cursor.next.1, cursor.next.2.extend ('\n' :: tail)) := by
  have hne : cursor.skipGap.rest ≠ [] := by
    intro hnil
    obtain ⟨span, hspan⟩ := exists_end_of_skipGap hnil
    exact h span hspan
  have hread := Lexeme.read_line hne tail
  have hskip := skipGap_line cursor tail
  rw [if_neg hne] at hskip
  rw [next, hskip]
  simp only [extend, hread]
  rfl

/-- Instead of the end of the text, what stands behind the line end is pulled. -/
private theorem next_extend_of_end {cursor after : Cursor} {token : Token}
    (h : cursor.next = (.ok token, after)) (hend : token.kind = .endOfFile) (tail : List Char) :
    (cursor.extend ('\n' :: tail)).next =
      Cursor.next ⟨(cursor.position.past cursor.rest).advance '\n', tail⟩ := by
  rw [next, skipGap_line, if_pos (skipGap_of_end h hend)]
  rfl

/-- A text in front of a line end yields the tokens that it yields alone. -/
theorem Yields.extend {cursor last : Cursor} {tokens : List Token} (h : Yields cursor tokens last)
    (tail : List Char) :
    Yields (cursor.extend ('\n' :: tail)) tokens (last.extend ('\n' :: tail)) := by
  induction h with
  | refl cursor => exact .refl _
  | @pull cursor after last token tokens hnext hne _ ih =>
    refine .pull ?_ hne ih
    rw [next_extend, hnext]
    intro span hspan
    rw [hnext] at hspan
    cases hspan
    exact hne rfl

/-- Pulling tokens does not move the end of the text. -/
private theorem Yields.past_rest {cursor last : Cursor} {tokens : List Token}
    (h : Yields cursor tokens last) :
    last.position.past last.rest = cursor.position.past cursor.rest := by
  induction h with
  | refl => rfl
  | @pull cursor after last token tokens hnext hne _ ih =>
    obtain ⟨taken, hrest, hplace⟩ := cursor.next_eq
    rw [hnext] at hrest hplace
    rw [ih, hrest, Position.past_append, ← hplace]

end Cursor

/-! ## Further down -/

/-- The place some bytes and lines further down, in the same column. -/
def Position.lower (bytes lines : Nat) (p : Position) : Position :=
  ⟨p.offset + bytes, p.line + lines, p.column⟩

/-- The token some bytes and lines further down, in the same column. -/
def Token.lower (bytes lines : Nat) (token : Token) : Token where
  kind := token.kind
  span :=
    { start := token.span.start + bytes
      stop := token.span.stop + bytes
      line := token.span.line + lines
      column := token.span.column }

/-- The error some lines further down, in the same column. -/
def LexError.lower (lines : Nat) (e : LexError) : LexError := { e with line := e.line + lines }

private theorem Position.kept_lower (bytes lines : Nat) :
    Position.Kept fun p q => q = p.lower bytes lines := by
  rintro p _ rfl c
  simp only [advance, lower, Position.mk.injEq, and_true]
  exact ⟨by omega, by split <;> omega⟩

private theorem TwinPulls.eq_lower {bytes lines : Nat} {pull pull' : Pull}
    (h : TwinPulls (fun p q => q = p.lower bytes lines) pull pull') :
    pull' = (pull.mapError (·.lower lines)).map (·.lower bytes lines) := by
  cases h with
  | token kind hstart hstop =>
    subst hstart hstop
    rfl
  | error cause hplace =>
    subst hplace
    rfl

namespace Cursor

/-- A text that starts further down is tokenized to the same tokens further down. -/
theorem tokens_lower {bytes lines : Nat} {first second : Cursor}
    (h : Twins (fun p q => q = p.lower bytes lines) first second) :
    second.tokens.1 =
      (first.tokens.1.mapError (·.lower lines)).map (List.map (·.lower bytes lines)) :=
  h.tokens_eq (Position.kept_lower bytes lines) (fun _ => rfl) fun _ _ => TwinPulls.eq_lower

/-- What is tokenized depends on the next pull only. -/
theorem tokens_congr {first second : Cursor} (h : first.next = second.next) :
    first.tokens = second.tokens := by
  cases hnext : second.next with
  | mk pull after =>
    cases pull with
    | error e => rw [tokens_of_error hnext, tokens_of_error (h.trans hnext)]
    | ok token => rw [tokens_of_ok hnext, tokens_of_ok (h.trans hnext)]

end Cursor

/-! ## Two texts -/

open Cursor

theorem ofString_join (a b : String) :
    Cursor.ofString (a ++ "\n" ++ b) = (Cursor.ofString a).extend ('\n' :: b.toList) := by
  simp [Cursor.ofString, extend]

/-- Behind the line end the second text starts at the beginning of a line. -/
private theorem twins_join (a b : String) :
    Twins (fun p q => q = p.lower (a.utf8ByteSize + 1) (a.toList.count '\n' + 1))
      (Cursor.ofString b)
      ⟨(({} : Position).past a.toList).advance '\n', b.toList⟩ := by
  refine ⟨?_, rfl⟩
  rw [Position.past_start]
  simp only [Position.advance, Position.ofText, Position.lower, Position.byteCount_toList, if_pos,
    Position.mk.injEq]
  exact ⟨(Nat.zero_add _).symm, Nat.add_assoc _ _ _, rfl⟩

/-- Where the first text has yielded its tokens and ends, the second is tokenized further down. -/
private theorem tokenize_join_of_yields {a : String} {tokens : List Token} {last after : Cursor}
    {final : Token} (hyields : Yields (Cursor.ofString a) tokens last)
    (hnext : last.next = (.ok final, after)) (hend : final.kind = .endOfFile) (b : String) :
    tokenize (a ++ "\n" ++ b) =
      (((tokenize b).mapError (·.lower (a.toList.count '\n' + 1))).map
        (List.map (·.lower (a.utf8ByteSize + 1) (a.toList.count '\n' + 1)))).map (tokens ++ ·) := by
  have hbehind : (last.extend ('\n' :: b.toList)).tokens =
      Cursor.tokens ⟨(({} : Position).past a.toList).advance '\n', b.toList⟩ := by
    rw [tokens_congr (next_extend_of_end hnext hend b.toList), hyields.past_rest]
    rfl
  rw [tokenize, ofString_join, (hyields.extend _).tokens_eq, hbehind, tokens_lower (twins_join a b)]
  rfl

/-- Two texts that are joined by a line end are tokenized one after the other: an error in the first
is an error of the whole; otherwise the tokens of the first, without the end, are followed by the
tokens or the error of the second, that many bytes and lines further down. -/
theorem tokenize_join (a b : String) :
    tokenize (a ++ "\n" ++ b) =
      let bytes := a.utf8ByteSize + 1
      let lines := a.toList.count '\n' + 1
      match tokenize a, tokenize b with
      | .error e, _ => .error e
      | .ok first, .ok second =>
        .ok (first.filter (·.kind ≠ .endOfFile) ++ second.map (Token.lower bytes lines))
      | .ok _, .error e => .error (e.lower lines) := by
  cases ha : tokenize a with
  | error e =>
    obtain ⟨tokens, last, hyields, hpull⟩ := tokenize_eq_error_iff.1 ha
    refine tokenize_eq_error_iff.2 ⟨tokens, last.extend ('\n' :: b.toList), ?_, ?_⟩
    · rw [ofString_join]
      exact hyields.extend _
    · rw [next_extend (by simp [hpull]), hpull]
  | ok first =>
    obtain ⟨tokens, last, final, after, hyields, hnext, hend, rfl⟩ := tokenize_eq_ok_iff.1 ha
    have hfirst : (tokens ++ [final]).filter (·.kind ≠ .endOfFile) = tokens := by
      have htokens := hyields.kind_ne
      simpa [hend] using htokens
    rw [tokenize_join_of_yields hyields hnext hend]
    cases hb : tokenize b with
    | error e => rfl
    | ok second =>
      simp only [hfirst]
      rfl

end HttpSuite
