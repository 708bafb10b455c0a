import HttpSuite.Proofs.Reading

/-!
# The pulls of a source text

A source text yields tokens until its end is reached or a lexeme is malformed.  All that pulls
tokens from it sees these same outcomes: `Cursor.tokens`, which wants them all, the iterator of
`Lexer.collect`, and the reader, which goes on from one token to the next.

## Main definitions

* `Cursor.Yields`: the tokens pulled on the way from one cursor to another.
* `Cursor.Spent`: a cursor from which no further token but the end can be pulled.
* `Cursor.Faces`: the reader whose token under decision is the next one at a cursor.

## Main results

* `TokenStream.pop_ofCursor`: the stream of a cursor is the stream of its pulls.
* `Cursor.exists_yields`: every text ends after finitely many tokens, in one way or the other.
* `Cursor.Yields.tokens_eq`, `Cursor.Yields.collect_eq`: what the whole text is tokenized to.
* `Cursor.Faces.steps_iff`: going on with a reader is pulling tokens.
-/

namespace HttpSuite

/-! ## Pulls that move nothing -/

theorem Position.offset_lt_past {p : Position} {text : List Char} (h : text ≠ []) :
    p.offset < (p.past text).offset := by
  have hle : ∀ (text : List Char) (p : Position), p.offset ≤ (p.past text).offset := by
    intro text
    induction text with
    | nil => intro p; exact Nat.le_refl _
    | cons c text ih =>
      intro p
      exact Nat.le_trans (Nat.le_add_right _ _) (ih (p.advance c))
  cases text with
  | nil => exact absurd rfl h
  | cons c text =>
    have hstep : p.offset < (p.advance c).offset := Nat.lt_add_of_pos_right c.utf8Size_pos
    exact Nat.lt_of_lt_of_le hstep (hle text _)

namespace Cursor

/-- A pull that does not move the place leaves the cursor as it was. -/
theorem next_eq_self {cursor : Cursor}
    (h : cursor.next.2.position.offset = cursor.position.offset) : cursor.next.2 = cursor := by
  obtain ⟨taken, hrest, hplace⟩ := cursor.next_eq
  have hnil : taken = [] := by
    by_cases hne : taken = []
    · exact hne
    · have hlt := Position.offset_lt_past (p := cursor.position) hne
      rw [← hplace, h] at hlt
      exact absurd hlt (Nat.lt_irrefl _)
  subst hnil
  calc cursor.next.2 = ⟨cursor.next.2.position, cursor.next.2.rest⟩ := rfl
    _ = ⟨cursor.position, cursor.rest⟩ := by rw [hplace, hrest]; rfl

end Cursor

/-- The stream of a cursor starts with its next pull and goes on where that pull ended. -/
theorem TokenStream.pop_ofCursor (cursor : Cursor) :
    (ofCursor cursor).pop = (cursor.next.1, ofCursor cursor.next.2) := by
  by_cases h : cursor.next.2.position.offset = cursor.position.offset
  · rw [Cursor.next_eq_self h, ofCursor, if_pos h]
    cases hpull : cursor.next.1 with
    | error e => rfl
    | ok token =>
      have hend : token.kind = .endOfFile := by
        by_cases hk : token.kind = .endOfFile
        · exact hk
        · have hlt : cursor.next.2.rest.length < cursor.rest.length :=
            Cursor.length_next_lt (Prod.ext hpull rfl) hk
          rw [Cursor.next_eq_self h] at hlt
          exact absurd hlt (Nat.lt_irrefl _)
      rw [forever, pop, ← hend]
  · rw [ofCursor, if_neg h]
    rfl

namespace Cursor

/-! ## Runs of tokens -/

/-- Pulling from one cursor yields these tokens, none of them the end of the text, and leads to the
other cursor. -/
inductive Yields : Cursor → List Token → Cursor → Prop
  | refl (cursor : Cursor) : Yields cursor [] cursor
  | pull {cursor after last : Cursor} {token : Token} {tokens : List Token} :
    cursor.next = (.ok token, after) → token.kind ≠ .endOfFile → Yields after tokens last →
    Yields cursor (token :: tokens) last

/-- Nothing but the end of the text or an error can be pulled. -/
def Spent (cursor : Cursor) : Prop :=
  ∀ token after, cursor.next = (.ok token, after) → token.kind = .endOfFile

theorem Yields.append {cursor middle last : Cursor} {first second : List Token}
    (h : Yields cursor first middle) (h' : Yields middle second last) :
    Yields cursor (first ++ second) last := by
  induction h with
  | refl => exact h'
  | pull hnext hk _ ih => exact .pull hnext hk (ih h')

theorem Yields.append_one {cursor last after : Cursor} {tokens : List Token} {token : Token}
    (h : Yields cursor tokens last) (hnext : last.next = (.ok token, after))
    (hk : token.kind ≠ .endOfFile) : Yields cursor (tokens ++ [token]) after :=
  h.append (.pull hnext hk (.refl _))

/-- Every text ends after finitely many tokens. -/
theorem exists_yields (cursor : Cursor) :
    ∃ tokens last, Yields cursor tokens last ∧ last.Spent := by
  by_cases h : ∃ token after, cursor.next = (.ok token, after) ∧ token.kind ≠ .endOfFile
  · obtain ⟨token, after, hnext, hk⟩ := h
    have hlt := length_next_lt hnext hk
    obtain ⟨tokens, last, hyields, hspent⟩ := exists_yields after
    exact ⟨token :: tokens, last, .pull hnext hk hyields, hspent⟩
  · refine ⟨[], cursor, .refl _, fun token after hnext => ?_⟩
    exact Classical.byContradiction fun hk => h ⟨token, after, hnext, hk⟩
termination_by cursor.rest.length

/-- All tokens that a text yields are among those it yields until nothing is left. -/
theorem Yields.prefix_of_spent {cursor middle last : Cursor} {first all : List Token}
    (h : Yields cursor first middle) (hall : Yields cursor all last) (hspent : last.Spent) :
    first <+: all := by
  induction h generalizing all with
  | refl => exact List.nil_prefix
  | pull hnext hk _ ih =>
    cases hall with
    | refl => exact absurd (hspent _ _ hnext) hk
    | pull hnext' _ hall' =>
      rw [hnext] at hnext'
      cases hnext'
      exact List.cons_prefix_cons.2 ⟨rfl, ih hall'⟩

/-! ## Whole texts -/

theorem tokens_of_error {cursor after : Cursor} {e : LexError}
    (h : cursor.next = (.error e, after)) : cursor.tokens = (.error e, after) := by
  rw [tokens]
  split
  · next e' after' h' =>
    rw [h] at h'
    cases h'
    rfl
  · next token after' h' =>
    rw [h] at h'
    cases h'

theorem tokens_of_ok {cursor after : Cursor} {token : Token}
    (h : cursor.next = (.ok token, after)) : cursor.tokens =
      if token.kind = .endOfFile then (.ok [token], after)
      else (after.tokens.1.map (token :: ·), after.tokens.2) := by
  rw [tokens]
  split
  · next e' after' h' =>
    rw [h] at h'
    cases h'
  · next token' after' h' =>
    rw [h] at h'
    cases h'
    rfl

theorem Yields.tokens_eq {cursor last : Cursor} {tokens : List Token}
    (h : Yields cursor tokens last) : cursor.tokens.1 = last.tokens.1.map (tokens ++ ·) := by
  induction h with
  | refl cursor => cases cursor.tokens.1 <;> rfl
  | @pull cursor after last token tokens hnext hk _ ih =>
    rw [tokens_of_ok hnext, if_neg hk, ih]
    cases last.tokens.1 <;> rfl

theorem Spent.tokens_eq {cursor : Cursor} (h : cursor.Spent) :
    cursor.tokens.1 = cursor.next.1.map ([·]) := by
  cases hnext : cursor.next with
  | mk pull after =>
    cases pull with
    | error e =>
      rw [tokens_of_error hnext]
      rfl
    | ok token =>
      rw [tokens_of_ok hnext, if_pos (h token after hnext)]
      rfl

/-- A text is tokenized if it yields tokens up to its end, which is the last of them. -/
theorem tokenize_eq_ok_iff {source : String} {all : List Token} :
    tokenize source = .ok all ↔ ∃ tokens last final after, Yields (.ofString source) tokens last ∧
      last.next = (.ok final, after) ∧ final.kind = .endOfFile ∧ all = tokens ++ [final] := by
  constructor
  · intro h
    obtain ⟨tokens, last, hyields, hspent⟩ := (Cursor.ofString source).exists_yields
    rw [tokenize, hyields.tokens_eq, hspent.tokens_eq] at h
    cases hnext : last.next with
    | mk pull after =>
      rw [hnext] at h
      cases pull with
      | error e => cases h
      | ok final =>
        cases h
        exact ⟨tokens, last, final, after, hyields, hnext, hspent final after hnext, rfl⟩
  · intro h
    obtain ⟨tokens, last, final, after, hyields, hnext, hend, rfl⟩ := h
    rw [tokenize, hyields.tokens_eq, tokens_of_ok hnext, if_pos hend]
    rfl

/-- What kinds of tokens a text is tokenized to, before the end. -/
theorem kinds_eq_ok_iff {source : String} {w : List TokenKind} :
    (tokenize source).map (List.map Token.kind) = .ok (w ++ [.endOfFile]) ↔
      ∃ tokens last final after, Yields (.ofString source) tokens last ∧
        last.next = (.ok final, after) ∧ final.kind = .endOfFile ∧ tokens.map Token.kind = w := by
  constructor
  · intro h
    cases hall : tokenize source with
    | error e =>
      rw [hall] at h
      cases h
    | ok all =>
      obtain ⟨tokens, last, final, after, hyields, hnext, hend, rfl⟩ := tokenize_eq_ok_iff.1 hall
      rw [hall] at h
      have hkinds : (tokens ++ [final]).map Token.kind = w ++ [.endOfFile] := Except.ok.inj h
      rw [List.map_append, List.map_singleton, hend] at hkinds
      exact ⟨tokens, last, final, after, hyields, hnext, hend, List.append_cancel_right hkinds⟩
  · intro h
    obtain ⟨tokens, last, final, after, hyields, hnext, hend, rfl⟩ := h
    rw [tokenize_eq_ok_iff.2 ⟨tokens, last, final, after, hyields, hnext, hend, rfl⟩]
    show Except.ok ((tokens ++ [final]).map Token.kind) = _
    rw [List.map_append, List.map_singleton, hend]

/-- A text fails to be tokenized at the first pull that fails. -/
theorem tokenize_eq_error_iff {source : String} {e : LexError} :
    tokenize source = .error e ↔ ∃ tokens last, Yields (.ofString source) tokens last ∧
      last.next.1 = .error e := by
  constructor
  · intro h
    obtain ⟨tokens, last, hyields, hspent⟩ := (Cursor.ofString source).exists_yields
    rw [tokenize, hyields.tokens_eq, hspent.tokens_eq] at h
    cases hpull : last.next.1 with
    | error e' =>
      rw [hpull] at h
      cases h
      exact ⟨tokens, last, hyields, hpull⟩
    | ok final =>
      rw [hpull] at h
      cases h
  · intro h
    obtain ⟨tokens, last, hyields, hpull⟩ := h
    rw [tokenize, hyields.tokens_eq, tokens_of_error (Prod.ext hpull rfl)]
    rfl

/-- What an iterator that has not ended yields: the next pull, and then the others unless that was
the last. -/
theorem collect_eq (cursor : Cursor) : Lexer.collect ⟨cursor, false⟩ =
    cursor.next.1 :: Lexer.collect ⟨cursor.next.2, Lexer.isLast cursor.next.1⟩ := by
  rw [Lexer.collect]
  split
  · next after h => cases h
  · next pull after h =>
    cases h
    rfl

theorem collect_ended (cursor : Cursor) : Lexer.collect ⟨cursor, true⟩ = [] := by
  rw [Lexer.collect]
  split
  · rfl
  · next pull after h => cases h

theorem Yields.collect_eq {cursor last : Cursor} {tokens : List Token}
    (h : Yields cursor tokens last) :
    Lexer.collect ⟨cursor, false⟩ = tokens.map .ok ++ Lexer.collect ⟨last, false⟩ := by
  induction h with
  | refl => rfl
  | @pull cursor after last token tokens hnext hk _ ih =>
    have hlast : Lexer.isLast (.ok token) = false := by simpa [Lexer.isLast] using hk
    rw [Cursor.collect_eq, hnext, hlast, ih]
    rfl

theorem Spent.collect_eq {cursor : Cursor} (h : cursor.Spent) :
    Lexer.collect ⟨cursor, false⟩ = [cursor.next.1] := by
  have hlast : Lexer.isLast cursor.next.1 = true := by
    cases hpull : cursor.next.1 with
    | error e => rfl
    | ok token => simpa [Lexer.isLast] using h token _ (Prod.ext hpull rfl)
  rw [Cursor.collect_eq, hlast, collect_ended]

theorem spent_of_error {cursor : Cursor} {e : LexError} (h : cursor.next.1 = .error e) :
    cursor.Spent := by
  intro token after hnext
  rw [hnext] at h
  cases h

/-- The iterator of a text yields what can be pulled from it. -/
theorem Yields.collect_ofString {source : String} {tokens : List Token} {last : Cursor}
    (h : Yields (.ofString source) tokens last) (hspent : last.Spent) :
    (Lexer.ofString source).collect = tokens.map .ok ++ [last.next.1] := by
  rw [← hspent.collect_eq]
  exact h.collect_eq

/-! ## Readers -/

/-- The reader whose token under decision is the next one at the cursor. -/
def Faces (cursor : Cursor) (s : ReaderState) : Prop :=
  ∃ token after, cursor.next = (.ok token, after) ∧ s = ⟨token, .ofCursor after⟩

theorem faces_of_next {cursor after : Cursor} {token : Token}
    (h : cursor.next = (.ok token, after)) : cursor.Faces ⟨token, .ofCursor after⟩ :=
  ⟨token, after, h, rfl⟩

/-- A reader at the start of a text faces its first token. -/
theorem ofString_eq_ok_iff {source : String} {s : ReaderState} :
    ReaderState.ofString source = .ok s ↔ (Cursor.ofString source).Faces s := by
  unfold ReaderState.ofString
  rw [TokenStream.pop_ofCursor]
  cases hnext : (Cursor.ofString source).next with
  | mk pull after =>
    cases pull with
    | error e => simp [Faces, hnext]
    | ok token =>
      constructor
      · intro h
        cases h
        exact faces_of_next hnext
      · intro h
        obtain ⟨token', after', hnext', rfl⟩ := h
        rw [hnext] at hnext'
        cases hnext'
        rfl

theorem ofString_eq_error_iff {source : String} {e : LexError} :
    ReaderState.ofString source = .error e ↔ (Cursor.ofString source).next.1 = .error e := by
  unfold ReaderState.ofString
  rw [TokenStream.pop_ofCursor]
  cases (Cursor.ofString source).next.1 <;> simp

/-- Going on from a reader that faces a cursor. -/
theorem advance_of_next {cursor : Cursor} {token : Token} :
    Reader.advance ⟨token, .ofCursor cursor⟩ =
      match cursor.next with
      | (.ok found, after) => .ok () ⟨found, .ofCursor after⟩
      | (.error e, after) => .error (.lex e) ⟨token, .ofCursor after⟩ := by
  unfold Reader.advance
  rw [TokenStream.pop_ofCursor]
  cases hnext : cursor.next with
  | mk pull after => cases pull <;> rfl

theorem Faces.advance_eq {cursor : Cursor} {s : ReaderState} (h : cursor.Faces s) (token : Token) :
    Reader.advance ⟨token, .ofCursor cursor⟩ = .ok () s := by
  obtain ⟨found, after, hnext, rfl⟩ := h
  rw [advance_of_next, hnext]

/-- A cursor that leads to a token starts with one. -/
theorem Yields.exists_faces {cursor last : Cursor} {tokens : List Token} {after : ReaderState}
    (h : Yields cursor tokens last) (hlast : last.Faces after) : ∃ s, cursor.Faces s := by
  cases h with
  | refl => exact ⟨after, hlast⟩
  | pull hnext _ _ => exact ⟨_, faces_of_next hnext⟩

/-- Going on with a reader is pulling tokens. -/
theorem Faces.steps_iff {cursor : Cursor} {s after : ReaderState} (h : cursor.Faces s)
    {w : List TokenKind} : s.Steps w after ↔
      ∃ tokens last, Yields cursor tokens last ∧ tokens.map Token.kind = w ∧ last.Faces after := by
  induction w generalizing cursor s with
  | nil =>
    rw [ReaderState.steps_nil]
    constructor
    · intro hs
      subst hs
      exact ⟨[], cursor, .refl _, rfl, h⟩
    · intro hs
      obtain ⟨tokens, last, hyields, hnil, hlast⟩ := hs
      obtain rfl := List.map_eq_nil_iff.1 hnil
      cases hyields
      obtain ⟨token, after', hnext, rfl⟩ := h
      obtain ⟨token', after'', hnext', rfl⟩ := hlast
      rw [hnext] at hnext'
      cases hnext'
      rfl
  | cons kind w ih =>
    obtain ⟨token, next, hnext, rfl⟩ := h
    rw [ReaderState.steps_cons]
    constructor
    · intro hs
      obtain ⟨hkind, hne, middle, hadvance, hw⟩ := hs
      subst hkind
      have hface : next.Faces middle := by
        rw [advance_of_next] at hadvance
        split at hadvance
        · next found after' hnext' =>
          cases hadvance
          exact faces_of_next hnext'
        · cases hadvance
      obtain ⟨tokens, last, hyields, rfl, hlast⟩ := (ih hface).1 hw
      exact ⟨token :: tokens, last, .pull hnext hne hyields, rfl, hlast⟩
    · intro hs
      obtain ⟨tokens, last, hyields, hmap, hlast⟩ := hs
      cases hyields with
      | refl => cases hmap
      | pull hnext' hne hyields =>
        rw [hnext] at hnext'
        cases hnext'
        obtain ⟨hkind, hmap⟩ := List.cons.inj hmap
        obtain ⟨middle, hmiddle⟩ := hyields.exists_faces hlast
        exact ⟨hkind, hkind ▸ hne, middle, hmiddle.advance_eq token,
          (ih hmiddle).2 ⟨_, last, hyields, hmap, hlast⟩⟩

end Cursor

end HttpSuite
