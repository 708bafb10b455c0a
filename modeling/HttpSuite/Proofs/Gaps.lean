import HttpSuite.Compile
import HttpSuite.Proofs.Reading.Kinds

/-!
# Gaps between tokens

Where a token starts, blanks and closed comments can be put in and nothing but places changes.  In
the split of the text the gap in front of that token grows, and the lexemes stay what they are: a
gap starts with no character that a word could go on with, so the lexeme before it ends as before.
Behind the last lexeme the text may end in an open comment; there what is put in belongs to the
comment up to its first line end, and what follows that line end is a gap again.

Texts with tokens of the same kinds are read in the same way, so the program is the same, and so is
everything that is made from it.

## Main results

* `Lexical.Splits.insert`: a split with a larger gap.
* `gap_between_tokens`: tokens, programs and suites of a text with a gap put in.
-/

namespace HttpSuite

open Text

namespace Lexical

/-! ## Gaps put together -/

theorem Gap.append {first second : List Char} (h : Gap first) (h' : Gap second) :
    Gap (first ++ second) := by
  induction h with
  | nil => exact h'
  | blank hc _ ih => exact .blank hc ih
  | comment htext _ ih =>
    rw [List.cons_append, List.cons_append, List.append_assoc]
    exact .comment htext ih

/-- What stands behind a line end of a gap is a gap. -/
private theorem Gap.behind_line {line rest : List Char} (h : Gap (line ++ '\n' :: rest)) :
    Gap rest := by
  generalize hwhole : line ++ '\n' :: rest = whole at h
  induction h generalizing line with
  | nil => simp at hwhole
  | blank _ hgap ih =>
    cases line with
    | nil =>
      obtain ⟨-, rfl⟩ := List.cons.inj hwhole
      exact hgap
    | cons d line => exact ih (List.cons.inj hwhole).2
  | @comment text gap htext _ ih =>
    have hslashes : '\n' ∉ '/' :: '/' :: text := by simpa using htext
    rw [← List.cons_append, ← List.cons_append] at hwhole
    rcases List.append_eq_append_iff.1 hwhole with ⟨more, hmore, htail⟩ | ⟨more, rfl, htail⟩
    · -- No line end stands inside the comment, so this one closes it.
      cases more with
      | nil => exact @ih [] htail
      | cons c more =>
        obtain ⟨rfl, -⟩ := List.cons.inj htail
        exact absurd (hmore ▸ List.mem_append_right line List.mem_cons_self) hslashes
    · exact ih htail.symm

/-- Behind the last lexeme a gap can be put in, also into an open comment. -/
theorem LastGap.append {last gap : List Char} (h : LastGap last) (hgap : Gap gap) :
    LastGap (last ++ gap) := by
  cases h with
  | closed h => exact .closed (h.append hgap)
  | @comment before text h htext =>
    rw [List.append_assoc, List.cons_append, List.cons_append]
    by_cases hmem : '\n' ∈ gap
    · -- The comment is closed by the first line end of the gap.
      obtain ⟨line, rest, rfl, hline⟩ := List.eq_append_cons_of_mem hmem
      have hfree : '\n' ∉ text ++ line := by simpa using ⟨htext, hline⟩
      rw [← List.append_assoc text]
      exact .closed (h.append (.comment hfree (.blank (.inr (.inr (.inr rfl))) hgap.behind_line)))
    · exact .comment h (by simpa using ⟨htext, hmem⟩)

/-- No word goes on into a gap. -/
private theorem Gap.head?_any {gap : List Char} (h : Gap gap) :
    gap.head?.any isWordPart = false := by
  cases h with
  | nil => rfl
  | blank hc _ => rcases hc with rfl | rfl | rfl | rfl <;> rfl
  | comment => rfl

/-- A word that did not go on does not go on when a gap is put in. -/
private theorem Gap.head?_insert {gap : List Char} (h : Gap gap) {first second : List Char}
    (hseam : (first ++ second).head?.any isWordPart = false) :
    (first ++ gap ++ second).head?.any isWordPart = false := by
  cases first with
  | cons c first => exact hseam
  | nil =>
    have hhead := h.head?_any
    cases gap with
    | nil => exact hseam
    | cons c gap => exact hhead

/-! ## Splits with a larger gap -/

theorem map_kind_tokensAfter (before : List Char) (items : List Item) (last : List Char) :
    (tokensAfter before items last).map Token.kind = items.map Item.kind ++ [.endOfFile] := by
  induction items generalizing before with
  | nil => rfl
  | cons item items ih =>
    rw [tokensAfter, List.map_cons, ih]
    rfl

/-- Where one of the tokens of a split starts, a gap can be put in. -/
theorem Splits.insert {items : List Item} {last text gap : List Char}
    (h : Splits items last text) (hgap : Gap gap) (before : List Char) {token : Token}
    (hmem : token ∈ tokensAfter before items last) :
    ∃ first second items' last', text = first ++ second ∧
      token.span.start = Position.byteCount (before ++ first) ∧
      Splits items' last' (first ++ gap ++ second) ∧ items'.map Item.kind = items.map Item.kind := by
  induction h generalizing before with
  | @nil last hlast =>
    obtain rfl := List.mem_singleton.1 hmem
    refine ⟨last, [], [], last ++ gap, (List.append_nil last).symm, rfl, ?_, rfl⟩
    rw [List.append_nil]
    exact .nil (hlast.append hgap)
  | @cons item items last rest hitem hspells hrest hmore ih =>
    rcases List.mem_cons.1 hmem with rfl | hmem
    · refine ⟨item.gap, item.text ++ rest, { item with gap := item.gap ++ gap } :: items, last, rfl,
        rfl, ?_, rfl⟩
      exact .cons (hitem.append hgap) hspells hrest hmore
    · obtain ⟨first, second, items', last', rfl, hstart, hsplits, hkinds⟩ := ih _ hmem
      refine ⟨item.gap ++ (item.text ++ first), second, item :: items', last', by simp, ?_, ?_, ?_⟩
      · rw [hstart]
        simp
      · have hitems := Splits.cons hitem hspells (fun hrun => hgap.head?_insert (hrest hrun)) hsplits
        simpa using hitems
      · rw [List.map_cons, List.map_cons, hkinds]

end Lexical

/-! ## Texts with a gap put in -/

open Lexical

/-- A gap that is put in where a token starts leaves the kinds of the tokens as they were. -/
private theorem exists_tokens_of_gap {u v gap : String} {tokens : List Token} {token : Token}
    (h : tokenize (u ++ v) = .ok tokens) (hmem : token ∈ tokens)
    (hcut : token.span.start = u.utf8ByteSize) (hgap : Gap gap.toList) :
    ∃ tokens', tokenize (u ++ gap ++ v) = .ok tokens' ∧
      tokens'.map Token.kind = tokens.map Token.kind := by
  obtain ⟨items, last, hsplits, rfl⟩ := exists_splits_of_tokenize h
  obtain ⟨first, second, items', last', htext, hstart, hsplits', hkinds⟩ :=
    hsplits.insert hgap [] hmem
  have hsize : Position.byteCount first = Position.byteCount u.toList := by
    rw [Position.byteCount_toList, ← hcut, hstart]
    rfl
  have hsplit : first ++ second = u.toList ++ v.toList := by
    rw [← String.toList_append]
    exact htext.symm
  obtain rfl := Position.eq_of_byteCount_eq hsplit hsize
  obtain rfl := List.append_cancel_left hsplit
  rw [← String.toList_append, ← String.toList_append] at hsplits'
  exact ⟨tokensAfter [] items' last', hsplits'.tokens_eq [], by
    rw [map_kind_tokensAfter, map_kind_tokensAfter, hkinds]⟩

/-- Blanks and closed comments between tokens change places only: the tokens have the same kinds,
the program is the same or is refused in the same words, and compilation has the same result or
fails with the refusal in the same words. -/
theorem gap_between_tokens {u v gap : String} {tokens : List Token} {token : Token}
    (h : tokenize (u ++ v) = .ok tokens) (hmem : token ∈ tokens)
    (hcut : token.span.start = u.utf8ByteSize) (hgap : Gap gap.toList) :
    (∃ tokens', tokenize (u ++ gap ++ v) = .ok tokens' ∧
      tokens'.map Token.kind = tokens.map Token.kind) ∧
    ((∃ p, Program.parse (u ++ v) = .ok p ∧ Program.parse (u ++ gap ++ v) = .ok p) ∨
      ∃ e e' : ParseError, Program.parse (u ++ v) = .error (.parse e) ∧
        Program.parse (u ++ gap ++ v) = .error (.parse e') ∧
        e'.detail = e.detail ∧ e'.context = e.context) ∧
    ∀ options, compile (u ++ gap ++ v) options = compile (u ++ v) options ∨
      ∃ e e' : ParseError, compile (u ++ v) options = .error (.source (.parse e)) ∧
        compile (u ++ gap ++ v) options = .error (.source (.parse e')) ∧
        e'.detail = e.detail ∧ e'.context = e.context := by
  obtain ⟨tokens', htokens, hkinds⟩ := exists_tokens_of_gap h hmem hcut hgap
  refine ⟨⟨tokens', htokens, hkinds⟩, ?_⟩
  rcases Program.parse_of_kinds_eq h htokens hkinds with
    ⟨p, hp, hp'⟩ | ⟨e, e', he, he', hcause, hfound⟩
  · exact ⟨.inl ⟨p, hp, hp'⟩, fun options => .inl (by rw [compile, compile, hp, hp'])⟩
  · have hdetail : e'.detail = e.detail := by rw [ParseError.detail, ParseError.detail, hcause]
    have hcontext : e'.context = e.context := by
      rw [ParseError.context, ParseError.context, hfound]
    refine ⟨.inr ⟨e, e', he, he', hdetail, hcontext⟩, fun options => ?_⟩
    rw [compile, compile, he, he']
    cases options.problem? with
    | some problem => exact .inl rfl
    | none => exact .inr ⟨e, e', rfl, rfl, hdetail, hcontext⟩

/-- A blank and a comment are put in at the end of a text that ends in an open comment. -/
theorem gap_between_tokens_openComment :
    let u := "test // name?"
    let gap := "\t// none\n"
    let final : Token := ⟨.endOfFile, { start := 13, stop := 13, line := 1, column := 14 }⟩
    tokenize (u ++ "") = .ok [⟨.keyword .test, ⟨0, 4, 1, 1⟩⟩, final] ∧
      final.span.start = u.utf8ByteSize ∧ Gap gap.toList ∧
      (tokenize (u ++ gap ++ "")).map (List.map Token.kind) = .ok [.keyword .test, .endOfFile] ∧
      ∃ e e' : ParseError, Program.parse (u ++ "") = .error (.parse e) ∧
        Program.parse (u ++ gap ++ "") = .error (.parse e') ∧
        e'.detail = e.detail ∧ e'.context = e.context := by
  intro u gap final
  have htokens : tokenize (u ++ "") = .ok [⟨.keyword .test, ⟨0, 4, 1, 1⟩⟩, final] := by
    simp only [u, final]
    set_option maxRecDepth 2000 in with_unfolding_all rfl
  have hgap : Gap gap.toList := by
    have hchars : gap =
        String.ofList ('\t' :: '/' :: '/' :: ([' ', 'n', 'o', 'n', 'e'] ++ ['\n'])) := rfl
    rw [hchars, String.toList_ofList]
    exact .blank (.inr (.inl rfl)) (.comment (by decide) (.blank (.inr (.inr (.inr rfl))) .nil))
  obtain ⟨⟨tokens', htokens', hkinds⟩, hparse, -⟩ := gap_between_tokens htokens
    (List.mem_cons_of_mem _ List.mem_cons_self) rfl hgap
  refine ⟨htokens, rfl, hgap, ?_, hparse.resolve_left ?_⟩
  · rw [htokens']
    exact congrArg Except.ok hkinds
  · rintro ⟨p, hp, -⟩
    have hrefused : Program.parse (u ++ "") =
        .error (.parse ⟨.noIdentifier .testName, final⟩) := by
      simp only [u, final]
      set_option maxRecDepth 2000 in with_unfolding_all rfl
    rw [hrefused] at hp
    cases hp

end HttpSuite
