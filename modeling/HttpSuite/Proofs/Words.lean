import HttpSuite.Proofs.CommandLine
import HttpSuite.Proofs.LexicalGrammar

/-!
# Words

What a word is, is decided in two places.  The check of a class name looks at the characters of a
text, one by one; the lexer skips a gap, branches on one character, reads a run and looks it up
among the reserved words.  Both come to the same: a text passes the check exactly if it is tokenized
to a single word.  So a class name can be any word of the language, reserved or not, and nothing
else.

For the way back it is enough that some word spans the text from its first byte to its last.  A
token is spelled by what its span covers, so the whole text spells that word; and it is enough that
the text is a word of any source, since no other text spells its token.

## Main definitions

* `TokenKind.IsWord`: the tokens that are words.
* `IsLoneWord`: a text that is one word and nothing else.

## Main results

* `Lexical.Splits.spells_of_mem`: a token is spelled by what its span covers.
* `Lexical.tokenize_of_isWord`: the tokens of a word.
* `isIdentifier_of_spans`, `isIdentifier_of_mem`: what is tokenized to a word is one.
* `identifiers_are_words`: the check of class names and the lexer agree.
-/

namespace HttpSuite

open Text

namespace TokenKind

/-- Reserved words and names. -/
def IsWord : TokenKind → Prop
  | keyword _ | identifier _ => True
  | _ => False

theorem isWord_ofWord (text : String) : (ofWord text).IsWord := by
  rw [ofWord]
  split <;> trivial

theorem IsWord.ne_endOfFile {kind : TokenKind} (h : kind.IsWord) : kind ≠ .endOfFile := by
  rintro rfl
  exact h

/-- The reserved word that is found, or else the name. -/
theorem ofWord_eq (text : String) :
    ofWord text = ((Keyword.ofWord? text).map keyword).getD (identifier text) := by
  rw [ofWord]
  cases Keyword.ofWord? text <;> rfl

end TokenKind

namespace Lexical

/-! ## What spells a word -/

/-- Only a word spells one. -/
theorem Spells.isWord {kind : TokenKind} {text : List Char} (h : Spells kind text)
    (hword : kind.IsWord) : IsWord text := by
  cases h with
  | keyword k => exact isWord_word k
  | name hname _ => exact hname
  | _ => exact hword.elim

/-- A word has no other spelling than itself. -/
private theorem Spells.eq_toList {text : String} {lexeme : List Char}
    (h : Spells (.ofWord text) lexeme) : lexeme = text.toList := by
  generalize hkind : TokenKind.ofWord text = kind at h
  rw [TokenKind.ofWord] at hkind
  split at hkind
  · next k hk =>
    have hword := List.find?_some hk
    rw [beq_iff_eq] at hword
    subst hkind
    cases h
    rw [hword]
  · cases h with
    | name =>
      cases hkind
      rw [String.toList_ofList]
    | _ => cases hkind

/-- A token of a split is spelled by what its span covers. -/
theorem Splits.spells_of_mem {items : List Item} {last text : List Char}
    (h : Splits items last text) (before : List Char) {token : Token}
    (hmem : token ∈ tokensAfter before items last) (hne : token.kind ≠ .endOfFile) :
    ∃ lead lexeme rest, text = lead ++ (lexeme ++ rest) ∧
      token.span = spanOf (before ++ lead) lexeme ∧ Spells token.kind lexeme := by
  induction h generalizing before with
  | nil =>
    obtain rfl := List.mem_singleton.1 hmem
    exact absurd rfl hne
  | @cons item items last rest _ hspells _ _ ih =>
    rcases List.mem_cons.1 hmem with rfl | hmem
    · exact ⟨item.gap, item.text, rest, rfl, rfl, hspells⟩
    · obtain ⟨lead, lexeme, after, rfl, hspan, hlexeme⟩ := ih _ hmem
      refine ⟨item.gap ++ (item.text ++ lead), lexeme, after, by simp, ?_, hlexeme⟩
      rw [hspan]
      simp

/-- A token whose span is the whole text is spelled by it. -/
private theorem spells_of_spans {source : String} {tokens : List Token} {token : Token}
    (h : tokenize source = .ok tokens) (hmem : token ∈ tokens) (hne : token.kind ≠ .endOfFile)
    (hstart : token.span.start = 0) (hstop : token.span.stop = source.utf8ByteSize) :
    Spells token.kind source.toList := by
  obtain ⟨items, last, hsplits, rfl⟩ := exists_splits_of_tokenize h
  obtain ⟨lead, lexeme, rest, htext, hspan, hspells⟩ := hsplits.spells_of_mem [] hmem hne
  rw [hspan] at hstart hstop
  -- No bytes stand before the token, hence no characters; and its bytes are those of the text.
  have hlead : lead ++ (lexeme ++ rest) = [] ++ source.toList := htext.symm
  obtain rfl := Position.eq_of_byteCount_eq hlead hstart
  have hlexeme : lexeme ++ rest = source.toList ++ [] := by rw [List.append_nil, htext]; rfl
  rw [← Position.byteCount_toList] at hstop
  rwa [← Position.eq_of_byteCount_eq hlexeme hstop]

/-- A word is one lexeme, with nothing before it and nothing behind. -/
theorem tokenize_of_isWord {text : String} (h : IsWord text.toList) :
    tokenize text = .ok [⟨.ofWord text, spanOf [] text.toList⟩,
      ⟨.endOfFile, spanOf text.toList []⟩] := by
  have hspells := spells_ofWord h
  rw [String.ofList_toList] at hspells
  have hsplits : Splits [⟨[], .ofWord text, text.toList⟩] [] ([] ++ (text.toList ++ [])) :=
    .cons .nil hspells (fun _ => rfl) (.nil (.closed .nil))
  rw [List.nil_append, List.append_nil] at hsplits
  have htokens : tokenize text = _ := hsplits.tokens_eq []
  simpa [tokensAfter] using htokens

end Lexical

/-! ## The check and the lexer -/

open Lexical

/-- The text is tokenized to one token, which spans all of it, and the end. The token is the
reserved word with this spelling or, if there is none, the name. -/
def IsLoneWord (text : String) : Prop :=
  ∃ first last, tokenize text = .ok [first, last] ∧
    first.kind = ((Keyword.ofWord? text).map .keyword).getD (.identifier text) ∧
    first.span.start = 0 ∧ first.span.stop = text.utf8ByteSize ∧ last.kind = .endOfFile

private theorem isLoneWord_of_isIdentifier {text : String} (h : isIdentifier text = true) :
    IsLoneWord text :=
  ⟨_, _, tokenize_of_isWord (isWord_toList_iff.2 h), TokenKind.ofWord_eq text, rfl,
    Position.byteCount_toList text, rfl⟩

/-- A text that a word spans is a word, whatever the token says that the word is. -/
theorem isIdentifier_of_spans {text : String} {tokens : List Token} {token : Token}
    (h : tokenize text = .ok tokens) (hmem : token ∈ tokens) (hword : token.kind.IsWord)
    (hstart : token.span.start = 0) (hstop : token.span.stop = text.utf8ByteSize) :
    isIdentifier text = true :=
  isWord_toList_iff.1 ((spells_of_spans h hmem hword.ne_endOfFile hstart hstop).isWord hword)

/-- A text that is a word of some source is one. -/
theorem isIdentifier_of_mem {text source : String} {tokens : List Token} {token : Token}
    (h : tokenize source = .ok tokens) (hmem : token ∈ tokens)
    (hkind : token.kind = .ofWord text) : isIdentifier text = true := by
  have hword := TokenKind.isWord_ofWord text
  obtain ⟨items, last, hsplits, rfl⟩ := exists_splits_of_tokenize h
  obtain ⟨lead, lexeme, rest, -, -, hspells⟩ :=
    hsplits.spells_of_mem [] hmem (hkind ▸ hword.ne_endOfFile)
  rw [hkind] at hspells
  rw [← isWord_toList_iff, ← hspells.eq_toList]
  exact hspells.isWord hword

theorem IsLoneWord.isIdentifier {text : String} (h : IsLoneWord text) :
    isIdentifier text = true := by
  obtain ⟨first, last, htokens, hkind, hstart, hstop, -⟩ := h
  rw [← TokenKind.ofWord_eq] at hkind
  exact isIdentifier_of_spans htokens List.mem_cons_self (hkind ▸ TokenKind.isWord_ofWord text)
    hstart hstop

theorem isIdentifier_iff_isLoneWord {text : String} : isIdentifier text = true ↔ IsLoneWord text :=
  ⟨isLoneWord_of_isIdentifier, IsLoneWord.isIdentifier⟩

/-! ## Class names -/

/-- Whether a class name will do does not depend on the other settings. -/
theorem Settings.check_className_eq_ok_iff (format : Format) (s : Settings) (name : String) :
    ({ s with className := some name } : Settings).check format = .ok () ↔
      isIdentifier name = true ∧
        ({ s with className := none } : Settings).check format = .ok () := by
  rw [← checkClassName_eq_ok_iff]
  exact bind_eq_ok_iff

/-- A text passes the check of class names exactly if it is tokenized to itself, as one word from
its first byte to its last and the end; it is enough that some word spans it, or that it is a word
of any source.  So the class names that options and settings may give are the words of the
language. -/
theorem identifiers_are_words :
    (∀ text, isIdentifier text = true ↔ IsLoneWord text) ∧
    (∀ text, isIdentifier text = true ↔
      ∃ tokens, tokenize text = .ok tokens ∧ ∃ token ∈ tokens, token.kind.IsWord ∧
        token.span.start = 0 ∧ token.span.stop = text.utf8ByteSize) ∧
    (∀ text, isIdentifier text = true ↔
      ∃ source tokens, tokenize source = .ok tokens ∧
        ∃ token ∈ tokens, token.kind = .ofWord text) ∧
    (∀ options : Options, options.problem? = none ↔ IsLoneWord options.className) ∧
    ∀ (format : Settings.Format) (settings : Settings) (name : String),
      ({ settings with className := some name } : Settings).check format = .ok () ↔
        IsLoneWord name ∧
          ({ settings with className := none } : Settings).check format = .ok () := by
  refine ⟨fun _ => isIdentifier_iff_isLoneWord, fun text => ⟨fun h => ?_, ?_⟩,
    fun text => ⟨fun h => ?_, ?_⟩, fun options => ?_, fun format settings name => ?_⟩
  · exact ⟨_, tokenize_of_isWord (isWord_toList_iff.2 h), _, List.mem_cons_self,
      TokenKind.isWord_ofWord text, rfl, Position.byteCount_toList text⟩
  · rintro ⟨tokens, htokens, token, hmem, hword, hstart, hstop⟩
    exact isIdentifier_of_spans htokens hmem hword hstart hstop
  · exact ⟨text, _, tokenize_of_isWord (isWord_toList_iff.2 h), _, List.mem_cons_self, rfl⟩
  · rintro ⟨source, tokens, htokens, token, hmem, hkind⟩
    exact isIdentifier_of_mem htokens hmem hkind
  · rw [Options.problem?_eq_none_iff, isIdentifier_iff_isLoneWord]
  · rw [Settings.check_className_eq_ok_iff, isIdentifier_iff_isLoneWord]

end HttpSuite
