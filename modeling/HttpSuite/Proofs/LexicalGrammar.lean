import HttpSuite.Proofs.Lexing
import HttpSuite.Proofs.Places
import Mathlib.Algebra.Group.Nat.Defs

/-!
# The lexical grammar

A source text is tokenized if it splits into gaps and lexemes: a gap, a lexeme, a gap, and so on,
with a gap at the end.  What a gap is and how each token is spelled is said here without the lexer.
The one rule about neighbours is that a word or a number ends where no letter, digit or underscore
follows, and this makes the split unique: the lexer, which always takes as much as it can, has no
other choice.

## Main definitions

* `Lexical.Gap`, `Lexical.LastGap`: blanks and comments; only the last gap may end in an open
  comment.
* `Lexical.Spells`: how a token is spelled.
* `Lexical.Splits`: a text as gaps and lexemes.
* `Lexical.tokensAfter`: the tokens of a split, with their spans counted from the text.

## Main results

* `Lexical.Spells.read_append`, `Lexical.spells_of_read`: reading one lexeme is spelling it.
* `Lexical.Splits.unique`: a text splits in at most one way.
* `Lexical.tokenize_iff_splits`: tokenizing is splitting.
-/

namespace HttpSuite

open Text

namespace Lexical

/-! ## The grammar -/

/-- The four blank characters. -/
def IsBlank (c : Char) : Prop := c = ' ' ∨ c = '\t' ∨ c = '\r' ∨ c = '\n'

/-- What may stand between two lexemes: blanks, and comments that a line feed closes. -/
inductive Gap : List Char → Prop
  | nil : Gap []
  | blank {c : Char} {gap : List Char} : IsBlank c → Gap gap → Gap (c :: gap)
  | comment {text gap : List Char} : '\n' ∉ text → Gap ('\n' :: gap) →
    Gap ('/' :: '/' :: (text ++ '\n' :: gap))

/-- What may stand behind the last lexeme: a gap, and perhaps a comment that the end closes. -/
inductive LastGap : List Char → Prop
  | closed {gap : List Char} : Gap gap → LastGap gap
  | comment {gap text : List Char} : Gap gap → '\n' ∉ text → LastGap (gap ++ '/' :: '/' :: text)

/-- The letters behind a backslash, with what they stand for. -/
def escapeTable : List (Char × Char) :=
  [('n', '\n'), ('t', '\t'), ('r', '\r'), ('\\', '\\'), ('"', '"')]

/-- The second text, between quotes, stands for the first. -/
inductive Quoted : List Char → List Char → Prop
  | nil : Quoted [] []
  | plain {c : Char} {content text : List Char} : c ≠ '"' → c ≠ '\\' → c ≠ '\n' →
    Quoted content text → Quoted (c :: content) (c :: text)
  | escape {letter c : Char} {content text : List Char} : (letter, c) ∈ escapeTable →
    Quoted content text → Quoted (c :: content) ('\\' :: letter :: text)

/-- A letter or underscore, and then letters, digits and underscores. -/
def IsWord (text : List Char) : Prop :=
  ∃ c rest, text = c :: rest ∧ isWordStart c = true ∧ ∀ d ∈ rest, isWordPart d = true

/-- The number that a run of digits writes. -/
def decimal (digits : List Char) : Nat := Nat.ofDigitChars 10 digits 0

/-- The spelling of a token. The end of the text has none. -/
inductive Spells : TokenKind → List Char → Prop
  | leftBrace : Spells .leftBrace ['\x7b']
  | rightBrace : Spells .rightBrace ['\x7d']
  | semicolon : Spells .semicolon [';']
  | equals : Spells .equals ['=']
  | keyword (k : Keyword) : Spells (.keyword k) k.word.toList
  | name {text : List Char} : IsWord text → (∀ k : Keyword, k.word.toList ≠ text) →
    Spells (.identifier (String.ofList text)) text
  | number {text : List Char} : text ≠ [] → (∀ c ∈ text, c.isDigit = true) →
    decimal text ≤ 2 ^ 63 - 1 → Spells (.number (Int64.ofNat (decimal text))) text
  | string {content text : List Char} : Quoted content text →
    Spells (.string (String.ofList content)) ('"' :: (text ++ ['"']))

/-- Whether a token is spelled as a run of word characters. -/
def IsRun : TokenKind → Prop
  | .keyword _ | .identifier _ | .number _ => True
  | _ => False

/-- A lexeme with the gap before it. -/
structure Item where
  gap : List Char
  kind : TokenKind
  text : List Char

/-- The items, and behind them the last gap, make up the text. -/
inductive Splits : List Item → List Char → List Char → Prop
  | nil {last : List Char} : LastGap last → Splits [] last last
  | cons {item : Item} {items : List Item} {last rest : List Char} :
    Gap item.gap → Spells item.kind item.text →
    (IsRun item.kind → rest.head?.any isWordPart = false) → Splits items last rest →
    Splits (item :: items) last (item.gap ++ (item.text ++ rest))

/-- The span of a lexeme that stands behind the text `before`. -/
def spanOf (before text : List Char) : Span where
  start := (Position.ofText before).offset
  stop := (Position.ofText (before ++ text)).offset
  line := (Position.ofText before).line
  column := (Position.ofText before).column

/-- The tokens of a split that stands behind the text `before`, with the end of the text. -/
def tokensAfter (before : List Char) : List Item → List Char → List Token
  | [], last => [⟨.endOfFile, spanOf (before ++ last) []⟩]
  | item :: items, last =>
    ⟨item.kind, spanOf (before ++ item.gap) item.text⟩
      :: tokensAfter (before ++ (item.gap ++ item.text)) items last

/-! ## Gaps are what is skipped -/

theorem isGapChar_iff {c : Char} : Cursor.isGapChar c = true ↔ IsBlank c := by
  simp [Cursor.isGapChar, IsBlank, or_assoc]

theorem LastGap.blank {c : Char} {gap : List Char} (hc : IsBlank c) (h : LastGap gap) :
    LastGap (c :: gap) := by
  cases h with
  | closed h => exact .closed (.blank hc h)
  | comment h htext => exact .comment (.blank hc h) htext

/-- A comment in front of a last gap. -/
private theorem LastGap.comment_append {text gap : List Char} (htext : '\n' ∉ text)
    (h : LastGap gap) : LastGap ('/' :: '/' :: (text ++ '\n' :: gap)) := by
  have hclosed {gap : List Char} (h : Gap gap) : Gap ('/' :: '/' :: (text ++ '\n' :: gap)) :=
    .comment htext (.blank (.inr (.inr (.inr rfl))) h)
  cases h with
  | closed h => exact .closed (hclosed h)
  | comment h hopen =>
    have hall := LastGap.comment (hclosed h) hopen
    simpa using hall

section skip

open Cursor

/-- A comment is skipped together with the line feed behind it. -/
private theorem skipGapFrom_comment {text : List Char} (h : '\n' ∉ text) (p : Position)
    (rest : List Char) : skipGapFrom true p (text ++ '\n' :: rest) =
      skipGapFrom false (p.past (text ++ ['\n'])) rest := by
  induction text generalizing p with
  | nil => rfl
  | cons c text ih =>
    rw [List.mem_cons, not_or] at h
    have hc : (c != '\n') = true := by simpa using Ne.symm h.1
    rw [List.cons_append, skipGapFrom, if_pos rfl, hc]
    exact ih h.2 (p.advance c)

private theorem skipGapFrom_openComment {text : List Char} (h : '\n' ∉ text) (p : Position) :
    skipGapFrom true p text = ⟨p.past text, []⟩ := by
  induction text generalizing p with
  | nil => rfl
  | cons c text ih =>
    rw [List.mem_cons, not_or] at h
    have hc : (c != '\n') = true := by simpa using Ne.symm h.1
    rw [skipGapFrom, if_pos rfl, hc]
    exact ih h.2 (p.advance c)

theorem skipGapFrom_slashes (p : Position) (text : List Char) :
    skipGapFrom false p ('/' :: '/' :: text) = skipGapFrom true (p.advance '/') ('/' :: text) :=
  rfl

/-- A gap is skipped, whatever follows it. -/
theorem Gap.skipGapFrom_append {gap : List Char} (h : Gap gap) (p : Position) (rest : List Char) :
    skipGapFrom false p (gap ++ rest) = skipGapFrom false (p.past gap) rest := by
  induction h generalizing p with
  | nil => rfl
  | @blank c gap hc _ ih =>
    rw [List.cons_append, skipGapFrom, if_neg Bool.false_ne_true, if_pos (isGapChar_iff.2 hc), ih]
    rfl
  | @comment text gap htext _ ih =>
    have hslash : '\n' ∉ '/' :: text := by simpa using htext
    have hcomment := skipGapFrom_comment hslash (p.advance '/') (gap ++ rest)
    have hgap := ih ((p.advance '/').past ('/' :: text))
    rw [List.cons_append, List.cons_append, skipGapFrom_slashes, List.append_assoc,
      List.cons_append]
    refine hcomment.trans ?_
    rw [Position.past_append]
    refine Eq.trans ?_ (hgap.trans ?_)
    · rfl
    · simp

theorem LastGap.skipGapFrom_eq {last : List Char} (h : LastGap last) (p : Position) :
    skipGapFrom false p last = ⟨p.past last, []⟩ := by
  cases h with
  | closed h =>
    have hgap := h.skipGapFrom_append p []
    rwa [List.append_nil] at hgap
  | @comment gap text h htext =>
    have hslash : '\n' ∉ '/' :: text := by simpa using htext
    rw [h.skipGapFrom_append, skipGapFrom_slashes, skipGapFrom_openComment hslash,
      Position.past_append]
    rfl

/-- Skipping `gap` and stopping before `rest` is right: the last gap is skipped only if nothing is
left. -/
def Skippable (rest gap : List Char) : Prop := Gap gap ∨ rest = [] ∧ LastGap gap

/-- The same from inside a comment: its rest is skipped and, unless the text ends there, what stands
behind the line feed. -/
def SkippableInComment (rest gap : List Char) : Prop :=
  ∃ comment, '\n' ∉ comment ∧
    (gap = comment ∧ rest = [] ∨ ∃ behind, gap = comment ++ '\n' :: behind ∧ Skippable rest behind)

theorem Skippable.blank {c : Char} {rest gap : List Char} (hc : IsBlank c)
    (h : Skippable rest gap) : Skippable rest (c :: gap) := by
  rcases h with h | ⟨hnil, h⟩
  · exact .inl (.blank hc h)
  · exact .inr ⟨hnil, h.blank hc⟩

theorem SkippableInComment.cons {c : Char} {rest gap : List Char} (hc : c ≠ '\n')
    (h : SkippableInComment rest gap) : SkippableInComment rest (c :: gap) := by
  obtain ⟨comment, hfree, h⟩ := h
  have hfree' : '\n' ∉ c :: comment := by simpa [eq_comm] using ⟨hc, hfree⟩
  rcases h with ⟨rfl, hnil⟩ | ⟨behind, rfl, hbehind⟩
  · exact ⟨c :: gap, hfree', .inl ⟨rfl, hnil⟩⟩
  · exact ⟨c :: comment, hfree', .inr ⟨behind, rfl, hbehind⟩⟩

/-- A slash in front of a skipped comment that starts with the other slash. -/
private theorem SkippableInComment.skippable {rest gap text : List Char}
    (h : SkippableInComment rest gap) (htext : '/' :: text = gap ++ rest) :
    Skippable rest ('/' :: gap) := by
  obtain ⟨comment, hfree, h⟩ := h
  cases comment with
  | nil =>
    rcases h with ⟨rfl, rfl⟩ | ⟨behind, rfl, -⟩
    · cases htext
    · exact absurd (List.cons.inj htext).1 (by decide)
  | cons c comment =>
    have hfree' : '\n' ∉ comment := fun hmem => hfree (List.mem_cons_of_mem c hmem)
    rcases h with ⟨rfl, rfl⟩ | ⟨behind, rfl, hbehind⟩
    · obtain ⟨rfl, -⟩ := List.cons.inj htext
      exact .inr ⟨rfl, .comment .nil hfree'⟩
    · obtain ⟨rfl, -⟩ := List.cons.inj htext
      rcases hbehind with hbehind | ⟨hnil, hbehind⟩
      · exact .inl (.comment hfree' (.blank (.inr (.inr (.inr rfl))) hbehind))
      · exact .inr ⟨hnil, hbehind.comment_append hfree'⟩

/-- What is skipped from inside a comment and from outside of one. -/
private theorem skippable_skipGapFrom (text : List Char) (p : Position) :
    (∃ gap, text = gap ++ (skipGapFrom false p text).rest ∧
      (skipGapFrom false p text).position = p.past gap ∧
      Skippable (skipGapFrom false p text).rest gap) ∧
    ∃ gap, text = gap ++ (skipGapFrom true p text).rest ∧
      (skipGapFrom true p text).position = p.past gap ∧
      SkippableInComment (skipGapFrom true p text).rest gap := by
  induction text generalizing p with
  | nil =>
    exact ⟨⟨[], rfl, rfl, .inl .nil⟩, ⟨[], rfl, rfl, [], List.not_mem_nil, .inl ⟨rfl, rfl⟩⟩⟩
  | cons c cs ih =>
    obtain ⟨⟨gap, hrest, hplace, hgap⟩, ⟨comment, hrest', hplace', hcomment⟩⟩ := ih (p.advance c)
    constructor
    · by_cases hblank : isGapChar c = true
      · rw [skipGapFrom, if_neg Bool.false_ne_true, if_pos hblank]
        exact ⟨c :: gap, congrArg (c :: ·) hrest, hplace, hgap.blank (isGapChar_iff.1 hblank)⟩
      by_cases hslash : (c == '/' && cs.head? == some '/') = true
      · rw [skipGapFrom, if_neg Bool.false_ne_true, if_neg hblank, if_pos hslash]
        rw [Bool.and_eq_true, beq_iff_eq, beq_iff_eq, List.head?_eq_some_iff] at hslash
        obtain ⟨rfl, cs, rfl⟩ := hslash
        exact ⟨'/' :: comment, congrArg ('/' :: ·) hrest', hplace', hcomment.skippable hrest'⟩
      · rw [skipGapFrom, if_neg Bool.false_ne_true, if_neg hblank, if_neg hslash]
        exact ⟨[], rfl, rfl, .inl .nil⟩
    · by_cases hc : c = '\n'
      · subst hc
        exact ⟨'\n' :: gap, congrArg ('\n' :: ·) hrest, hplace,
          [], List.not_mem_nil, .inr ⟨gap, rfl, hgap⟩⟩
      · have hne : (c != '\n') = true := by simpa using hc
        rw [skipGapFrom, if_pos rfl, hne]
        exact ⟨c :: comment, congrArg (c :: ·) hrest', hplace', hcomment.cons hc⟩

end skip

/-! ## Lexemes are what is read -/

theorem unescape?_eq_some_iff {letter c : Char} :
    unescape? letter = some c ↔ (letter, c) ∈ escapeTable := by
  constructor
  · intro h
    simp only [unescape?, Option.map_eq_some_iff] at h
    obtain ⟨⟨c', letter'⟩, hfind, rfl⟩ := h
    have hmem := List.mem_of_find?_eq_some hfind
    have hletter := List.find?_some hfind
    simp only [beq_iff_eq] at hletter
    subst hletter
    have hall : ∀ entry ∈ escapes, (entry.2, entry.1) ∈ escapeTable := by decide
    exact hall _ hmem
  · have hall : ∀ entry ∈ escapeTable, unescape? entry.1 = some entry.2 := by decide
    exact hall (letter, c)

/-- A quotation is closed behind what stands for its content. -/
private theorem quotation_read_eq_closed {text content taken rest : List Char}
    (h : Quotation.read text = .closed content taken rest) :
    ∃ written, Quoted content written ∧ taken = written ++ ['"'] := by
  fun_induction Quotation.read text generalizing content taken rest with
  | case3 letter text c hletter ih =>
    obtain ⟨content', taken', hread, rfl, rfl⟩ := Quotation.push_eq_closed h
    obtain ⟨written, hquoted, rfl⟩ := ih hread
    exact ⟨_, .escape (unescape?_eq_some_iff.1 hletter) hquoted, rfl⟩
  | case6 text =>
    cases h
    exact ⟨[], .nil, rfl⟩
  | case8 c text hend hescape hquote hline ih =>
    have hbackslash : c ≠ '\\' := by
      intro hc
      cases text with
      | nil => exact hend hc rfl
      | cons letter text => exact hescape letter text hc rfl
    obtain ⟨content', taken', hread, rfl, rfl⟩ := Quotation.push_eq_closed h
    obtain ⟨written, hquoted, rfl⟩ := ih hread
    exact ⟨_, .plain hquote hbackslash hline hquoted, rfl⟩
  | _ => cases h

theorem Quoted.read_append {content text : List Char} (h : Quoted content text)
    (rest : List Char) :
    Quotation.read (text ++ '"' :: rest) = .closed content (text ++ ['"']) rest := by
  induction h with
  | nil => rfl
  | plain hquote hbackslash hline _ ih =>
    rw [List.cons_append, Quotation.read_cons _ hbackslash hquote hline, ih]
    rfl
  | escape hletter _ ih =>
    simp only [List.cons_append, Quotation.read, unescape?_eq_some_iff.2 hletter, ih]
    rfl

/-- A reserved word is found by its spelling. -/
private theorem ofWord_word (k : Keyword) : TokenKind.ofWord k.word = .keyword k := by
  cases k with
  | method m => cases m <;> decide
  | _ => decide

theorem isWord_toList_iff {text : String} : IsWord text.toList ↔ isIdentifier text = true :=
  isIdentifier_iff.symm

theorem isWord_word (k : Keyword) : IsWord k.word.toList := by
  rw [isWord_toList_iff]
  cases k with
  | method m => cases m <;> decide
  | _ => decide

/-- A word spells the reserved word that it is, or else a name. -/
theorem spells_ofWord {text : List Char} (h : IsWord text) :
    Spells (.ofWord (String.ofList text)) text := by
  rw [TokenKind.ofWord]
  split
  · next k hk =>
    have hword := List.find?_some hk
    rw [beq_iff_eq] at hword
    have hspelling := Spells.keyword k
    rwa [hword, String.toList_ofList] at hspelling
  · next hnone =>
    refine .name h fun k hk => Keyword.ofWord?_eq_none_iff.1 hnone k ?_
    rw [← hk, String.ofList_toList]

theorem head?_dropWhile_isWordPart (text : List Char) :
    (text.dropWhile isWordPart).head?.any isWordPart = false := by
  have h := List.head?_dropWhile_not isWordPart text
  cases hhead : (text.dropWhile isWordPart).head? with
  | none => rfl
  | some c =>
    rw [hhead] at h
    exact h

/-- A run that is not followed by a word character is the whole run. -/
theorem span_run {text rest : List Char} (h : ∀ c ∈ text, isWordPart c = true)
    (hrest : rest.head?.any isWordPart = false) :
    (text ++ rest).takeWhile isWordPart = text ∧ (text ++ rest).dropWhile isWordPart = rest := by
  rw [List.takeWhile_append_of_pos h, List.dropWhile_append_of_pos h]
  cases rest with
  | nil => simp
  | cons c rest =>
    rw [List.head?_cons, Option.any_some] at hrest
    simp [hrest]

theorem IsWord.read_append {text rest : List Char} (h : IsWord text)
    (hrest : rest.head?.any isWordPart = false) :
    Lexeme.read (text ++ rest) = ⟨.ok (.ofWord (String.ofList text)), text, rest⟩ := by
  obtain ⟨c, cs, rfl, hstart, hparts⟩ := h
  have hall : ∀ d ∈ c :: cs, isWordPart d = true :=
    List.forall_mem_cons.2 ⟨isWordPart_of_isWordStart hstart, hparts⟩
  obtain ⟨htake, hdrop⟩ := span_run hall hrest
  rw [List.cons_append] at htake hdrop ⊢
  rw [Lexeme.read_of_isWordStart _ hstart, Lexeme.readWord, htake, hdrop]

/-- A spelled token is read, if what follows does not go on with it. -/
theorem Spells.read_append {kind : TokenKind} {text rest : List Char} (h : Spells kind text)
    (hrest : IsRun kind → rest.head?.any isWordPart = false) :
    Lexeme.read (text ++ rest) = ⟨.ok kind, text, rest⟩ := by
  cases h with
  | leftBrace => rfl
  | rightBrace => rfl
  | semicolon => rfl
  | equals => rfl
  | keyword k =>
    rw [(isWord_word k).read_append (hrest trivial), String.ofList_toList, ofWord_word]
  | name hword hfree =>
    have hname : Keyword.ofWord? (String.ofList text) = none := by
      refine Keyword.ofWord?_eq_none_iff.2 fun k hk => hfree k ?_
      rw [hk, String.toList_ofList]
    rw [hword.read_append (hrest trivial), TokenKind.ofWord, hname]
  | number hne hdigits hle =>
    have hall : ∀ c ∈ text, isWordPart c = true := fun c hc =>
      Lexeme.isWordPart_of_isDigit (hdigits c hc)
    obtain ⟨htake, hdrop⟩ := span_run hall (hrest trivial)
    obtain ⟨c, cs, rfl⟩ := List.exists_cons_of_ne_nil hne
    rw [List.cons_append] at htake hdrop ⊢
    rw [Lexeme.read_of_isDigit _ (hdigits c List.mem_cons_self), Lexeme.readNumber, htake, hdrop,
      Lexeme.numberOf, if_pos (List.all_eq_true.2 hdigits)]
    have hmax : Nat.ofDigitChars 10 (c :: cs) 0 ≤ Lexeme.maxNumber := hle
    rw [if_pos hmax]
    rfl
  | string hquoted =>
    rw [List.cons_append, List.append_assoc, Lexeme.read_quote, Lexeme.readString,
      List.singleton_append, hquoted.read_append]
    rfl

/-- What is read as a token is spelled so, and a run is read to its end. -/
theorem spells_of_read {c : Char} {text : List Char} {kind : TokenKind}
    (h : (Lexeme.read (c :: text)).result = .ok kind) :
    Spells kind (Lexeme.read (c :: text)).taken ∧
      (IsRun kind → (Lexeme.read (c :: text)).rest.head?.any isWordPart = false) := by
  rw [Lexeme.read] at h ⊢
  split_ifs at h ⊢ with hopen hclose hsemicolon hequals hquote hdigit hstart
  · cases h
    subst hopen
    exact ⟨.leftBrace, False.elim⟩
  · cases h
    subst hclose
    exact ⟨.rightBrace, False.elim⟩
  · cases h
    subst hsemicolon
    exact ⟨.semicolon, False.elim⟩
  · cases h
    subst hequals
    exact ⟨.equals, False.elim⟩
  · obtain ⟨content, taken, left, hread, rfl⟩ := Lexeme.readString_eq_ok h
    obtain ⟨written, hquoted, rfl⟩ := quotation_read_eq_closed hread
    refine ⟨?_, False.elim⟩
    rw [Lexeme.readString, hread]
    exact .string hquoted
  · have hrun : ((c :: text).takeWhile isWordPart) ≠ [] := by
      simp [Lexeme.isWordPart_of_isDigit hdigit]
    simp only [Lexeme.readNumber, Lexeme.numberOf] at h ⊢
    split_ifs at h with hall hle
    · cases h
      exact ⟨.number hrun (List.all_eq_true.1 hall) hle,
        fun _ => head?_dropWhile_isWordPart _⟩
    · cases h
    · cases h
  · have hword : IsWord ((c :: text).takeWhile isWordPart) := by
      refine ⟨c, text.takeWhile isWordPart, ?_, hstart, ?_⟩
      · simp [isWordPart_of_isWordStart hstart]
      · exact fun d hd => List.mem_takeWhile_imp hd
    cases h
    exact ⟨spells_ofWord hword, fun _ => head?_dropWhile_isWordPart _⟩

theorem Spells.ne_endOfFile {kind : TokenKind} {text : List Char} (h : Spells kind text) :
    kind ≠ .endOfFile := by
  cases h <;> simp

/-! ## Splits are what is tokenized -/

/-- A gap in front of a lexeme is skipped as a whole. -/
theorem skipGapFrom_item {item : Item} {rest : List Char} (hgap : Gap item.gap)
    (hspells : Spells item.kind item.text)
    (hrest : IsRun item.kind → rest.head?.any isWordPart = false) (p : Position) :
    Cursor.skipGapFrom false p (item.gap ++ (item.text ++ rest)) =
      ⟨p.past item.gap, item.text ++ rest⟩ := by
  rw [hgap.skipGapFrom_append, Cursor.skipGapFrom_of_read (by rw [hspells.read_append hrest])]

/-- A pull in front of a gap and a lexeme. -/
theorem next_append {item : Item} {rest : List Char} (hgap : Gap item.gap)
    (hspells : Spells item.kind item.text)
    (hrest : IsRun item.kind → rest.head?.any isWordPart = false) (before : List Char) :
    Cursor.next ⟨Position.ofText before, item.gap ++ (item.text ++ rest)⟩ =
      (.ok ⟨item.kind, spanOf (before ++ item.gap) item.text⟩,
        ⟨Position.ofText (before ++ (item.gap ++ item.text)), rest⟩) := by
  simp only [Cursor.next, Cursor.skipGap, skipGapFrom_item hgap hspells hrest,
    hspells.read_append hrest, Position.past_ofText, spanOf, List.append_assoc]

theorem next_last {last : List Char} (h : LastGap last) (before : List Char) :
    Cursor.next ⟨Position.ofText before, last⟩ =
      (.ok ⟨.endOfFile, spanOf (before ++ last) []⟩, ⟨Position.ofText (before ++ last), []⟩) := by
  have hskip : Cursor.skipGap ⟨Position.ofText before, last⟩ =
      ⟨Position.ofText (before ++ last), []⟩ := by
    rw [Cursor.skipGap, h.skipGapFrom_eq, Position.past_ofText]
  simp only [Cursor.next, hskip, Lexeme.read, Position.past_nil, spanOf, List.append_nil]

/-- A text that splits is tokenized as its split says. -/
theorem Splits.tokens_eq {items : List Item} {last text : List Char} (h : Splits items last text)
    (before : List Char) :
    (Cursor.tokens ⟨Position.ofText before, text⟩).1 = .ok (tokensAfter before items last) := by
  induction h generalizing before with
  | nil hlast =>
    rw [Cursor.tokens_of_ok (next_last hlast before), if_pos rfl]
    rfl
  | cons hgap hspells hrest _ ih =>
    rw [Cursor.tokens_of_ok (next_append hgap hspells hrest before), if_neg hspells.ne_endOfFile,
      ih]
    rfl

/-- What a pull of a token takes is the last gap, or a gap and a lexeme. -/
theorem exists_item_of_next {cursor after : Cursor} {token : Token}
    (h : cursor.next = (.ok token, after)) :
    (token.kind = .endOfFile ∧ LastGap cursor.rest) ∨
    ∃ item : Item, token.kind = item.kind ∧ Gap item.gap ∧ Spells item.kind item.text ∧
      (IsRun item.kind → after.rest.head?.any isWordPart = false) ∧
      cursor.rest = item.gap ++ (item.text ++ after.rest) := by
  obtain ⟨gap, hrest, -, hgap⟩ := (skippable_skipGapFrom cursor.rest cursor.position).1
  change cursor.rest = gap ++ cursor.skipGap.rest at hrest
  change Skippable cursor.skipGap.rest gap at hgap
  simp only [Cursor.next, Prod.mk.injEq] at h
  obtain ⟨hpull, rfl⟩ := h
  split at hpull
  · next kind hread =>
    cases hpull
    cases htext : cursor.skipGap.rest with
    | nil =>
      rw [htext] at hread hrest hgap
      cases hread
      rw [hrest, List.append_nil]
      rcases hgap with hgap | ⟨-, hgap⟩
      · exact .inl ⟨rfl, .closed hgap⟩
      · exact .inl ⟨rfl, hgap⟩
    | cons c text =>
      rw [htext] at hread hrest hgap
      obtain ⟨hspells, hrun⟩ := spells_of_read hread
      have hgap' : Gap gap := hgap.resolve_right fun hlast => List.cons_ne_nil c text hlast.1
      refine .inr ⟨⟨gap, kind, _⟩, rfl, hgap', hspells, hrun, ?_⟩
      rw [Lexeme.taken_append_rest]
      exact hrest
  · cases hpull

/-- A text that is pulled to its end splits. -/
theorem exists_splits {cursor last after : Cursor} {tokens : List Token} {final : Token}
    (h : Cursor.Yields cursor tokens last) (hnext : last.next = (.ok final, after))
    (hend : final.kind = .endOfFile) : ∃ items gap, Splits items gap cursor.rest := by
  induction h with
  | refl cursor =>
    rcases exists_item_of_next hnext with ⟨-, hgap⟩ | ⟨item, hkind, -, hspells, -⟩
    · exact ⟨[], _, .nil hgap⟩
    · exact absurd (hkind.symm.trans hend) hspells.ne_endOfFile
  | pull hfirst hne _ ih =>
    obtain ⟨items, gap, hsplits⟩ := ih hnext
    rcases exists_item_of_next hfirst with ⟨hkind, -⟩ | ⟨item, -, hgap, hspells, hrun, hrest⟩
    · exact absurd hkind hne
    · rw [hrest]
      exact ⟨item :: items, gap, .cons hgap hspells hrun hsplits⟩

/-- A text that is tokenized splits, and its tokens are those of the split. -/
theorem exists_splits_of_tokenize {source : String} {tokens : List Token}
    (h : tokenize source = .ok tokens) :
    ∃ items last, Splits items last source.toList ∧ tokens = tokensAfter [] items last := by
  obtain ⟨_, _, _, _, hyields, hnext, hend, -⟩ := Cursor.tokenize_eq_ok_iff.1 h
  obtain ⟨items, last, hsplits⟩ := exists_splits hyields hnext hend
  have hsource : tokenize source = .ok (tokensAfter [] items last) := hsplits.tokens_eq []
  exact ⟨items, last, hsplits, Except.ok.inj (h.symm.trans hsource)⟩

/-- No text is both a last gap and a gap with a lexeme behind it. -/
theorem LastGap.ne_append {item : Item} {last rest : List Char} (h : LastGap last)
    (hgap : Gap item.gap) (hspells : Spells item.kind item.text)
    (hrest : IsRun item.kind → rest.head?.any isWordPart = false) :
    last ≠ item.gap ++ (item.text ++ rest) := by
  intro htext
  have hlast := next_last h []
  rw [htext, next_append hgap hspells hrest []] at hlast
  simp only [Prod.mk.injEq, Except.ok.injEq, Token.mk.injEq] at hlast
  exact hspells.ne_endOfFile hlast.1.1

/-- The first gap and lexeme of a text are what skipping and reading find there. -/
theorem item_unique {item item' : Item} {rest rest' : List Char} (hgap : Gap item.gap)
    (hspells : Spells item.kind item.text)
    (hrest : IsRun item.kind → rest.head?.any isWordPart = false) (hgap' : Gap item'.gap)
    (hspells' : Spells item'.kind item'.text)
    (hrest' : IsRun item'.kind → rest'.head?.any isWordPart = false)
    (htext : item.gap ++ (item.text ++ rest) = item'.gap ++ (item'.text ++ rest')) :
    item = item' ∧ rest = rest' := by
  have hskip := skipGapFrom_item hgap hspells hrest {}
  rw [htext, skipGapFrom_item hgap' hspells' hrest' {}, Cursor.mk.injEq] at hskip
  have hread := hspells.read_append hrest
  rw [← hskip.2, hspells'.read_append hrest', Lexeme.mk.injEq, Except.ok.injEq] at hread
  rw [← hskip.2] at htext
  have hgaps := List.append_cancel_right htext
  obtain ⟨gap, kind, text⟩ := item
  obtain ⟨gap', kind', text'⟩ := item'
  obtain ⟨hkind, htaken, hleft⟩ := hread
  exact ⟨Item.mk.injEq .. ▸ ⟨hgaps, hkind.symm, htaken.symm⟩, hleft.symm⟩

/-- A text splits in at most one way. -/
theorem Splits.unique {items items' : List Item} {last last' text : List Char}
    (h : Splits items last text) (h' : Splits items' last' text) :
    items = items' ∧ last = last' := by
  induction h generalizing items' last' with
  | @nil last hlast =>
    generalize htext : last = text at h'
    cases h' with
    | nil => exact ⟨rfl, rfl⟩
    | cons hgap hspells hrest _ => exact absurd htext (hlast.ne_append hgap hspells hrest)
  | @cons item items last rest hgap hspells hrest _ ih =>
    generalize htext : item.gap ++ (item.text ++ rest) = text at h'
    cases h' with
    | nil hlast => exact absurd htext.symm (hlast.ne_append hgap hspells hrest)
    | cons hgap' hspells' hrest' hmore =>
      obtain ⟨rfl, rfl⟩ := item_unique hgap hspells hrest hgap' hspells' hrest' htext
      obtain ⟨rfl, rfl⟩ := ih hmore
      exact ⟨rfl, rfl⟩

/-- Tokenizing is splitting, and there is one split at most. -/
theorem tokenize_iff_splits (source : String) :
    (∀ tokens, tokenize source = .ok tokens ↔
      ∃ items last, Splits items last source.toList ∧ tokens = tokensAfter [] items last) ∧
    ∀ items items' last last', Splits items last source.toList →
      Splits items' last' source.toList → items = items' ∧ last = last' := by
  refine ⟨fun tokens => ⟨exists_splits_of_tokenize, ?_⟩, fun _ _ _ _ h h' => h.unique h'⟩
  rintro ⟨items, last, hitems, rfl⟩
  exact hitems.tokens_eq []

end Lexical

end HttpSuite
