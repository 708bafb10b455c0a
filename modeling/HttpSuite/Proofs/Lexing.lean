import HttpSuite.Proofs.Escape
import HttpSuite.Proofs.Pulls
import Mathlib.Data.List.TakeWhile

/-!
# Texts put together from lexemes

A text without comments is read lexeme by lexeme, and where one text ends and another begins only
a word or a number can be read differently: it might go on into the second text.  So texts that are
parted by any other character can be joined, and the tokens of the whole are those of its parts.

## Main definitions

* `Lexes`: a text is blanks and the lexemes of given tokens.
* `Parted`: no word runs on from one text into another.

## Main results

* `Lexes.kinds_eq`: what a text lexes to is what it is tokenized to.
* `Lexes.append`: parted texts can be joined.
* `Lexes.literal`, `Lexes.word`, `Lexes.number`, `Lexes.quote`: fixed texts, words, numbers and
  quotations in front of a text.
* `Lexeme.lexical_of_read`: the names and numbers that can be tokens.
-/

namespace HttpSuite

open Text

/-! ## Lexemes in front of a text -/

/-- No word runs on from the end of the first text into the second. -/
def Parted (text rest : List Char) : Prop :=
  text.getLast?.any isWordPart = false ∨ rest.head?.any isWordPart = false

/-- The end of a text is parted from what the whole text is parted from. -/
theorem Parted.of_append {lead text rest : List Char} (h : Parted (lead ++ text) rest) :
    Parted text rest := by
  rcases h with h | h
  · cases hlast : text.getLast? with
    | none => exact .inl (by rw [hlast]; rfl)
    | some c =>
      rw [List.getLast?_append, hlast] at h
      exact .inl (by rw [hlast]; exact h)
  · exact .inr h

/-- A run of word characters does not go on across the end of a text. -/
theorem Parted.span_eq {text rest : List Char} (h : Parted text rest) (hne : text ≠ []) :
    (text ++ rest).takeWhile isWordPart = text.takeWhile isWordPart ∧
      (text ++ rest).dropWhile isWordPart = text.dropWhile isWordPart ++ rest := by
  by_cases hall : ∀ c ∈ text, isWordPart c = true
  · have hstop : rest.head?.any isWordPart = false := by
      rcases h with h | h
      · have hlast := hall _ (List.getLast_mem hne)
        rw [List.getLast?_eq_some_getLast hne, Option.any_some, hlast] at h
        cases h
      · exact h
    rw [List.takeWhile_append_of_pos hall, List.dropWhile_append_of_pos hall,
      List.dropWhile_eq_nil_iff.2 hall]
    rw [List.takeWhile_eq_self_iff.2 hall]
    cases rest with
    | nil => exact ⟨List.append_nil _, rfl⟩
    | cons c rest =>
      rw [List.head?_cons, Option.any_some] at hstop
      simp [hstop]
  · have hleft : text.dropWhile isWordPart ≠ [] := fun hnil =>
      hall (List.dropWhile_eq_nil_iff.1 hnil)
    have hlength := congrArg List.length
      (List.takeWhile_append_dropWhile (p := isWordPart) (l := text))
    have hpos := List.length_pos_iff.2 hleft
    rw [List.length_append] at hlength
    rw [List.takeWhile_append, List.dropWhile_append, if_neg (by omega),
      if_neg (by simpa using hleft)]
    exact ⟨rfl, rfl⟩

theorem Quotation.push_eq_closed {c : Char} {written content taken left : List Char}
    {q : Quotation} (h : q.push c written = closed content taken left) :
    ∃ content' taken', q = closed content' taken' left ∧ content = c :: content' ∧
      taken = written ++ taken' := by
  cases q with
  | closed content' taken' left' =>
    cases h
    exact ⟨content', taken', rfl, rfl, rfl⟩
  | unterminated => cases h
  | unknownEscape => cases h

/-- A quotation that is closed is not changed by what follows it. -/
theorem Quotation.read_append {text content taken left : List Char} (rest : List Char)
    (h : read text = closed content taken left) :
    read (text ++ rest) = closed content taken (left ++ rest) := by
  fun_induction read text generalizing content taken left with
  | case3 letter text c hletter ih =>
    obtain ⟨content', taken', hread, rfl, rfl⟩ := push_eq_closed h
    simp only [List.cons_append, read, hletter, ih hread]
    rfl
  | case6 text =>
    cases h
    rfl
  | case8 c text hend hescape hquote hline ih =>
    have hbackslash : c ≠ '\\' := by
      intro hc
      cases text with
      | nil => exact hend hc rfl
      | cons letter text => exact hescape letter text hc rfl
    obtain ⟨content', taken', hread, rfl, rfl⟩ := push_eq_closed h
    rw [List.cons_append, read_cons _ hbackslash hquote hline, ih hread]
    rfl
  | _ => cases h

namespace Lexeme

/-- A letter or an underscore starts a word. -/
theorem read_of_isWordStart {c : Char} (text : List Char) (h : isWordStart c = true) :
    read (c :: text) = readWord (c :: text) := by
  have hne (d : Char) (hd : isWordStart d = false) : c ≠ d := by
    intro hc
    rw [hc, hd] at h
    cases h
  have hdigit : c.isDigit = false := by
    by_cases hunder : c = '_'
    · rw [hunder]
      rfl
    · delta isWordStart Char.isAlpha Char.isUpper Char.isLower at h
      grind [Char.isDigit]
  rw [read, if_neg (hne _ rfl), if_neg (hne _ rfl), if_neg (hne _ rfl), if_neg (hne _ rfl),
    if_neg (hne _ rfl), if_neg (by rw [hdigit]; exact Bool.false_ne_true), if_pos h]

/-- A digit starts a number. -/
theorem read_of_isDigit {c : Char} (text : List Char) (h : c.isDigit = true) :
    read (c :: text) = readNumber (c :: text) := by
  have hne (d : Char) (hd : d.isDigit = false) : c ≠ d := by
    intro hc
    rw [hc, hd] at h
    cases h
  rw [read, if_neg (hne _ rfl), if_neg (hne _ rfl), if_neg (hne _ rfl), if_neg (hne _ rfl),
    if_neg (hne _ rfl), if_pos h]

theorem read_quote (text : List Char) : read ('"' :: text) = readString text := by
  simp only [read, Char.reduceEq, reduceIte]

/-- A written quotation is read back, and nothing of what follows it. -/
theorem read_toList_quote (content : String) (text : List Char) :
    read ((quote content).toList ++ text) =
      ⟨.ok (.string content), (quote content).toList, text⟩ := by
  rw [toList_quote, List.cons_append, List.append_assoc, read_quote, readString]
  simp only [List.cons_append, List.nil_append, Quotation.read_escapeChars, Quotation.taken,
    Quotation.rest, String.ofList_toList]

/-- A string whose quotation is closed. -/
theorem readString_eq_ok {text : List Char} {kind : TokenKind}
    (h : (readString text).result = .ok kind) :
    ∃ content taken left, Quotation.read text = .closed content taken left ∧
      kind = .string (String.ofList content) := by
  unfold readString at h
  cases hread : Quotation.read text with
  | closed content taken left =>
    rw [hread] at h
    cases h
    exact ⟨content, taken, left, rfl, rfl⟩
  | unterminated =>
    rw [hread] at h
    cases h
  | unknownEscape =>
    rw [hread] at h
    cases h

/-- The first character decides what is read: a mark, a string, a number, a word, or nothing. -/
theorem read_cons_cases (c : Char) :
    (∃ kind ∈ [TokenKind.leftBrace, .rightBrace, .semicolon, .equals],
      ∀ text, read (c :: text) = ⟨.ok kind, [c], text⟩) ∨
    (∀ text, read (c :: text) = readString text) ∨
    (c.isDigit = true ∧ ∀ text, read (c :: text) = readNumber (c :: text)) ∨
    (isWordStart c = true ∧ ∀ text, read (c :: text) = readWord (c :: text)) ∨
    ∀ text, read (c :: text) = ⟨.error ([], .illegalCharacter c), [], c :: text⟩ := by
  by_cases hopen : c = '\x7b'
  · exact .inl ⟨.leftBrace, by decide, fun text => by rw [read, if_pos hopen]⟩
  by_cases hclose : c = '\x7d'
  · exact .inl ⟨.rightBrace, by decide, fun text => by rw [read, if_neg hopen, if_pos hclose]⟩
  by_cases hsemicolon : c = ';'
  · refine .inl ⟨.semicolon, by decide, fun text => ?_⟩
    rw [read, if_neg hopen, if_neg hclose, if_pos hsemicolon]
  by_cases hequals : c = '='
  · refine .inl ⟨.equals, by decide, fun text => ?_⟩
    rw [read, if_neg hopen, if_neg hclose, if_neg hsemicolon, if_pos hequals]
  by_cases hquote : c = '"'
  · refine .inr (.inl fun text => ?_)
    rw [read, if_neg hopen, if_neg hclose, if_neg hsemicolon, if_neg hequals, if_pos hquote]
  by_cases hdigit : c.isDigit = true
  · exact .inr (.inr (.inl ⟨hdigit, fun text => read_of_isDigit text hdigit⟩))
  by_cases hstart : isWordStart c = true
  · exact .inr (.inr (.inr (.inl ⟨hstart, fun text => read_of_isWordStart text hstart⟩)))
  · refine .inr (.inr (.inr (.inr fun text => ?_)))
    rw [read, if_neg hopen, if_neg hclose, if_neg hsemicolon, if_neg hequals, if_neg hquote,
      if_neg hdigit, if_neg hstart]

/-- A lexeme is read as it is in front of a text that it is parted from. -/
theorem read_append {text rest : List Char} {kind : TokenKind} (h : (read text).result = .ok kind)
    (hne : kind ≠ .endOfFile) (hparted : Parted text rest) :
    (read (text ++ rest)).result = .ok kind ∧
      (read (text ++ rest)).rest = (read text).rest ++ rest := by
  cases text with
  | nil =>
    cases h
    exact absurd rfl hne
  | cons c text =>
    obtain ⟨htake, hdrop⟩ := hparted.span_eq (List.cons_ne_nil c text)
    rw [List.cons_append] at htake hdrop ⊢
    rcases read_cons_cases c with ⟨mark, -, hread⟩ | hread | ⟨-, hread⟩ | ⟨-, hread⟩ | hread
    · rw [hread] at h ⊢
      rw [hread]
      exact ⟨h, rfl⟩
    · rw [hread] at h ⊢
      rw [hread]
      obtain ⟨content, taken, left, hclosed, rfl⟩ := readString_eq_ok h
      have happend := Quotation.read_append rest hclosed
      simp only [readString, hclosed, happend, Quotation.rest, and_self]
    · rw [hread] at h ⊢
      rw [hread]
      simp only [readNumber, htake, hdrop] at h ⊢
      exact ⟨h, trivial⟩
    · rw [hread] at h ⊢
      rw [hread]
      simp only [readWord, htake, hdrop] at h ⊢
      exact ⟨h, trivial⟩
    · rw [hread] at h
      cases h

end Lexeme

/-! ## What can be a token -/

theorem Keyword.ofWord?_eq_none_iff {text : String} :
    Keyword.ofWord? text = none ↔ ∀ k : Keyword, k.word ≠ text := by
  rw [ofWord?, List.find?_eq_none]
  constructor
  · intro h k
    simpa using h k k.mem_all
  · intro h k _
    simpa using h k

/-- A text that can be a name: a word that is not reserved. -/
def IsName (text : String) : Prop := isIdentifier text = true ∧ ∀ k : Keyword, k.word ≠ text

instance (text : String) : Decidable (IsName text) :=
  decidable_of_iff (isIdentifier text = true ∧ Keyword.ofWord? text = none)
    (and_congr_right fun _ => Keyword.ofWord?_eq_none_iff)

theorem IsName.ofWord_eq {text : String} (h : IsName text) :
    TokenKind.ofWord text = .identifier text := by
  rw [TokenKind.ofWord, Keyword.ofWord?_eq_none_iff.2 h.2]

/-- What a token can be that some characters make. -/
def TokenKind.Lexical : TokenKind → Prop
  | identifier name => IsName name
  | number value => 0 ≤ value.toInt
  | _ => True

theorem TokenKind.lexical_ofWord {text : String} (h : isIdentifier text = true) :
    (TokenKind.ofWord text).Lexical := by
  rw [TokenKind.ofWord]
  split
  · trivial
  · next hnone => exact ⟨h, Keyword.ofWord?_eq_none_iff.1 hnone⟩

namespace Lexeme

/-- A number is one that the source language can write. -/
theorem readNumber_eq_ok {text : List Char} {kind : TokenKind}
    (h : (readNumber text).result = .ok kind) :
    ∃ value, value ≤ maxNumber ∧ kind = .number (Int64.ofNat value) := by
  simp only [readNumber, numberOf] at h
  split at h
  · split at h
    · next hle =>
      cases h
      exact ⟨_, hle, rfl⟩
    · cases h
  · cases h

theorem toInt_ofNat_of_le {value : Nat} (h : value ≤ maxNumber) :
    (Int64.ofNat value).toInt = value :=
  Int64.toInt_ofNat_of_lt (Nat.lt_succ_of_le h)

/-- The run of a word is one. -/
theorem isIdentifier_takeWhile {c : Char} (text : List Char) (h : isWordStart c = true) :
    isIdentifier (String.ofList ((c :: text).takeWhile isWordPart)) = true := by
  rw [List.takeWhile_cons, if_pos (isWordPart_of_isWordStart h)]
  simp only [isIdentifier, String.toList_ofList, h, Bool.true_and, List.all_takeWhile]

/-- Every token is one that characters can make. -/
theorem lexical_of_read {text : List Char} {kind : TokenKind} (h : (read text).result = .ok kind) :
    kind.Lexical := by
  cases text with
  | nil =>
    cases h
    trivial
  | cons c text =>
    rcases read_cons_cases c with
      ⟨mark, hmark, hread⟩ | hread | ⟨-, hread⟩ | ⟨hstart, hread⟩ | hread
    · rw [hread] at h
      cases h
      simp only [List.mem_cons, List.not_mem_nil, or_false] at hmark
      rcases hmark with rfl | rfl | rfl | rfl <;> trivial
    · rw [hread] at h
      obtain ⟨content, taken, left, -, rfl⟩ := readString_eq_ok h
      trivial
    · rw [hread] at h
      obtain ⟨value, hle, rfl⟩ := readNumber_eq_ok h
      show 0 ≤ (Int64.ofNat value).toInt
      rw [toInt_ofNat_of_le hle]
      exact Int.natCast_nonneg value
    · rw [hread] at h
      cases h
      exact TokenKind.lexical_ofWord (isIdentifier_takeWhile text hstart)
    · rw [hread] at h
      cases h

end Lexeme

/-! ## Pulling lexemes -/

/-- The text is blanks and the lexemes of these tokens, without comments. -/
inductive Lexes : List Char → List TokenKind → Prop
  | done : Lexes [] []
  | gap {c : Char} {text : List Char} {w : List TokenKind} :
    Cursor.isGapChar c = true → Lexes text w → Lexes (c :: text) w
  | token {text : List Char} {kind : TokenKind} {w : List TokenKind} :
    (Lexeme.read text).result = .ok kind → kind ≠ .endOfFile → Lexes (Lexeme.read text).rest w →
    Lexes text (kind :: w)

namespace Cursor

/-- No gap stands in front of a lexeme. -/
theorem skipGapFrom_of_read {text : List Char} {kind : TokenKind}
    (h : (Lexeme.read text).result = .ok kind) (p : Position) :
    skipGapFrom false p text = ⟨p, text⟩ := by
  cases text with
  | nil => rfl
  | cons c text =>
    have hne (d : Char) (hd : (Lexeme.read (d :: text)).result = .error ([], .illegalCharacter d)) :
        c ≠ d := by
      intro hc
      subst hc
      rw [hd] at h
      cases h
    have hgap : isGapChar c = false := by
      simp [isGapChar, hne ' ' rfl, hne '\t' rfl, hne '\r' rfl, hne '\n' rfl]
    have hslash : (c == '/') = false := by simpa using hne '/' rfl
    simp [skipGapFrom, hgap, hslash]

theorem next_of_read {text : List Char} {kind : TokenKind} (p : Position)
    (h : (Lexeme.read text).result = .ok kind) :
    ∃ span place, next ⟨p, text⟩ = (.ok ⟨kind, span⟩, ⟨place, (Lexeme.read text).rest⟩) := by
  simp only [next, skipGap, skipGapFrom_of_read h, h]
  exact ⟨_, _, rfl⟩

/-- A blank in front of a text is skipped. -/
theorem next_gap {c : Char} (h : isGapChar c = true) (p : Position) (text : List Char) :
    next ⟨p, c :: text⟩ = next ⟨p.advance c, text⟩ := by
  have hskip : skipGap ⟨p, c :: text⟩ = skipGap ⟨p.advance c, text⟩ := by
    simp [skipGap, skipGapFrom, h]
  unfold next
  rw [hskip]

end Cursor

/-- What a text lexes to can be pulled from it, wherever it stands. -/
theorem Lexes.exists_yields {text : List Char} {w : List TokenKind} (h : Lexes text w)
    (p : Position) : ∃ tokens last final after, Cursor.Yields ⟨p, text⟩ tokens last ∧
      last.next = (.ok final, after) ∧ final.kind = .endOfFile ∧ tokens.map Token.kind = w := by
  induction h generalizing p with
  | done => exact ⟨[], ⟨p, []⟩, _, _, .refl _, rfl, rfl, rfl⟩
  | @gap c text w hc _ ih =>
    obtain ⟨tokens, last, final, after, hyields, hnext, hend, hkinds⟩ := ih (p.advance c)
    cases hyields with
    | refl => exact ⟨[], ⟨p, c :: text⟩, final, after, .refl _, Cursor.next_gap hc p text ▸ hnext,
        hend, hkinds⟩
    | pull hfirst hne hmore =>
      rw [← Cursor.next_gap hc] at hfirst
      exact ⟨_, last, final, after, .pull hfirst hne hmore, hnext, hend, hkinds⟩
  | @token text kind w hread hne _ ih =>
    obtain ⟨span, place, hfirst⟩ := Cursor.next_of_read p hread
    obtain ⟨tokens, last, final, after, hyields, hnext, hend, rfl⟩ := ih place
    exact ⟨_, last, final, after, .pull hfirst hne hyields, hnext, hend, rfl⟩

/-- What a text lexes to is what it is tokenized to. -/
theorem Lexes.kinds_eq {source : String} {w : List TokenKind} (h : Lexes source.toList w) :
    (tokenize source).map (List.map Token.kind) = .ok (w ++ [.endOfFile]) :=
  Cursor.kinds_eq_ok_iff.2 (h.exists_yields {})

/-- Tokens that are pulled are such as characters can make. -/
theorem Cursor.Yields.lexical {cursor last : Cursor} {tokens : List Token}
    (h : Yields cursor tokens last) : ∀ kind ∈ tokens.map Token.kind, kind.Lexical := by
  induction h with
  | refl => simp
  | @pull cursor after last token tokens hnext hne _ ih =>
    have hfirst : token.kind.Lexical := by
      simp only [next, Prod.mk.injEq] at hnext
      obtain ⟨hpull, -⟩ := hnext
      split at hpull
      · next kind hread =>
        cases hpull
        exact Lexeme.lexical_of_read hread
      · cases hpull
    simpa using ⟨hfirst, by simpa using ih⟩

/-! ## Putting texts together -/

namespace Lexes

/-- Parted texts can be joined. -/
theorem append {text rest : List Char} {v w : List TokenKind} (h : Lexes text v)
    (hparted : Parted text rest) (hrest : Lexes rest w) : Lexes (text ++ rest) (v ++ w) := by
  induction h with
  | done => exact hrest
  | @gap c text v hc _ ih =>
    have hcons : Parted ([c] ++ text) rest := hparted
    exact .gap hc (ih hcons.of_append)
  | @token text kind v hread hne _ ih =>
    obtain ⟨hresult, hleft⟩ := Lexeme.read_append hread hne hparted
    rw [← Lexeme.taken_append_rest text] at hparted
    refine .token hresult hne ?_
    rw [hleft]
    exact ih hparted.of_append

/-- A text that is one lexeme. -/
theorem single {text : List Char} {kind : TokenKind} (h : (Lexeme.read text).result = .ok kind)
    (hne : kind ≠ .endOfFile) (hrest : (Lexeme.read text).rest = []) : Lexes text [kind] :=
  .token h hne (hrest ▸ .done)

theorem of_isIdentifier {name : String} (h : isIdentifier name = true) :
    Lexes name.toList [.ofWord name] := by
  obtain ⟨c, text, hname, hstart, -⟩ := isIdentifier_iff.1 h
  have hall := isWordPart_of_isIdentifier h
  rw [hname] at hall ⊢
  have hread : Lexeme.read (c :: text) = ⟨.ok (.ofWord name), c :: text, []⟩ := by
    simp only [Lexeme.read_of_isWordStart text hstart, Lexeme.readWord,
      List.takeWhile_eq_self_iff.2 hall, List.dropWhile_eq_nil_iff.2 hall]
    rw [← hname, String.ofList_toList]
  refine single (by rw [hread]) ?_ (by rw [hread])
  rw [TokenKind.ofWord]
  split <;> simp

theorem toDigits {n : Nat} (h : n ≤ Lexeme.maxNumber) :
    Lexes (Nat.toDigits 10 n) [.number (Int64.ofNat n)] := by
  have hdigits : ∀ c ∈ Nat.toDigits 10 n, c.isDigit = true := fun c hc =>
    Nat.isDigit_of_mem_toDigits (by decide) (by decide) hc
  have hall : ∀ c ∈ Nat.toDigits 10 n, isWordPart c = true := fun c hc =>
    Lexeme.isWordPart_of_isDigit (hdigits c hc)
  have hread : Lexeme.read (Nat.toDigits 10 n) =
      ⟨.ok (.number (Int64.ofNat n)), Nat.toDigits 10 n, []⟩ := by
    cases hlist : Nat.toDigits 10 n with
    | nil => exact absurd hlist Nat.toDigits_ne_nil
    | cons c text =>
      rw [hlist] at hdigits hall
      have hvalue : Nat.ofDigitChars 10 (c :: text) 0 = n := by
        rw [← hlist, Nat.ofDigitChars_ten_toDigits]
      simp only [Lexeme.read_of_isDigit text (hdigits c List.mem_cons_self), Lexeme.readNumber,
        Lexeme.numberOf, List.takeWhile_eq_self_iff.2 hall, List.dropWhile_eq_nil_iff.2 hall,
        if_pos (List.all_eq_true.2 hdigits), hvalue, if_pos h]
      rfl
  exact single (by rw [hread]) (by simp) (by rw [hread])

/-- A text that does not end in a word in front of another. -/
theorem literal {lead : String} {v w : List TokenKind} {text : List Char}
    (hlead : Lexes lead.toList v) (hlast : lead.toList.getLast?.any isWordPart = false)
    (h : Lexes text w) : Lexes (lead.toList ++ text) (v ++ w) :=
  hlead.append (.inl hlast) h

/-- A word in front of a text that does not go on with it. -/
theorem word {name : String} {w : List TokenKind} {text : List Char}
    (hname : isIdentifier name = true) (hparted : text.head?.any isWordPart = false)
    (h : Lexes text w) : Lexes (name.toList ++ text) (.ofWord name :: w) :=
  (of_isIdentifier hname).append (.inr hparted) h

/-- A number in front of a text that does not go on with it. -/
theorem number {value : Int64} {w : List TokenKind} {text : List Char}
    (hvalue : 0 ≤ value.toInt) (hparted : text.head?.any isWordPart = false)
    (h : Lexes text w) : Lexes ((toString value.toInt).toList ++ text) (.number value :: w) := by
  obtain ⟨n, hn⟩ := Int.eq_ofNat_of_zero_le hvalue
  have hle : n ≤ Lexeme.maxNumber := by
    have hlt := value.toInt_lt
    rw [hn] at hlt
    unfold Lexeme.maxNumber
    omega
  have hsame : Int64.ofNat n = value := by
    rw [← Int64.toInt_inj, Lexeme.toInt_ofNat_of_le hle, hn]
  have hdigits : (toString value.toInt).toList = Nat.toDigits 10 n := by
    rw [hn]
    exact Nat.toList_repr
  rw [hdigits, ← hsame]
  exact (toDigits hle).append (.inr hparted) h

/-- A quotation in front of a text. -/
theorem quote {content : String} {w : List TokenKind} {text : List Char} (h : Lexes text w) :
    Lexes ((Text.quote content).toList ++ text) (.string content :: w) := by
  have hread := Lexeme.read_toList_quote content text
  exact .token (by rw [hread]) (by simp) (by rw [hread]; exact h)

end Lexes

end HttpSuite
