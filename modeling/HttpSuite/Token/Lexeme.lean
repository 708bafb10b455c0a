import HttpSuite.Text.Escape
import HttpSuite.Text.Word
import HttpSuite.Token
import HttpSuite.Token.Error

/-!
# Lexemes

Reads the one lexeme that a text starts with. Nothing here knows of lines or offsets: a lexeme is
the run of characters that was taken, the rest, and either the token it makes or the reason why it
makes none.

## Main definitions

* `Quotation.read`: the text after an opening quote, up to the closing one.
* `Lexeme.read`: the lexeme at the start of a text.

## Main results

* `Lexeme.taken_append_rest`: the two parts of a lexeme are the text it was read from.
* `Lexeme.length_rest_lt`: every token but the end of the text takes at least one character.
-/

namespace HttpSuite

/-- How the text after an opening quote goes on. -/
inductive Quotation where
  /-- A closing quote was reached; `taken` includes it. -/
  | closed (content taken rest : List Char)
  /-- The line or the text ended first. -/
  | unterminated (taken rest : List Char)
  /-- A backslash stands after `lead`, and `c`, which starts the rest, is no escape. -/
  | unknownEscape (c : Char) (lead rest : List Char)
deriving DecidableEq, Repr

namespace Quotation

/-- The quotation that starts with one more character `c`, written as `written`. -/
def push (c : Char) (written : List Char) : Quotation → Quotation
  | closed content taken rest => closed (c :: content) (written ++ taken) rest
  | unterminated taken rest => unterminated (written ++ taken) rest
  | unknownEscape d lead rest => unknownEscape d (written ++ lead) rest

/-- Reads the text after an opening quote. -/
def read : List Char → Quotation
  | [] => unterminated [] []
  | ['\\'] => unterminated ['\\'] []
  | '\\' :: letter :: text =>
    match Text.unescape? letter with
    | some c => (read text).push c ['\\', letter]
    | none =>
      if letter = '\n' then unterminated ['\\'] (letter :: text)
      else unknownEscape letter [] (letter :: text)
  | c :: text =>
    if c = '"' then closed [] ['"'] text
    else if c = '\n' then unterminated [] (c :: text)
    else (read text).push c [c]

/-- The characters that were read past. -/
def taken : Quotation → List Char
  | closed _ taken _ => taken
  | unterminated taken _ => taken
  | unknownEscape _ lead _ => lead ++ ['\\']

/-- The characters that are left. -/
def rest : Quotation → List Char
  | closed _ _ rest => rest
  | unterminated _ rest => rest
  | unknownEscape _ _ rest => rest

@[simp] theorem taken_push (c : Char) (written : List Char) (q : Quotation) :
    (q.push c written).taken = written ++ q.taken := by
  cases q <;> simp [push, taken]

@[simp] theorem rest_push (c : Char) (written : List Char) (q : Quotation) :
    (q.push c written).rest = q.rest := by
  cases q <;> rfl

/-- Reading a quotation loses and adds nothing. -/
theorem taken_append_rest (text : List Char) : (read text).taken ++ (read text).rest = text := by
  fun_induction read text with
  | case3 letter text c _ ih => simp [ih]
  | case8 c text _ _ _ _ ih => simp [ih]
  | _ => simp_all [taken, rest]

end Quotation

/-- The lexeme at the start of a text. -/
structure Lexeme where
  /-- The token it makes, or the cause why it makes none with the characters before the place that
  the cause points at. -/
  result : Except (List Char × LexError.Cause) TokenKind
  /-- The characters of the lexeme. -/
  taken : List Char
  /-- The characters after it. -/
  rest : List Char

namespace Lexeme

/-- The largest number that a source text can write. -/
def maxNumber : Nat := 9223372036854775807

/-- The token that a run of digits makes. A letter or underscore in the run spoils it as a whole. -/
def numberOf (run : List Char) : Except LexError.Cause TokenKind :=
  if run.all Char.isDigit then
    let value := Nat.ofDigitChars 10 run 0
    if value ≤ maxNumber then .ok (.number (Int64.ofNat value))
    else .error (.numberOutOfRange (String.ofList run))
  else .error (.digitLedWord (String.ofList run))

/-- The lexeme of a word. -/
def readWord (text : List Char) : Lexeme :=
  let run := text.takeWhile Text.isWordPart
  ⟨.ok (.ofWord (String.ofList run)), run, text.dropWhile Text.isWordPart⟩

/-- The lexeme of a number. -/
def readNumber (text : List Char) : Lexeme :=
  let run := text.takeWhile Text.isWordPart
  ⟨(numberOf run).mapError fun cause => ([], cause), run, text.dropWhile Text.isWordPart⟩

/-- The lexeme of a string whose opening quote was just read. -/
def readString (text : List Char) : Lexeme :=
  let q := Quotation.read text
  let result :=
    match q with
    | .closed content _ _ => .ok (.string (String.ofList content))
    | .unterminated taken _ =>
      .error ([], .unterminatedString (String.ofList ('"' :: taken)))
    | .unknownEscape c lead _ => .error ('"' :: lead, .unknownEscape c)
  ⟨result, '"' :: q.taken, q.rest⟩

/-- Reads the lexeme at the start of a text. A character that starts none is not taken. -/
def read : List Char → Lexeme
  | [] => ⟨.ok .endOfFile, [], []⟩
  | c :: text =>
    if c = '\x7b' then ⟨.ok .leftBrace, [c], text⟩
    else if c = '\x7d' then ⟨.ok .rightBrace, [c], text⟩
    else if c = ';' then ⟨.ok .semicolon, [c], text⟩
    else if c = '=' then ⟨.ok .equals, [c], text⟩
    else if c = '"' then readString text
    else if c.isDigit then readNumber (c :: text)
    else if Text.isWordStart c then readWord (c :: text)
    else ⟨.error ([], .illegalCharacter c), [], c :: text⟩

/-- Reading a lexeme loses and adds nothing. -/
theorem taken_append_rest (text : List Char) : (read text).taken ++ (read text).rest = text := by
  cases text with
  | nil => rfl
  | cons c text =>
    rw [read]
    repeat' split
    all_goals simp_all [readString, readNumber, readWord, Quotation.taken_append_rest,
      List.takeWhile_append_dropWhile]

/-- A digit is part of a word. -/
theorem isWordPart_of_isDigit {c : Char} (h : c.isDigit = true) : Text.isWordPart c = true := by
  simp [Text.isWordPart, Char.isAlphanum, h]

/-- Every token but the end of the text takes at least one character. -/
theorem taken_ne_nil {text : List Char} {kind : TokenKind} (h : (read text).result = .ok kind)
    (hk : kind ≠ .endOfFile) : (read text).taken ≠ [] := by
  cases text with
  | nil =>
    simp only [read, Except.ok.injEq] at h
    exact absurd h.symm hk
  | cons c text =>
    rw [read] at h ⊢
    repeat' split
    all_goals simp_all [readString, readNumber, readWord, isWordPart_of_isDigit,
      Text.isWordPart_of_isWordStart]

/-- Every token but the end of the text leaves a shorter text. -/
theorem length_rest_lt {text : List Char} {kind : TokenKind} (h : (read text).result = .ok kind)
    (hk : kind ≠ .endOfFile) : (read text).rest.length < text.length := by
  have split := congrArg List.length (taken_append_rest text)
  have taken := List.length_pos_iff.mpr (taken_ne_nil h hk)
  rw [List.length_append] at split
  omega

end Lexeme

end HttpSuite
