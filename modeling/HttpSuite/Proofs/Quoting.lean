import HttpSuite.Proofs.Lexing
import HttpSuite.Proofs.Places.Shifted

/-!
# Scanning undoes quoting

A quoted text is one lexeme, wherever it stands and whatever follows it: pulling a token in front of
it yields the string, and leaves the cursor right behind the closing quote.  No quotation runs over
a line end, so the place behind it is on the same line, and the text that follows is tokenized as if
it stood alone, with its places moved.

## Main results

* `Cursor.next_quote`: pulling a token in front of a quoted text.
* `tokenize_quote_append`: the tokens of a quoted text with another one behind it.
* `Text.escape_append`: escaping distributes over joined texts.
* `lexing_inverts_quoting`: these, and what escaping does to each character.
-/

namespace HttpSuite

open Text

namespace Text

/-- Escaping, as one replacement of each character. -/
theorem escape_eq (text : String) : escape text = .ofList (text.toList.flatMap escapeChar) := by
  rw [escape, escapeChars_eq]

/-- Joined texts are escaped one by one. -/
theorem escape_append (first second : String) :
    escape (first ++ second) = escape first ++ escape second := by
  rw [escape_eq, escape_eq, escape_eq, String.toList_append, List.flatMap_append,
    String.ofList_append]

theorem lineFeed_not_mem_quote (content : String) : '\n' ∉ (quote content).toList := by
  rw [toList_quote]
  simpa using lineFeed_not_mem_escapeChars content.toList

end Text

/-- The place behind a quotation is on the same line. -/
theorem Position.past_quote (content : String) (p : Position) : p.past (quote content).toList =
    ⟨p.offset + (quote content).utf8ByteSize, p.line, p.column + (quote content).length⟩ := by
  rw [past_of_oneLine (lineFeed_not_mem_quote content), byteCount_toList, String.length_toList]

namespace Cursor

/-- A quoted text is pulled as one token, and the cursor stops right behind it. -/
theorem next_quote (content : String) (rest : List Char) (p : Position) :
    next ⟨p, (quote content).toList ++ rest⟩ =
      (.ok ⟨.string content, ⟨p.offset, p.offset + (quote content).utf8ByteSize, p.line, p.column⟩⟩,
        ⟨p.past (quote content).toList, rest⟩) := by
  have hread := Lexeme.read_toList_quote content rest
  have hskip := skipGapFrom_of_read (by rw [hread]) p
  have hoffset : (p.past (quote content).toList).offset =
      p.offset + (quote content).utf8ByteSize := by
    rw [Position.past_quote]
  simp only [next, skipGap, hskip, hread, hoffset]

end Cursor

/-- The string comes first, and what follows is tokenized as it is alone, with its places moved. -/
theorem tokenize_quote_append (content rest : String) :
    tokenize (quote content ++ rest) =
      ((tokenize rest).mapError (·.behind (quote content).toList)).map fun tokens =>
        ⟨.string content, ⟨0, (quote content).utf8ByteSize, 1, 1⟩⟩ ::
          tokens.map (·.behind (quote content).toList) := by
  have hstart : Cursor.ofString (quote content ++ rest) =
      ⟨{}, (quote content).toList ++ rest.toList⟩ := by
    rw [Cursor.ofString, String.toList_append]
  have hnext := Cursor.next_quote content rest.toList {}
  rw [Nat.zero_add, Position.past_start] at hnext
  rw [tokenize, hstart, Cursor.tokens_of_ok hnext, if_neg (by simp), Cursor.tokens_behind]
  show Except.map _ (Except.map _ (Except.mapError _ (tokenize rest))) = _
  cases tokenize rest <;> rfl

/-- Scanning a string undoes quoting it, whatever follows: the token is the text that was quoted,
its span ends right behind the closing quote, on the line where it started, and lexing goes on from
there.  And escaping, which passes over the whole text once for each escape, replaces each character
on its own; so different texts are escaped differently, and joined texts one by one. -/
theorem lexing_inverts_quoting :
    (∀ (content : String) (rest : List Char) (p : Position) (ended : Bool),
      let quoted := "\"" ++ escape content ++ "\""
      let stop := p.offset + quoted.utf8ByteSize
      Lexer.nextToken ⟨⟨p, quoted.toList ++ rest⟩, ended⟩ =
        (.ok ⟨.string content, ⟨p.offset, stop, p.line, p.column⟩⟩,
          ⟨⟨⟨stop, p.line, p.column + quoted.length⟩, rest⟩, ended⟩)) ∧
    (∀ content rest : String,
      let quoted := "\"" ++ escape content ++ "\""
      tokenize (quoted ++ rest) =
        ((tokenize rest).mapError (·.behind quoted.toList)).map fun tokens =>
          ⟨.string content, ⟨0, quoted.utf8ByteSize, 1, 1⟩⟩ ::
            tokens.map (·.behind quoted.toList)) ∧
    (∀ text, escape text = .ofList (text.toList.flatMap escapeChar)) ∧
    Function.Injective escape ∧
    ∀ first second, escape (first ++ second) = escape first ++ escape second := by
  refine ⟨fun content rest p ended => ?_, tokenize_quote_append, escape_eq, escape_injective,
    escape_append⟩
  show Lexer.nextToken ⟨⟨p, (quote content).toList ++ rest⟩, ended⟩ = _
  rw [Lexer.nextToken, Cursor.next_quote, Position.past_quote]
  rfl

end HttpSuite
