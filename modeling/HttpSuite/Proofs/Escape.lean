import HttpSuite.Token.Lexeme

/-!
# Escapes are undone by reading

The passes over a text, one for each escape, come to one replacement of each character on its own:
the backslash pass runs first, so no pass meets what another has written.  A quotation that was
written in this way is therefore read back character by character, and its closing quote is the
first quote that reading meets outside an escape.

## Main results

* `Text.escapeChars_eq`: the passes, as one replacement of each character.
* `Quotation.read_escapeChars`: a written quotation is read back, whatever follows it.
* `Text.escape_injective`: so different texts are written differently.
-/

namespace HttpSuite

namespace Text

/-- One character as it is written between quotes. -/
def escapeChar (c : Char) : List Char :=
  if c = '\\' then ['\\', '\\']
  else if c = '"' then ['\\', '"']
  else if c = '\n' then ['\\', 'n']
  else if c = '\r' then ['\\', 'r']
  else if c = '\t' then ['\\', 't']
  else [c]

/-- The characters that are written as themselves. -/
def IsPlain (c : Char) : Prop := c ≠ '\\' ∧ c ≠ '"' ∧ c ≠ '\n' ∧ c ≠ '\r' ∧ c ≠ '\t'

theorem escapeChar_of_isPlain {c : Char} (h : IsPlain c) : escapeChar c = [c] := by
  obtain ⟨hbackslash, hquote, hline, hreturn, htab⟩ := h
  rw [escapeChar, if_neg hbackslash, if_neg hquote, if_neg hline, if_neg hreturn, if_neg htab]

/-- Every character is plain or has an escape of its own. -/
theorem isPlain_or_escape (c : Char) :
    IsPlain c ∨ c = '\\' ∨ c = '"' ∨ c = '\n' ∨ c = '\r' ∨ c = '\t' := by
  by_cases h : c = '\\' ∨ c = '"' ∨ c = '\n' ∨ c = '\r' ∨ c = '\t'
  · exact .inr h
  · simp only [not_or] at h
    exact .inl h

/-- The passes over a text replace each character on its own. -/
theorem escapeChars_eq (text : List Char) : escapeChars text = text.flatMap escapeChar := by
  unfold escapeChars escapes substituteChar
  simp only [List.foldl_cons, List.foldl_nil, List.flatMap_assoc]
  congr 1
  funext c
  rcases isPlain_or_escape c with h | rfl | rfl | rfl | rfl | rfl
  · rw [escapeChar_of_isPlain h]
    obtain ⟨hbackslash, hquote, hline, hreturn, htab⟩ := h
    simp [hbackslash, hquote, hline, hreturn, htab]
  all_goals decide

@[simp] theorem escapeChars_nil : escapeChars [] = [] := rfl

@[simp] theorem escapeChars_cons (c : Char) (text : List Char) :
    escapeChars (c :: text) = escapeChar c ++ escapeChars text := by
  rw [escapeChars_eq, escapeChars_eq, List.flatMap_cons]

/-- No line end is left in an escaped text. -/
theorem lineFeed_not_mem_escapeChars (text : List Char) : '\n' ∉ escapeChars text := by
  rw [escapeChars_eq, List.mem_flatMap]
  rintro ⟨c, -, hc⟩
  rcases isPlain_or_escape c with h | rfl | rfl | rfl | rfl | rfl
  · rw [escapeChar_of_isPlain h, List.mem_singleton] at hc
    exact h.2.2.1 hc.symm
  all_goals exact absurd hc (by decide)

@[simp] theorem toList_escape (text : String) : (escape text).toList = escapeChars text.toList :=
  String.toList_ofList

theorem toList_quote (text : String) :
    (quote text).toList = '"' :: (escapeChars text.toList ++ ['"']) := by
  simp [quote]

end Text

namespace Quotation

/-- A character that neither ends a quotation nor starts an escape is read as itself. -/
theorem read_cons {c : Char} (text : List Char) (hbackslash : c ≠ '\\') (hquote : c ≠ '"')
    (hline : c ≠ '\n') : read (c :: text) = (read text).push c [c] := by
  rw [read, if_neg hquote, if_neg hline]
  · intro hc
    exact absurd hc hbackslash
  · intro letter rest hc
    exact absurd hc hbackslash

/-- An escaped character is read as that character. -/
theorem read_escapeChar (c : Char) (text : List Char) :
    read (Text.escapeChar c ++ text) = (read text).push c (Text.escapeChar c) := by
  rcases Text.isPlain_or_escape c with h | rfl | rfl | rfl | rfl | rfl
  · rw [Text.escapeChar_of_isPlain h]
    obtain ⟨hbackslash, hquote, hline, -, -⟩ := h
    exact read_cons text hbackslash hquote hline
  all_goals rfl

/-- A written quotation is read back. -/
theorem read_escapeChars (content rest : List Char) :
    read (Text.escapeChars content ++ '"' :: rest) =
      closed content (Text.escapeChars content ++ ['"']) rest := by
  induction content with
  | nil => rfl
  | cons c content ih =>
    rw [Text.escapeChars_cons, List.append_assoc, read_escapeChar, ih]
    simp [push]

end Quotation

/-- Different texts are escaped differently. -/
theorem Text.escape_injective : Function.Injective escape := by
  intro first second h
  have hchars : escapeChars first.toList = escapeChars second.toList := by
    rw [← toList_escape, ← toList_escape, h]
  have hread := Quotation.read_escapeChars first.toList []
  rw [hchars, Quotation.read_escapeChars, Quotation.closed.injEq] at hread
  exact String.toList_inj.1 hread.1.symm

end HttpSuite
