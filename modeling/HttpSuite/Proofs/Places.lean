import HttpSuite.Source.Cursor

/-!
# Places counted anew

A cursor keeps its place step by step.  The same place can be counted at any time from the text
before it: its bytes, its line feeds, and the characters behind the last of these.

## Main definitions

* `Position.ofText`: the place behind a text, counted from the text.

## Main results

* `Position.eq_of_byteCount_eq`: bytes tell the beginnings of a text apart.
* `Position.past_start`: keeping the place over a text comes to counting it.
-/

namespace HttpSuite

namespace Position

/-- The number of bytes that a run of characters takes. -/
def byteCount (text : List Char) : Nat := (String.ofList text).utf8ByteSize

@[simp] theorem byteCount_nil : byteCount [] = 0 := rfl

theorem byteCount_toList (text : String) : byteCount text.toList = text.utf8ByteSize := by
  rw [byteCount, String.ofList_toList]

theorem byteCount_append (first second : List Char) :
    byteCount (first ++ second) = byteCount first + byteCount second := by
  rw [byteCount, String.ofList_append, String.utf8ByteSize_append]
  rfl

theorem byteCount_singleton (c : Char) : byteCount [c] = c.utf8Size := by
  rw [byteCount, ← String.singleton_eq_ofList, String.utf8ByteSize_singleton]

/-- Two beginnings of one text are the same if they take the same number of bytes. -/
theorem eq_of_byteCount_eq {first second first' second' : List Char}
    (h : first ++ second = first' ++ second') (hsize : byteCount first = byteCount first') :
    first = first' := by
  have hnil {rest : List Char} (hrest : byteCount rest = 0) : rest = [] := by
    have hempty := String.utf8ByteSize_eq_zero_iff.1 hrest
    rw [← String.toList_ofList (l := rest), hempty]
    rfl
  rcases List.append_eq_append_iff.1 h with ⟨rest, rfl, -⟩ | ⟨rest, rfl, -⟩
  · rw [byteCount_append] at hsize
    have hrest : rest = [] := hnil (by omega)
    rw [hrest, List.append_nil]
  · rw [byteCount_append] at hsize
    have hrest : rest = [] := hnil (by omega)
    rw [hrest, List.append_nil]

/-- On one line, a text moves the column by its characters. -/
theorem past_of_oneLine {text : List Char} (h : '\n' ∉ text) (p : Position) : p.past text =
    ⟨p.offset + byteCount text, p.line, p.column + text.length⟩ := by
  induction text generalizing p with
  | nil => rfl
  | cons c text ih =>
    rw [List.mem_cons, not_or] at h
    have hstep : p.advance c = ⟨p.offset + c.utf8Size, p.line, p.column + 1⟩ := by
      rw [advance, if_neg (Ne.symm h.1), if_neg (Ne.symm h.1)]
    have hsize : byteCount (c :: text) = c.utf8Size + byteCount text := by
      rw [← byteCount_singleton]
      exact byteCount_append [c] text
    show (p.advance c).past text = _
    rw [ih h.2, hstep, hsize, List.length_cons, Nat.add_assoc, Nat.add_assoc, Nat.add_comm 1]

/-- The place behind a text that starts at the first line. -/
def ofText (text : List Char) : Position where
  offset := byteCount text
  line := 1 + text.count '\n'
  column := 1 + (text.reverse.takeWhile (· != '\n')).length

/-- One more character moves the counted place as it moves the one that is kept. -/
theorem ofText_append_singleton (text : List Char) (c : Char) :
    ofText (text ++ [c]) = (ofText text).advance c := by
  by_cases hc : c = '\n'
  · subst hc
    simp [ofText, advance, byteCount_append, byteCount_singleton, Nat.add_assoc]
  · simp [ofText, advance, byteCount_append, byteCount_singleton, hc, Nat.add_comm]

/-- Keeping the place over a text comes to counting it. -/
theorem past_start (text : List Char) : ({} : Position).past text = ofText text := by
  have hreverse : ∀ reversed : List Char, ({} : Position).past reversed.reverse =
      ofText reversed.reverse := by
    intro reversed
    induction reversed with
    | nil => rfl
    | cons c reversed ih =>
      rw [List.reverse_cons, past_append, ih, ofText_append_singleton]
      rfl
  have hself := hreverse text.reverse
  rwa [List.reverse_reverse] at hself

/-- Going on from a counted place. -/
theorem past_ofText (before text : List Char) :
    (ofText before).past text = ofText (before ++ text) := by
  rw [← past_start, ← past_append, past_start]

end Position

end HttpSuite
