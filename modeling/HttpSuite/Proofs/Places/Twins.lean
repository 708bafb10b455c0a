import HttpSuite.Proofs.Pulls
import Mathlib.Tactic.SplitIfs

/-!
# One text at two places

Which lexemes a text holds does not depend on the place where it starts: reading looks at the
characters ahead, and the place is only carried along, one character at a time.  So two cursors with
the same text ahead yield tokens of the same kinds and errors of the same causes, and whatever
relates their places and is kept when both go over a character relates all places that they report.

## Main definitions

* `Position.Kept`: a relation of places that going over a character keeps.
* `Cursor.Twins`: the same text ahead, at related places.
* `TwinPulls`: the same outcome, at related places.

## Main results

* `Cursor.Twins.next`: twins yield twin outcomes and go on as twins.
* `Cursor.Twins.tokens_eq`: twins are tokenized to the same tokens, with their places moved.
-/

namespace HttpSuite

/-- The relation of two places is kept when both go over the same character. -/
def Position.Kept (R : Position → Position → Prop) : Prop :=
  ∀ ⦃p q : Position⦄, R p q → ∀ c, R (p.advance c) (q.advance c)

/-- The two cursors have the same text ahead, and their places are related. -/
structure Cursor.Twins (R : Position → Position → Prop) (first second : Cursor) : Prop where
  places : R first.position second.position
  texts : first.rest = second.rest

/-- The span of a token between two places. -/
def Span.between (start stop : Position) : Span :=
  ⟨start.offset, stop.offset, start.line, start.column⟩

/-- Two pulls with the same outcome, and related places in it. -/
inductive TwinPulls (R : Position → Position → Prop) : Pull → Pull → Prop
  | token (kind : TokenKind) {start stop start' stop' : Position} : R start start' →
    R stop stop' → TwinPulls R (.ok ⟨kind, .between start stop⟩) (.ok ⟨kind, .between start' stop'⟩)
  | error (cause : LexError.Cause) {place place' : Position} : R place place' →
    TwinPulls R (.error ⟨cause, place.line, place.column⟩)
      (.error ⟨cause, place'.line, place'.column⟩)

variable {R : Position → Position → Prop}

theorem Position.Kept.past (hR : Position.Kept R) {p q : Position} (h : R p q)
    (text : List Char) : R (p.past text) (q.past text) := by
  induction text generalizing p q with
  | nil => exact h
  | cons c text ih => exact ih (hR h c)

namespace Cursor

theorem twins_skipGapFrom (hR : Position.Kept R) {p q : Position} (h : R p q) (inComment : Bool)
    (text : List Char) : Twins R (skipGapFrom inComment p text) (skipGapFrom inComment q text) := by
  induction text generalizing inComment p q with
  | nil => exact ⟨h, rfl⟩
  | cons c text ih =>
    rw [skipGapFrom, skipGapFrom]
    split_ifs
    · exact ih (hR h c) _
    · exact ih (hR h c) _
    · exact ih (hR h c) _
    · exact ⟨h, rfl⟩

/-- Twins yield twin outcomes and go on as twins. -/
theorem Twins.next (hR : Position.Kept R) {first second : Cursor} (h : Twins R first second) :
    TwinPulls R first.next.1 second.next.1 ∧ Twins R first.next.2 second.next.2 := by
  have hskip : Twins R first.skipGap second.skipGap := by
    rw [skipGap, skipGap, ← h.texts]
    exact twins_skipGapFrom hR h.places _ _
  simp only [Cursor.next, ← hskip.texts]
  refine ⟨?_, hR.past hskip.places _, rfl⟩
  split
  · next kind _ => exact .token kind hskip.places (hR.past hskip.places _)
  · next lead cause _ => exact .error cause (hR.past hskip.places lead)

/-- If the second of two twin outcomes is the first with its places moved, then the tokens of the
second cursor are those of the first with their places moved. -/
theorem Twins.tokens_eq {move : Token → Token} {moveError : LexError → LexError}
    {first second : Cursor} (h : Twins R first second) (hR : Position.Kept R)
    (hkind : ∀ token, (move token).kind = token.kind)
    (hmoved : ∀ pull pull', TwinPulls R pull pull' → pull' = (pull.mapError moveError).map move) :
    second.tokens.1 = (first.tokens.1.mapError moveError).map (List.map move) := by
  obtain ⟨hpull, hafter⟩ := h.next hR
  have hpull := hmoved _ _ hpull
  cases hnext : first.next with
  | mk pull after =>
    rw [hnext] at hpull hafter
    have hnext' : second.next = (_, second.next.2) := Prod.ext hpull rfl
    cases pull with
    | error e =>
      rw [tokens_of_error hnext, tokens_of_error hnext']
      rfl
    | ok token =>
      rw [tokens_of_ok hnext, tokens_of_ok hnext', hkind]
      split_ifs with hend
      · rfl
      · have hlt := length_next_lt hnext hend
        rw [hafter.tokens_eq hR hkind hmoved]
        cases after.tokens.1 <;> rfl
termination_by first.rest.length

end Cursor

end HttpSuite
