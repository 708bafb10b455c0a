/-!
# Classes of characters

A class of characters that a standard lists is kept as ranges of code points, both ends included,
in ascending order.

## Main statements

* `inRanges_iff`: over ascending ranges, the search finds exactly the numbers that lie in one.
-/

namespace HttpSuite.Text

/-- Whether a number lies in one of these ranges. They stand in ascending order, so the search ends
at the first that begins after the number. -/
def inRanges (n : Nat) : List (Nat × Nat) → Bool
  | [] => false
  | (first, last) :: ranges => first ≤ n && (n ≤ last || inRanges n ranges)

/-- Whether every range begins after this number, and after the end of the range before it. -/
def ascendingFrom (least : Nat) : List (Nat × Nat) → Bool
  | [] => true
  | (first, last) :: ranges => least ≤ first && first ≤ last && ascendingFrom (last + 1) ranges

/-- Ascending ranges hold no number below the least one. -/
theorem le_of_mem_ascendingFrom {least : Nat} {ranges : List (Nat × Nat)}
    (h : ascendingFrom least ranges) {range : Nat × Nat} (hmem : range ∈ ranges) :
    least ≤ range.1 := by
  induction ranges generalizing least with
  | nil => simp at hmem
  | cons head ranges ih =>
    simp only [ascendingFrom, Bool.and_eq_true, decide_eq_true_eq] at h
    rcases List.mem_cons.1 hmem with rfl | hmem
    · exact h.1.1
    · have hle := ih h.2 hmem
      omega

/-- Over ascending ranges, the search finds exactly the numbers that lie in one. -/
theorem inRanges_iff {least : Nat} {ranges : List (Nat × Nat)} (h : ascendingFrom least ranges)
    (n : Nat) : inRanges n ranges ↔ ∃ range ∈ ranges, range.1 ≤ n ∧ n ≤ range.2 := by
  induction ranges generalizing least with
  | nil => simp [inRanges]
  | cons head ranges ih =>
    have hrest := h
    simp only [ascendingFrom, Bool.and_eq_true, decide_eq_true_eq] at hrest
    simp only [inRanges, Bool.and_eq_true, Bool.or_eq_true, decide_eq_true_eq, ih hrest.2,
      List.mem_cons, exists_eq_or_imp]
    constructor
    · rintro ⟨hfirst, hlast | hin⟩
      · exact Or.inl ⟨hfirst, hlast⟩
      · exact Or.inr hin
    · rintro (⟨hfirst, hlast⟩ | ⟨range, hmem, hin⟩)
      · exact ⟨hfirst, Or.inl hlast⟩
      · have hle := le_of_mem_ascendingFrom hrest.2 hmem
        exact ⟨by omega, Or.inr ⟨range, hmem, hin⟩⟩

end HttpSuite.Text
