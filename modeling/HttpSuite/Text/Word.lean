/-!
# Words

A word is what the language, the class names of generated suites and the test names share: a
letter or underscore, then letters, digits and underscores, all of them ASCII.

## Main definitions

* `isWordStart`, `isWordPart`: the two character classes.
* `isIdentifier`: whether a whole text is one word.

## Main results

* `isIdentifier_iff`: the characters of a word.
-/

namespace HttpSuite.Text

/-- The ASCII letters and the underscore. -/
def isWordStart (c : Char) : Bool := c.isAlpha || c == '_'

/-- The ASCII letters, digits and the underscore. -/
def isWordPart (c : Char) : Bool := c.isAlphanum || c == '_'

/-- Whether a text is one nonempty word. Keywords count: they are words too. -/
def isIdentifier (text : String) : Bool :=
  match text.toList with
  | [] => false
  | c :: cs => isWordStart c && cs.all isWordPart

/-- A character that starts a word is part of one. -/
theorem isWordPart_of_isWordStart {c : Char} (h : isWordStart c = true) : isWordPart c = true := by
  simp only [isWordStart, isWordPart, Char.isAlphanum, Bool.or_eq_true] at h ⊢
  exact h.imp_left .inl

/-- A word has a first character, and the others are word characters too. -/
theorem isIdentifier_iff {text : String} : isIdentifier text = true ↔
    ∃ c cs, text.toList = c :: cs ∧ isWordStart c = true ∧ ∀ d ∈ cs, isWordPart d = true := by
  unfold isIdentifier
  cases text.toList with
  | nil => simp
  | cons c cs =>
    rw [Bool.and_eq_true, List.all_eq_true]
    constructor
    · exact fun h => ⟨c, cs, rfl, h⟩
    · rintro ⟨_, _, ⟨rfl, rfl⟩, h⟩
      exact h

theorem isWordPart_of_isIdentifier {text : String} (h : isIdentifier text = true) :
    ∀ c ∈ text.toList, isWordPart c = true := by
  obtain ⟨c, cs, htext, hstart, hparts⟩ := isIdentifier_iff.1 h
  rw [htext]
  exact List.forall_mem_cons.2 ⟨isWordPart_of_isWordStart hstart, hparts⟩

end HttpSuite.Text
