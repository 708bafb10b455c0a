import HttpSuite.Program.Error
import HttpSuite.Token.Stream

/-!
# Readers

A reader holds the token under decision and the pulls to come. A token that does not fit is left
where it is; a pull that fails leaves the token under decision as it was and is itself used up.
Reading can therefore be started again after any error.

Every reader ends because none can grow what is left to read, and what is read over and over
shrinks it each time.

## Main definitions

* `ReaderState`, `ReaderState.remaining`: the state, and a bound on the tokens still to be read.
* `Reader`: reading a part of a program, with the state kept when it fails.
* `Reader.Bounded`: readers that do not grow what is left.
* `Item`, `Reader.many`: parts that can be read over and over.
-/

namespace HttpSuite

/-- The token under decision, and the pulls to come. -/
structure ReaderState where
  current : Token
  ahead : TokenStream

namespace ReaderState

/-- A bound on the number of tokens that can still be read. -/
def remaining (s : ReaderState) : Nat :=
  s.ahead.length + if s.current.kind = .endOfFile then 0 else 1

/-- A reader at the start of a source text; the first token is pulled at once. -/
def ofString (source : String) : Except LexError ReaderState :=
  match (TokenStream.ofCursor (Cursor.ofString source)).pop with
  | (.ok token, ahead) => .ok ⟨token, ahead⟩
  | (.error e, _) => .error e

end ReaderState

/-- Reads a part of a program. A failure keeps the state it was met in. -/
abbrev Reader := EStateM SourceError ReaderState

namespace Reader

variable {α β : Type}

/-! ## Single tokens -/

/-- The kind of the token under decision. -/
def peek : Reader TokenKind := fun s => .ok s.current.kind s

/-- Goes on to the next token. -/
def advance : Reader Unit := fun s =>
  match s.ahead.pop with
  | (.ok token, ahead) => .ok () ⟨token, ahead⟩
  | (.error e, ahead) => .error (.lex e) { s with ahead }

/-- Refuses the token under decision. -/
def refuse (cause : ParseError.Cause) : Reader α := fun s =>
  .error (.parse ⟨cause, s.current⟩) s

/-- Reads one mark or word. -/
def mark (kind : TokenKind) (place : ParseError.Place) : Reader Unit := do
  if (← peek) = kind then advance else refuse (.missing kind place)

/-- Reads a string. -/
def string (role : ParseError.Role) : Reader String := do
  match ← peek with
  | .string content => advance; return content
  | _ => refuse (.noString role)

/-- Reads a name. -/
def name (role : ParseError.Role) : Reader String := do
  match ← peek with
  | .identifier name => advance; return name
  | _ => refuse (.noIdentifier role)

/-! ## Progress -/

/-- A reader that does not grow what is left to read. -/
def Bounded (r : Reader α) : Prop :=
  ∀ ⦃s a after⦄, r s = .ok a after → after.remaining ≤ s.remaining

/-- A reader that shrinks what is left, unless the text has ended. -/
def Shrinks (r : Reader α) : Prop :=
  ∀ ⦃s a after⦄, s.current.kind ≠ .endOfFile → r s = .ok a after → after.remaining < s.remaining

theorem bind_eq_ok {r : Reader α} {f : α → Reader β} {s after : ReaderState} {b : β}
    (h : (r >>= f) s = .ok b after) :
    ∃ a middle, r s = .ok a middle ∧ f a middle = .ok b after := by
  simp only [bind, EStateM.bind] at h
  split at h
  · next a middle hr => exact ⟨a, middle, hr, h⟩
  · cases h

theorem Bounded.bind {r : Reader α} {f : α → Reader β} (hr : Bounded r)
    (hf : ∀ a, Bounded (f a)) : Bounded (r >>= f) := by
  intro s b after h
  obtain ⟨a, middle, hrs, hfs⟩ := bind_eq_ok h
  exact Nat.le_trans (hf a hfs) (hr hrs)

theorem Shrinks.bind {r : Reader α} {f : α → Reader β} (hr : Shrinks r)
    (hf : ∀ a, Bounded (f a)) : Shrinks (r >>= f) := by
  intro s b after hs h
  obtain ⟨a, middle, hrs, hfs⟩ := bind_eq_ok h
  exact Nat.lt_of_le_of_lt (hf a hfs) (hr hs hrs)

theorem bounded_pure (a : α) : Bounded (pure a : Reader α) := by
  intro s b after h
  cases h
  exact Nat.le_refl _

theorem bounded_refuse (cause : ParseError.Cause) : Bounded (refuse cause : Reader α) := by
  intro s a after h
  cases h

theorem shrinks_refuse (cause : ParseError.Cause) : Shrinks (refuse cause : Reader α) := by
  intro s a after _ h
  cases h

/-- Deciding by the token under decision reads nothing. -/
theorem Bounded.peek_bind {f : TokenKind → Reader β} (hf : ∀ kind, Bounded (f kind)) :
    Bounded (peek >>= f) := by
  intro s b after h
  exact hf s.current.kind h

theorem Shrinks.peek_bind {f : TokenKind → Reader β} (hf : ∀ kind, Shrinks (f kind)) :
    Shrinks (peek >>= f) := by
  intro s b after hs h
  exact hf s.current.kind hs h

/-- Going on shrinks what is left, and at the end of the text keeps it. -/
theorem remaining_advance {s after : ReaderState} (h : advance s = .ok () after) :
    after.remaining ≤ s.remaining ∧
      (s.current.kind ≠ .endOfFile → after.remaining < s.remaining) := by
  obtain ⟨current, ahead⟩ := s
  cases ahead with
  | ended span =>
    cases h
    simp only [ReaderState.remaining, TokenStream.length]
    split <;> simp_all
  | stuck e => cases h
  | more pull others =>
    cases pull with
    | error e => cases h
    | ok token =>
      cases h
      simp only [ReaderState.remaining, TokenStream.length]
      constructor
      · split <;> split <;> omega
      · intro hs
        rw [if_neg hs]
        split <;> omega

theorem bounded_advance : Bounded advance := fun _ _ _ h => (remaining_advance h).1

theorem shrinks_advance : Shrinks advance := fun _ _ _ hs h => (remaining_advance h).2 hs

theorem bounded_mark (kind : TokenKind) (place : ParseError.Place) :
    Bounded (mark kind place) := by
  refine .peek_bind fun k => ?_
  split
  · exact bounded_advance
  · exact bounded_refuse _

theorem bounded_string (role : ParseError.Role) : Bounded (string role) := by
  refine .peek_bind fun k => ?_
  split
  · exact bounded_advance.bind fun _ => bounded_pure _
  · exact bounded_refuse _

theorem bounded_name (role : ParseError.Role) : Bounded (name role) := by
  refine .peek_bind fun k => ?_
  split
  · exact bounded_advance.bind fun _ => bounded_pure _
  · exact bounded_refuse _

end Reader

/-! ## Repetition -/

/-- A part of a program that can be read over and over: what starts it, and how it is read. -/
structure Item (α : Type) where
  starts : TokenKind → Bool
  read : Reader α
  /-- Reading one shrinks what is left. -/
  shrinks : ∀ ⦃s a after⦄, starts s.current.kind = true → read s = .ok a after →
    after.remaining < s.remaining

namespace Reader

/-- Reads items for as long as the token under decision starts one. -/
def many {α : Type} (item : Item α) : Reader (List α) := fun s =>
  if _hs : item.starts s.current.kind = true then
    match _hr : item.read s with
    | .error e after => .error e after
    | .ok first after =>
      match many item after with
      | .error e last => .error e last
      | .ok others last => .ok (first :: others) last
  else .ok [] s
termination_by s => s.remaining
decreasing_by exact item.shrinks _hs _hr

theorem bounded_many {α : Type} (item : Item α) : Bounded (many item) := by
  intro s
  fun_induction many item s with
  | case1 => exact fun _ _ h => nomatch h
  | case2 => exact fun _ _ h => nomatch h
  | case3 s hs first middle hr others last hmany ih =>
    intro a after h
    cases h
    exact Nat.le_trans (ih hmany) (Nat.le_of_lt (item.shrinks hs hr))
  | case4 =>
    intro a after h
    cases h
    exact Nat.le_refl _

end Reader

end HttpSuite
