import HttpSuite.Proofs.Places.Shifted
import HttpSuite.Proofs.Reading.Kinds
import HttpSuite.Proofs.RoundTrip

/-!
# Reading again behind an error

A reader can be asked for a program again and again.  When it refuses a token, it keeps that token
under decision, and nothing behind the token has been pulled.  The next call therefore reads what a
new reader would read from the rest of the text, the one that starts with the refused token; only
the places in its errors show that something stood before.  A call that succeeds leaves the reader
at the end of the text, where no program is left to read.

Where the reader stands is shown along the run: going on is pulling tokens, and every pull keeps the
place of the cursor.  That it reads like a new reader is one more coupling: of two readers that have
the same tokens ahead, one of them behind another text.

## Main definitions

* `ReaderState.Resumes`: calls that have each read a program or refused a token.
* `ReaderState.Stands`: the reader stands in the source right behind a text.
* `ReaderState.Shifted`: the same tokens ahead, behind another text.

## Main results

* `ReaderState.Resumes.exists_stands`: where a reader stands behind calls.
* `ReaderState.coupling_shifted`: readers that are shifted stay so.
* `ReaderState.Stands.read_eq`: reading on is reading the rest of the text.
* `ReaderState.read_resumed`: the same behind all calls.
-/

namespace HttpSuite

/-! ## Where a reader stands -/

namespace Cursor

variable {cursor after : Cursor} {token : Token} {source : String} {before : List Char}

/-- In front of a token there is no second gap. -/
theorem skipGap_skipGap (h : cursor.next = (.ok token, after)) :
    cursor.skipGap.skipGap = cursor.skipGap := by
  simp only [Cursor.next, Prod.mk.injEq] at h
  obtain ⟨hpull, -⟩ := h
  split at hpull
  · next kind hread => exact skipGapFrom_of_read hread _
  · cases hpull

/-- Behind the gap the same token is pulled. -/
theorem Faces.skipGap {s : ReaderState} (h : cursor.Faces s) : cursor.skipGap.Faces s := by
  obtain ⟨token, after, hnext, rfl⟩ := h
  refine ⟨token, after, ?_, rfl⟩
  rw [← hnext, Cursor.next, Cursor.next, skipGap_skipGap hnext]

theorem Behind.skipGap (h : cursor.Behind source before) :
    ∃ gap, cursor.skipGap.Behind source (before ++ gap) := by
  obtain ⟨gap, hrest, hplace⟩ := cursor.skipGap_eq
  refine ⟨gap, ?_, ?_⟩
  · rw [h.text, hrest, List.append_assoc]
  · rw [hplace, h.place, Position.past_ofText]

end Cursor

namespace ReaderState

open Cursor

/-- The reader stands in the source right behind `before`: the token under decision starts there,
and nothing behind it has been pulled. -/
def Stands (source : String) (before : List Char) (s : ReaderState) : Prop :=
  ∃ cursor : Cursor, cursor.Behind source before ∧ cursor.skipGap = cursor ∧ cursor.Faces s

variable {source : String} {before : List Char} {s last : ReaderState}

theorem exists_stands {cursor : Cursor} (h : cursor.Behind source before) (hs : cursor.Faces s) :
    ∃ before, Stands source before s := by
  obtain ⟨gap, hgap⟩ := h.skipGap
  have hfaces := hs.skipGap
  obtain ⟨token, after, hnext, -⟩ := hs
  exact ⟨before ++ gap, cursor.skipGap, hgap, skipGap_skipGap hnext, hfaces⟩

/-- The token under decision starts where the reader stands. -/
theorem Stands.start_eq (h : Stands source before s) :
    s.current.span.start = Position.byteCount before := by
  obtain ⟨cursor, hbehind, hskip, token, after, hnext, rfl⟩ := h
  simp only [Cursor.next, hskip, hbehind.place, Prod.mk.injEq] at hnext
  obtain ⟨hpull, -⟩ := hnext
  split at hpull
  · cases hpull
    rfl
  · cases hpull

/-- A reader at the end of the text stands behind all of it. -/
theorem Stands.eq_of_end (h : Stands source before s) (hend : s.current.kind = .endOfFile) :
    before = source.toList := by
  obtain ⟨cursor, hbehind, hskip, token, after, hnext, rfl⟩ := h
  have hnil := skipGap_of_end hnext hend
  rw [hskip] at hnil
  rw [hbehind.text, hnil, List.append_nil]

/-- Going on keeps the reader between the characters of the source. -/
theorem Stands.steps {w : List TokenKind} (h : Stands source before s) (hw : Steps s w last) :
    ∃ after, Stands source after last := by
  obtain ⟨cursor, hbehind, -, hfaces⟩ := h
  obtain ⟨tokens, cursor', hyields, -, hlast⟩ := hfaces.steps_iff.1 hw
  obtain ⟨⟨after, hafter⟩, -⟩ := hyields.pulls.laid hbehind
  exact exists_stands hafter hlast

/-! ## Calls -/

/-- Some calls were made, and each of them has read a program or refused a token. -/
inductive Resumes : ReaderState → ReaderState → Prop
  | refl (s : ReaderState) : Resumes s s
  | program {s after last : ReaderState} {p : Program} :
    s.read = (.ok p, after) → Resumes after last → Resumes s last
  | refusal {s after last : ReaderState} {e : ParseError} :
    s.read = (.error (.parse e), after) → Resumes after last → Resumes s last

theorem program_of_read_eq_ok {after : ReaderState} {p : Program} (h : s.read = (.ok p, after)) :
    Reader.program s = .ok p after := by
  unfold read at h
  split at h
  · next hread =>
    cases h
    exact hread
  · cases h

theorem program_of_read_eq_error {after : ReaderState} {e : SourceError}
    (h : s.read = (.error e, after)) : Reader.program s = .error e after := by
  unfold read at h
  split at h
  · cases h
  · next hread =>
    cases h
    exact hread

/-- Calls that read a program or refuse a token go on over tokens, and over nothing else. -/
theorem Resumes.exists_steps (h : Resumes s last) : ∃ w, Steps s w last := by
  induction h with
  | refl s => exact ⟨[], .refl s⟩
  | program hread _ ih =>
    obtain ⟨v, hv⟩ := ih
    obtain ⟨w, hw, -⟩ := (Reader.reads_program.ok_iff trivial).1 (program_of_read_eq_ok hread)
    exact ⟨w ++ v, steps_append.2 ⟨_, hw, hv⟩⟩
  | refusal hread _ ih =>
    obtain ⟨v, hv⟩ := ih
    obtain ⟨-, w, hw, -⟩ := Reader.reads_program.refused trivial (program_of_read_eq_error hread)
    exact ⟨w ++ v, steps_append.2 ⟨_, hw, hv⟩⟩

theorem Resumes.exists_stands {first : ReaderState} (h : Resumes first s)
    (hfirst : ReaderState.ofString source = .ok first) : ∃ before, Stands source before s := by
  obtain ⟨start, hstart⟩ := ReaderState.exists_stands (behind_start source)
    (ofString_eq_ok_iff.1 hfirst)
  obtain ⟨w, hw⟩ := h.exists_steps
  exact hstart.steps hw

/-- At the end of the text there is no program to read, and the reader stays there. -/
theorem read_of_end (h : s.current.kind = .endOfFile) :
    s.read = (.error (.parse ⟨.noTests, s.current⟩), s) := by
  have hconfig : Reader.config? s = .ok none s := by
    simp only [Reader.config?, Reader.peek, bind, EStateM.bind, h]
    rfl
  have hdeclarations : Reader.many Reader.declarations s = .ok [] s :=
    Reader.many_of_not_starts (by rw [h]; rfl)
  have htests : Reader.many Reader.tests s = .ok [] s :=
    Reader.many_of_not_starts (by rw [h]; rfl)
  have hfinish : Reader.finish [] s = .error (.parse ⟨.noTests, s.current⟩) s := by
    simp only [Reader.finish, Reader.peek, bind, EStateM.bind, h]
    rfl
  rw [read, Reader.program, Reader.bind_of_ok hconfig, Reader.bind_of_ok hdeclarations,
    Reader.bind_of_ok htests]
  simp only [bind, EStateM.bind, hfinish]

/-! ## Shifted readers -/

/-- The second reader has the same tokens under decision and ahead as the first, but their text
stands behind `before`. -/
structure Shifted (before : List Char) (s t : ReaderState) : Prop where
  current : t.current = s.current.behind before
  ahead : ∃ first second, Twins (Position.Follows before) first second ∧
    s.ahead = .ofCursor first ∧ t.ahead = .ofCursor second

/-- Readers that are shifted stay so when both go on, and refuse tokens that are shifted. -/
theorem coupling_shifted (before : List Char) :
    Reader.Coupling (Shifted before) fun e e' => e' = e.behind before := by
  refine ⟨fun s t h => by rw [h.current]; rfl, ?_, fun s t h cause => by rw [h.current]; rfl⟩
  rintro ⟨current, _⟩ ⟨current', _⟩ ⟨hcurrent, first, second, htwins, rfl, rfl⟩
  obtain ⟨hpull, hafter⟩ := htwins.next (Position.kept_follows before)
  have hpull := hpull.eq_behind
  rw [advance_of_next, advance_of_next]
  cases hnext : first.next with
  | mk pull after =>
    rw [hnext] at hpull hafter
    have hnext' : second.next = (_, second.next.2) := Prod.ext hpull rfl
    rw [hnext']
    cases pull with
    | error e => exact .error rfl ⟨hcurrent, _, _, hafter, rfl, rfl⟩
    | ok token => exact .ok () ⟨rfl, _, _, hafter, rfl, rfl⟩

/-- Where a reader stands, a new reader of the rest of the text is its twin. -/
private theorem Stands.exists_shifted (h : Stands source before s) : ∃ suffix start,
    source.toList = before ++ suffix ∧ (Cursor.ofString (String.ofList suffix)).Faces start ∧
      Shifted before start s := by
  obtain ⟨⟨place, suffix⟩, hbehind, -, token, after, hnext, rfl⟩ := h
  obtain rfl : place = _ := hbehind.place
  have hfresh : Cursor.ofString (String.ofList suffix) = ⟨{}, suffix⟩ := by
    rw [Cursor.ofString, String.toList_ofList]
  obtain ⟨hpull, hafter⟩ := (twins_behind before suffix).next (Position.kept_follows before)
  have hpull := hpull.eq_behind
  rw [hnext] at hpull hafter
  cases hnext' : (⟨{}, suffix⟩ : Cursor).next with
  | mk pull after' =>
    rw [hnext'] at hpull hafter
    cases pull with
    | error e => cases hpull
    | ok start =>
      cases hpull
      exact ⟨suffix, _, hbehind.text, hfresh ▸ faces_of_next hnext', rfl, _, _, hafter, rfl, rfl⟩

/-- Reading on from where a reader stands is reading the rest of the text, with the places of errors
moved by what stands before. -/
theorem Stands.read_eq (h : Stands source before s) : ∃ suffix,
    source.toList = before ++ suffix ∧
      s.read.1 = (Program.parse (String.ofList suffix)).mapError (·.behind before) := by
  obtain ⟨suffix, start, htext, hfaces, hshifted⟩ := h.exists_shifted
  refine ⟨suffix, htext, ?_⟩
  have hmatched := Reader.uniform_program (coupling_shifted before) hshifted
  rw [Program.parse_of_faces hfaces, ReaderState.read, ReaderState.read]
  generalize Reader.program start = result at hmatched
  generalize Reader.program s = result' at hmatched
  cases hmatched with
  | ok p _ => rfl
  | error he _ =>
    subst he
    rfl

/-! ## All calls -/

/-- The state behind `n` further calls. -/
def afterCalls (s : ReaderState) : Nat → ReaderState
  | 0 => s
  | n + 1 => s.read.2.afterCalls n

theorem afterCalls_of_end (h : s.current.kind = .endOfFile) (n : Nat) : s.afterCalls n = s := by
  induction n with
  | zero => rfl
  | succ n ih => rw [afterCalls, read_of_end h, ih]

/-- Behind a program the source has ended, and every further call is refused for the lack of a
test. -/
private theorem Stands.read_behind_program (h : Stands source before s) {p : Program}
    (hp : s.read.1 = .ok p) : s.read.2.current.span.start = source.utf8ByteSize ∧
      ∀ n, ∃ e, (s.read.2.afterCalls n).read.1 = .error (.parse e) ∧
        e.detail = "expected at least one 'test' block" ∧ e.found = s.read.2.current ∧
        e.found.kind = .endOfFile := by
  have hprogram := program_of_read_eq_ok (Prod.ext hp rfl)
  obtain ⟨w, hw, -, hend⟩ := (Reader.reads_program.ok_iff trivial).1 hprogram
  obtain ⟨after, hafter⟩ := h.steps hw
  constructor
  · rw [hafter.start_eq, hafter.eq_of_end hend, Position.byteCount_toList]
  · intro n
    rw [afterCalls_of_end hend, read_of_end hend]
    exact ⟨_, rfl, rfl, rfl, hend⟩

/-- Whatever was called before, as long as each call has read a program or refused a token: the next
call reads what a new reader reads from the rest of the source that starts at the token under
decision. It succeeds with the same program, or fails with an error of the same kind and wording, of
which the places are moved by the text before. A token that is refused stays under decision; and
behind a program the source has ended, and all further calls are refused for the lack of a test. -/
theorem read_resumed {source : String} {first s : ReaderState}
    (hfirst : ReaderState.ofString source = .ok first) (hcalls : Resumes first s) :
    ∃ before suffix : String, source = before ++ suffix ∧
      s.current.span.start = before.utf8ByteSize ∧
      (∀ p, s.read.1 = .ok p ↔ Program.parse suffix = .ok p) ∧
      (∀ e, s.read.1 = .error e → ∃ e', Program.parse suffix = .error e' ∧
        e.SameWording e' ∧ e = e'.behind before.toList) ∧
      (∀ e, s.read.1 = .error (.parse e) → s.read.2.current = e.found) ∧
      ∀ p, s.read.1 = .ok p → s.read.2.current.span.start = source.utf8ByteSize ∧
        ∀ n, ∃ e, (s.read.2.afterCalls n).read.1 = .error (.parse e) ∧
          e.detail = "expected at least one 'test' block" ∧ e.found = s.read.2.current ∧
          e.found.kind = .endOfFile := by
  obtain ⟨before, hstands⟩ := hcalls.exists_stands hfirst
  obtain ⟨suffix, htext, hread⟩ := hstands.read_eq
  refine ⟨String.ofList before, String.ofList suffix, ?_, hstands.start_eq, fun p => ?_,
    fun e he => ?_, fun e he => ?_, fun p hp => hstands.read_behind_program hp⟩
  · rw [← String.ofList_append, ← htext, String.ofList_toList]
  · rw [hread]
    cases Program.parse (String.ofList suffix) <;> simp [Except.mapError]
  · rw [hread] at he
    cases hparse : Program.parse (String.ofList suffix) with
    | ok p =>
      rw [hparse] at he
      cases he
    | error e' =>
      rw [hparse] at he
      cases he
      exact ⟨e', rfl, e'.sameWording_behind before, by rw [String.toList_ofList]⟩
  · obtain ⟨hfound, -⟩ := Reader.reads_program.refused trivial
      (program_of_read_eq_error (Prod.ext he rfl))
    exact hfound.symm

/-- The program that stands in a configuration block which was left open is read by the second
call. -/
theorem read_resumed_openConfig :
    let p : Program := { tests := [⟨"t", [.request { method := .get, url := "/" }]⟩] }
    let source := "config \x7b\n  " ++ p.print
    let refusal : ParseError :=
      { cause := .noConfigLine
        found := ⟨.keyword .test, { start := 11, stop := 15, line := 2, column := 3 }⟩ }
    ∃ first s, ReaderState.ofString source = .ok first ∧
      first.read = (.error (.parse refusal), s) ∧ s.current = refusal.found ∧
      s.read.1 = .ok p ∧ s.read.2.current.span.start = source.utf8ByteSize ∧
      ∀ n, ∃ e, (s.read.2.afterCalls n).read.1 = .error (.parse e) ∧
        e.detail = "expected at least one 'test' block" := by
  intro p source refusal
  have hwellFormed : p.WellFormed := by decide
  have hparse : Program.parse source = .error (.parse refusal) := by
    simp only [source, p, refusal]
    set_option maxRecDepth 2000 in with_unfolding_all rfl
  cases hfirst : ReaderState.ofString source with
  | error e =>
    rw [Program.parse, hfirst] at hparse
    cases hparse
  | ok first =>
    rw [Program.parse, hfirst] at hparse
    have hrefused : first.read = (.error (.parse refusal), first.read.2) := Prod.ext hparse rfl
    obtain ⟨-, -, -, -, -, -, hcurrent, -⟩ := read_resumed hfirst (.refl first)
    have hcurrent := hcurrent refusal hparse
    obtain ⟨before, suffix, htext, hstart, hok, -, -, hover⟩ :=
      read_resumed hfirst (.refusal hrefused (.refl _))
    -- The rest of the source is cut off where the refused token starts.
    have hsplit : before.toList ++ suffix.toList = "config \x7b\n  ".toList ++ p.print.toList := by
      rw [← String.toList_append, ← htext, String.toList_append]
    have hsize : Position.byteCount before.toList =
        Position.byteCount "config \x7b\n  ".toList := by
      rw [Position.byteCount, String.ofList_toList, ← hstart, hcurrent]
      rfl
    rw [Position.eq_of_byteCount_eq hsplit hsize] at hsplit
    obtain rfl := String.toList_inj.1 (List.append_cancel_left hsplit)
    have hsecond := (hok p).2 (Program.parse_print hwellFormed)
    obtain ⟨hend, hfurther⟩ := hover p hsecond
    refine ⟨first, first.read.2, rfl, hrefused, hcurrent, hsecond, hend, fun n => ?_⟩
    obtain ⟨e, hread, hdetail, -⟩ := hfurther n
    exact ⟨e, hread, hdetail⟩

end ReaderState

end HttpSuite
