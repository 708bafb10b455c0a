import HttpSuite.Proofs.Acceptance
import Mathlib.Data.List.Forall2
import Mathlib.Tactic.Push

/-!
# The first broken rule

Validation walks through the tests and stops at the first rule that is broken.  Programs need not
come from a source here, so all four rules can be broken, and several at once, in one test or in
many.  What is reported is the first test that breaks a rule, and of its rules the first in a fixed
order.  The rules ask what stands among the statements of a test and not where, except that of
several statuses out of range the first is reported.

## Main definitions

* `Test.Breaks`: the rule that a test breaks.
* `Test.Keeps`: the test breaks no rule.
* `Program.FirstViolation`: the first test of a program that breaks a rule, and the rule.

## Main results

* `Test.violation?_eq_some_iff_breaks`: the rule that is reported is the one that is broken.
* `Test.Keeps.perm`: reordering the statements of a test breaks no rule.
* `Program.validate_first_violation`: what validation reports, and that generation reports the same.
-/

namespace HttpSuite

/-! ## The rules of a test -/

theorem Statement.request?_eq_some_iff {statement : Statement} {r : Request} :
    statement.request? = some r ↔ statement = .request r := by
  cases statement <;> simp [request?]

theorem Statement.assertion?_eq_some_iff {statement : Statement} {a : Assertion} :
    statement.assertion? = some a ↔ statement = .assertion a := by
  cases statement <;> simp [assertion?]

namespace Test

/-- The number is a status code of HTTP. -/
def InRange (code : Int64) : Prop := 100 ≤ code.toInt ∧ code.toInt ≤ 599

instance (code : Int64) : Decidable (InRange code) := inferInstanceAs (Decidable (_ ∧ _))

/-- The rule that the test breaks: it makes no request; or it does and makes fewer than two
assertions; or it makes enough of both and expects a status out of range, and this is the first. -/
inductive Breaks (t : Test) : Violation → Prop where
  | request : (∀ r, .request r ∉ t.statements) → Breaks t .missingRequest
  | assertions {r : Request} : .request r ∈ t.statements → t.assertions.length < 2 →
    Breaks t (.tooFewAssertions t.assertions.length)
  | status {r : Request} {before after : List Statement} {code : Int64} :
    .request r ∈ t.statements → 2 ≤ t.assertions.length →
    t.statements = before ++ .assertion (.statusEquals code) :: after → ¬ InRange code →
    (∀ earlier, .assertion (.statusEquals earlier) ∈ before → InRange earlier) →
    Breaks t (.statusOutOfRange code)

/-- The test makes a request and two assertions, and expects only status codes of HTTP. -/
structure Keeps (t : Test) : Prop where
  request : ∃ r, .request r ∈ t.statements
  assertions : 2 ≤ t.assertions.length
  statuses : ∀ code, .assertion (.statusEquals code) ∈ t.statements → InRange code

variable {t u : Test} {rule : Violation} {code : Int64}

theorem mem_requests_iff {r : Request} : r ∈ t.requests ↔ .request r ∈ t.statements := by
  rw [requests, List.mem_filterMap]
  simp only [Statement.request?_eq_some_iff, exists_eq_right]

theorem mem_assertions_iff {a : Assertion} : a ∈ t.assertions ↔ .assertion a ∈ t.statements := by
  rw [assertions, List.mem_filterMap]
  simp only [Statement.assertion?_eq_some_iff, exists_eq_right]

theorem requests_eq_nil_iff : t.requests = [] ↔ ∀ r, .request r ∉ t.statements := by
  simp only [List.eq_nil_iff_forall_not_mem, mem_requests_iff]

theorem requests_ne_nil_iff : t.requests ≠ [] ↔ ∃ r, .request r ∈ t.statements := by
  rw [ne_eq, requests_eq_nil_iff]
  push Not
  rfl

/-- The first status out of range among the assertions is the first among the statements. -/
theorem firstBadStatus_iff : t.FirstBadStatus code ↔ ∃ before after,
    t.statements = before ++ .assertion (.statusEquals code) :: after ∧ ¬ InRange code ∧
      ∀ earlier, .assertion (.statusEquals earlier) ∈ before → InRange earlier := by
  have hbad : isStatusCode code = false ↔ ¬ InRange code := by
    rw [InRange, ← isStatusCode_iff, Bool.not_eq_true]
  constructor
  · rintro ⟨before, after, hsplit, hcode, hearlier⟩
    obtain ⟨first, second, hstatements, rfl, hsecond⟩ := List.filterMap_eq_append_iff.1 hsplit
    obtain ⟨skipped, statement, rest, rfl, hskipped, hstatement, -⟩ :=
      List.filterMap_eq_cons_iff.1 hsecond
    obtain rfl := Statement.assertion?_eq_some_iff.1 hstatement
    refine ⟨first ++ skipped, rest, by rw [hstatements, List.append_assoc], hbad.1 hcode, ?_⟩
    intro earlier hmem
    rcases List.mem_append.1 hmem with hmem | hmem
    · exact isStatusCode_iff.1 (hearlier earlier (List.mem_filterMap.2 ⟨_, hmem, rfl⟩))
    · exact absurd (hskipped _ hmem) (Option.some_ne_none _)
  · rintro ⟨before, after, hsplit, hcode, hearlier⟩
    refine ⟨before.filterMap Statement.assertion?, after.filterMap Statement.assertion?, ?_,
      hbad.2 hcode, fun earlier hmem => isStatusCode_iff.2 (hearlier earlier ?_)⟩
    · rw [assertions, hsplit, List.filterMap_append]
      rfl
    · obtain ⟨statement, hstatement, heq⟩ := List.mem_filterMap.1 hmem
      rwa [← Statement.assertion?_eq_some_iff.1 heq]

theorem violation?_eq_some_iff_breaks : t.violation? = some rule ↔ t.Breaks rule := by
  rw [violation?_eq_some_iff]
  constructor
  · rintro (hlacks | ⟨⟨hrequest, hassertions⟩, code, hfirst, rfl⟩)
    · cases hlacks with
      | request hnone => exact .request (requests_eq_nil_iff.1 hnone)
      | assertions hsome hfew =>
        obtain ⟨r, hr⟩ := requests_ne_nil_iff.1 hsome
        exact .assertions hr hfew
    · obtain ⟨r, hr⟩ := requests_ne_nil_iff.1 (List.length_pos_iff.1 hrequest)
      obtain ⟨before, after, hsplit, hbad, hearlier⟩ := firstBadStatus_iff.1 hfirst
      exact .status hr hassertions hsplit hbad hearlier
  · intro h
    cases h with
    | request hnone => exact .inl (.request (requests_eq_nil_iff.2 hnone))
    | assertions hr hfew => exact .inl (.assertions (requests_ne_nil_iff.2 ⟨_, hr⟩) hfew)
    | status hr hassertions hsplit hbad hearlier =>
      have hsome := List.length_pos_iff.2 (requests_ne_nil_iff.2 ⟨_, hr⟩)
      exact .inr ⟨⟨hsome, hassertions⟩, _,
        firstBadStatus_iff.2 ⟨_, _, hsplit, hbad, hearlier⟩, rfl⟩

/-- A test that lacks nothing is not reported if its statuses are in range. -/
theorem Sufficient.violation?_eq_none_iff (h : t.Sufficient) :
    t.violation? = none ↔ t.StatusesInRange := by
  obtain ⟨hne, hmany⟩ := h.enough
  rw [violation?, if_neg hne, if_neg hmany, List.findSome?_eq_none_iff]
  constructor
  · intro hnone code hcode
    by_contra hbad
    simpa [hbad] using hnone _ hcode
  · intro hrange a ha
    cases a with
    | statusEquals code => simp [hrange code ha]
    | headerEquals | headerContains | bodyContains => rfl

theorem violation?_eq_none_iff_breaks : t.violation? = none ↔ ∀ rule, ¬ t.Breaks rule := by
  simp only [Option.eq_none_iff_forall_ne_some, ne_eq, violation?_eq_some_iff_breaks]

/-- A test keeps the rules if it breaks none. -/
theorem keeps_iff : t.Keeps ↔ ∀ rule, ¬ t.Breaks rule := by
  constructor
  · rintro ⟨⟨r, hr⟩, hassertions, hstatuses⟩ rule hbreaks
    cases hbreaks with
    | request hnone => exact hnone r hr
    | assertions _ hfew => omega
    | status _ _ hsplit hbad _ => exact hbad (hstatuses _ (by simp [hsplit]))
  · intro hnone
    have hviolation := violation?_eq_none_iff_breaks.2 hnone
    rcases t.sufficient_or_lacks with hsufficient | ⟨rule, hlacks⟩
    · refine ⟨requests_ne_nil_iff.1 (List.length_pos_iff.1 hsufficient.request),
        hsufficient.assertions, fun code hcode => isStatusCode_iff.1 ?_⟩
      exact hsufficient.violation?_eq_none_iff.1 hviolation code (mem_assertions_iff.2 hcode)
    · rw [hlacks.violation?_eq] at hviolation
      cases hviolation

/-- The statements of a test that keeps the rules can be put in any order. -/
theorem Keeps.perm (h : t.Keeps) (hperm : t.statements.Perm u.statements) : u.Keeps := by
  have hassertions : t.assertions.Perm u.assertions := hperm.filterMap Statement.assertion?
  obtain ⟨r, hr⟩ := h.request
  exact ⟨⟨r, hperm.subset hr⟩, hassertions.length_eq ▸ h.assertions,
    fun code hcode => h.statuses code (hperm.symm.subset hcode)⟩

theorem forall_keeps_of_perm {tests others : List Test}
    (hperm : List.Forall₂ (fun t u => t.statements.Perm u.statements) tests others)
    (h : ∀ t ∈ tests, t.Keeps) : ∀ u ∈ others, u.Keeps := by
  induction hperm with
  | nil => exact h
  | cons hfirst _ ih =>
    rw [List.forall_mem_cons] at h ⊢
    exact ⟨h.1.perm hfirst, ih h.2⟩

end Test

/-! ## The rules of a program -/

namespace Program

variable {p q : Program}

/-- The first test of the program that breaks a rule breaks this one. -/
def FirstViolation (p : Program) (e : ValidationError) : Prop :=
  ∃ before t after rule, p.tests = before ++ t :: after ∧
    (∀ u ∈ before, ∀ rule, ¬ u.Breaks rule) ∧ t.Breaks rule ∧ e = ⟨rule, some t.name⟩

theorem validate_eq_error_iff_first {e : ValidationError} : p.validate = .error e ↔
    p.tests = [] ∧ e = ⟨.noTests, none⟩ ∨ p.FirstViolation e := by
  rw [validate_eq_error_iff, violation?_eq_some_iff]
  simp only [Test.violation?_eq_some_iff_breaks, Test.violation?_eq_none_iff_breaks]
  rfl

theorem exists_validate_eq_ok_iff : (∃ diagnostics, p.validate = .ok diagnostics) ↔
    p.tests ≠ [] ∧ ∀ t ∈ p.tests, t.Keeps := by
  simp only [validate_eq_ok_iff, violation?_eq_none_iff, Test.violation?_eq_none_iff_breaks,
    Test.keeps_iff, exists_and_left, exists_eq', and_true]

theorem map_diagnostics_generate (p : Program) (target : Target) (className : String) :
    (p.generate target className).map Output.diagnostics = p.validate := by
  rw [generate]
  cases p.validate <;> rfl

/-- Whether a program is accepted does not depend on the order of statements in its tests. -/
theorem exists_validate_eq_ok_of_perm
    (hperm : List.Forall₂ (fun t u => t.statements.Perm u.statements) p.tests q.tests)
    (h : ∃ diagnostics, p.validate = .ok diagnostics) :
    ∃ diagnostics, q.validate = .ok diagnostics := by
  rw [exists_validate_eq_ok_iff] at h ⊢
  exact ⟨fun hnil => h.1 (List.forall₂_nil_right_iff.1 (hnil ▸ hperm)),
    Test.forall_keeps_of_perm hperm h.2⟩

/-- A program without tests is reported for that. Any other is reported for its first test that
breaks a rule and the first rule that this test breaks; it is accepted exactly if no test breaks
one, in whatever order the statements of a test stand. Generation fails with the same error for both
targets, and else gives the same warnings. -/
theorem validate_first_violation (p : Program) :
    (p.validate = .error ⟨.noTests, none⟩ ↔ p.tests = []) ∧
    (p.tests ≠ [] → ∀ e, p.validate = .error e ↔ p.FirstViolation e) ∧
    ((∃ diagnostics, p.validate = .ok diagnostics) ↔
      p.tests ≠ [] ∧ ∀ t ∈ p.tests, ∀ rule, ¬ t.Breaks rule) ∧
    (∀ q : Program, List.Forall₂ (fun t u => t.statements.Perm u.statements) p.tests q.tests →
      ((∃ diagnostics, p.validate = .ok diagnostics) ↔
        ∃ diagnostics, q.validate = .ok diagnostics)) ∧
    ∀ target className, (p.generate target className).map Output.diagnostics = p.validate := by
  refine ⟨?_, fun hne e => ?_, ?_, fun q hperm => ⟨exists_validate_eq_ok_of_perm hperm, ?_⟩,
    p.map_diagnostics_generate⟩
  · rw [validate_eq_error_iff_first]
    refine ⟨fun h => ?_, fun hnil => .inl ⟨hnil, rfl⟩⟩
    rcases h with ⟨hnil, -⟩ | ⟨before, t, after, rule, -, -, -, heq⟩
    · exact hnil
    · cases heq
  · rw [validate_eq_error_iff_first, or_iff_right fun h => hne h.1]
  · simp only [exists_validate_eq_ok_iff, Test.keeps_iff]
  · exact exists_validate_eq_ok_of_perm (hperm.flip.imp fun _ _ h => h.symm)

/-- A test that begins with an assertion breaks no rule; the second test expects two statuses out of
range, and the third makes no request. -/
def secondTestBreaks : Program :=
  let status (code : Int64) : Statement := .assertion (.statusEquals code)
  let send : Statement := .request { method := .get, url := "/" }
  { tests :=
    [ ⟨"edges", [status 599, send, status 100]⟩
    , ⟨"beyond", [send, status 200, status 99, status 600]⟩
    , ⟨"silent", [status 200]⟩ ] }

theorem validate_first_violation_secondTestBreaks :
    secondTestBreaks.validate = .error ⟨.statusOutOfRange 99, some "beyond"⟩ ∧
      ∀ target, (secondTestBreaks.generate target defaultClassName).map Output.diagnostics =
        .error ⟨.statusOutOfRange 99, some "beyond"⟩ := by
  obtain ⟨-, hfirst, -, -, hgenerate⟩ := validate_first_violation secondTestBreaks
  have hvalidate : secondTestBreaks.validate = .error ⟨.statusOutOfRange 99, some "beyond"⟩ := by
    refine (hfirst (List.cons_ne_nil _ _) _).2 ⟨[_], _, [_], _, rfl, ?_, ?_, rfl⟩
    · refine List.forall_mem_singleton.2 (Test.keeps_iff.1 ⟨⟨_, .tail _ (.head _)⟩, ?_, ?_⟩)
      · decide
      · simp [Test.InRange]
    · refine .status (.head _) (by decide) (show _ = [_, _] ++ _ :: [_] from rfl)
        (by decide) ?_
      simp [Test.InRange]
  exact ⟨hvalidate, fun target => (hgenerate target _).trans hvalidate⟩

end Program

end HttpSuite
