import HttpSuite.Proofs.Literals.Suite

/-!
# Which sources compile

Three checks come before a suite is written: the class name is a word, the source parses, and the
program keeps the rules.  The first that fails gives the error.  None of them asks for the target,
so a source compiles for both targets or for neither.

There are four rules, but a program that comes from a source can break only two of them.  Parsing
asks for a test and for status codes that exist, so what is left to check is whether each test makes
a request and enough assertions.

## Main definitions

* `Test.Lacks`: what a test has too little of.
* `Refused`: why a source does not compile.

## Main results

* `Test.violation?_eq_some_iff`, `Program.violation?_eq_some_iff`: the rule that is reported.
* `compile_eq_error_iff`: the error of a source that does not compile.
* `compile_acceptance`: the sources that compile, the errors of the others, and the warnings.
-/

namespace HttpSuite

/-! ## The rules of a test -/

namespace Test

/-- The test makes a request and at least two assertions. -/
structure Sufficient (t : Test) : Prop where
  request : 1 ≤ t.requests.length
  assertions : 2 ≤ t.assertions.length

/-- The rule about requests and assertions that the test breaks. Requests are asked for first. -/
inductive Lacks (t : Test) : Violation → Prop where
  | request : t.requests = [] → Lacks t .missingRequest
  | assertions : t.requests ≠ [] → t.assertions.length < 2 →
    Lacks t (.tooFewAssertions t.assertions.length)

/-- The first status out of range that the test expects is this one. -/
def FirstBadStatus (t : Test) (code : Int64) : Prop :=
  ∃ before after, t.assertions = before ++ .statusEquals code :: after ∧
    isStatusCode code = false ∧
    ∀ earlier, .statusEquals earlier ∈ before → isStatusCode earlier = true

/-- All statuses that the test expects are status codes. -/
def StatusesInRange (t : Test) : Prop :=
  ∀ code, .statusEquals code ∈ t.assertions → isStatusCode code = true

variable {t : Test} {rule : Violation}

theorem Lacks.not_sufficient (h : t.Lacks rule) : ¬ t.Sufficient := by
  rintro ⟨hrequest, hassertions⟩
  cases h with
  | request hnone =>
    rw [hnone, List.length_nil] at hrequest
    omega
  | assertions _ hfew => omega

theorem sufficient_or_lacks (t : Test) : t.Sufficient ∨ ∃ rule, t.Lacks rule := by
  by_cases hrequest : t.requests = []
  · exact .inr ⟨_, .request hrequest⟩
  · by_cases hassertions : t.assertions.length < 2
    · exact .inr ⟨_, .assertions hrequest hassertions⟩
    · exact .inl ⟨List.length_pos_iff.2 hrequest, by omega⟩

/-- A test that lacks something is reported for it. -/
theorem Lacks.violation?_eq (h : t.Lacks rule) : t.violation? = some rule := by
  cases h with
  | request hnone => rw [violation?, hnone, List.isEmpty_nil, if_pos rfl]
  | assertions hsome hfew =>
    have hne : ¬ t.requests.isEmpty = true := by rwa [List.isEmpty_iff]
    have hless : t.assertions.length < minAssertions := hfew
    rw [violation?, if_neg hne, if_pos hless]

/-- A test that lacks nothing passes the checks that count. -/
theorem Sufficient.enough (h : t.Sufficient) :
    ¬ t.requests.isEmpty = true ∧ ¬ t.assertions.length < minAssertions := by
  rw [List.isEmpty_iff]
  exact ⟨List.length_pos_iff.1 h.request, Nat.not_lt.2 h.assertions⟩

/-- A test that lacks nothing is reported for its first status out of range. -/
theorem Sufficient.violation?_eq_some_iff (h : t.Sufficient) :
    t.violation? = some rule ↔ ∃ code, t.FirstBadStatus code ∧ rule = .statusOutOfRange code := by
  obtain ⟨hne, hmany⟩ := h.enough
  rw [violation?, if_neg hne, if_neg hmany, List.findSome?_eq_some_iff]
  constructor
  · rintro ⟨before, a, after, hsplit, hbad, hbefore⟩
    cases a with
    | statusEquals code =>
      have hcode : isStatusCode code = false := by
        by_contra hgood
        simp [hgood] at hbad
      have hearlier (earlier : Int64) (hmem : .statusEquals earlier ∈ before) :
          isStatusCode earlier = true := by
        by_contra hother
        simpa [hother] using hbefore _ hmem
      refine ⟨code, ⟨before, after, hsplit, hcode, hearlier⟩, ?_⟩
      simpa [hcode, eq_comm] using hbad
    | headerEquals | headerContains | bodyContains => cases hbad
  · rintro ⟨code, ⟨before, after, hsplit, hcode, hearlier⟩, rfl⟩
    refine ⟨before, _, after, hsplit, by simp [hcode], fun a ha => ?_⟩
    cases a with
    | statusEquals earlier => simp [hearlier earlier ha]
    | headerEquals | headerContains | bodyContains => rfl

/-- The rule that a test is reported for. -/
theorem violation?_eq_some_iff : t.violation? = some rule ↔
    t.Lacks rule ∨
      t.Sufficient ∧ ∃ code, t.FirstBadStatus code ∧ rule = .statusOutOfRange code := by
  rcases t.sufficient_or_lacks with hsufficient | ⟨lacked, hlacks⟩
  · have hnone : ¬ t.Lacks rule := fun h => h.not_sufficient hsufficient
    rw [hsufficient.violation?_eq_some_iff, or_iff_right hnone, and_iff_right hsufficient]
  · rw [hlacks.violation?_eq, Option.some_inj]
    constructor
    · rintro rfl
      exact .inl hlacks
    · rintro (h | ⟨h, -⟩)
      · exact Option.some.inj (hlacks.violation?_eq.symm.trans h.violation?_eq)
      · exact absurd h hlacks.not_sufficient

theorem StatusesInRange.not_firstBadStatus (h : t.StatusesInRange) (code : Int64) :
    ¬ t.FirstBadStatus code := by
  rintro ⟨before, after, hsplit, hbad, -⟩
  have hmem : .statusEquals code ∈ t.assertions := by simp [hsplit]
  rw [h code hmem] at hbad
  cases hbad

/-- Where the statuses are in range, only requests and assertions are counted. -/
theorem StatusesInRange.violation?_eq_some_iff (h : t.StatusesInRange) :
    t.violation? = some rule ↔ t.Lacks rule := by
  rw [Test.violation?_eq_some_iff]
  refine or_iff_left ?_
  rintro ⟨-, code, hfirst, -⟩
  exact h.not_firstBadStatus code hfirst

theorem StatusesInRange.violation?_eq_none_iff (h : t.StatusesInRange) :
    t.violation? = none ↔ t.Sufficient := by
  rw [Option.eq_none_iff_forall_ne_some]
  simp only [ne_eq, h.violation?_eq_some_iff]
  constructor
  · intro hnone
    exact t.sufficient_or_lacks.resolve_right fun ⟨rule, hlacks⟩ => hnone rule hlacks
  · exact fun hsufficient rule hlacks => hlacks.not_sufficient hsufficient

end Test

/-! ## The rules of a program -/

namespace Program

variable {p : Program}

/-- The rule that a program is reported for is that of its first test that breaks one. -/
theorem violation?_eq_some_iff {e : ValidationError} : p.violation? = some e ↔
    p.tests = [] ∧ e = ⟨.noTests, none⟩ ∨
    ∃ before t after rule, p.tests = before ++ t :: after ∧ (∀ u ∈ before, u.violation? = none) ∧
      t.violation? = some rule ∧ e = ⟨rule, some t.name⟩ := by
  by_cases hnil : p.tests = []
  · rw [violation?, hnil, List.isEmpty_nil, if_pos rfl, Option.some_inj, and_iff_right rfl,
      eq_comm]
    refine (or_iff_left ?_).symm
    rintro ⟨before, t, after, -, hsplit, -⟩
    exact List.append_ne_nil_of_right_ne_nil _ (List.cons_ne_nil _ _) hsplit.symm
  · have hne : ¬ p.tests.isEmpty = true := by rwa [List.isEmpty_iff]
    rw [violation?, if_neg hne, List.findSome?_eq_some_iff, or_iff_right fun h => hnil h.1]
    simp only [Option.map_eq_some_iff, Option.map_eq_none_iff]
    constructor
    · rintro ⟨before, t, after, hsplit, ⟨rule, hrule, rfl⟩, hbefore⟩
      exact ⟨before, t, after, rule, hsplit, hbefore, hrule, rfl⟩
    · rintro ⟨before, t, after, rule, hsplit, hbefore, hrule, rfl⟩
      exact ⟨before, t, after, hsplit, ⟨rule, hrule, rfl⟩, hbefore⟩

/-- A program that keeps the rules has tests, and each of them keeps them. -/
theorem violation?_eq_none_iff :
    p.violation? = none ↔ p.tests ≠ [] ∧ ∀ t ∈ p.tests, t.violation? = none := by
  by_cases hnil : p.tests = []
  · simp [violation?, hnil]
  · have hne : ¬ p.tests.isEmpty = true := by rwa [List.isEmpty_iff]
    rw [violation?, if_neg hne, List.findSome?_eq_none_iff, and_iff_right hnil]
    simp only [Option.map_eq_none_iff]

theorem validate_eq_ok_iff {diagnostics : List Diagnostic} :
    p.validate = .ok diagnostics ↔ p.violation? = none ∧ p.unusedVariables = diagnostics := by
  rw [validate]
  cases p.violation? <;> simp

theorem validate_eq_error_iff {e : ValidationError} :
    p.validate = .error e ↔ p.violation? = some e := by
  rw [validate]
  cases p.violation? <;> simp

/-- A suite is generated from every program that keeps the rules, and from no other. -/
theorem generate_eq_ok_iff {target : Target} {className : String} {output : Output} :
    p.generate target className = .ok output ↔ p.violation? = none ∧
      output = ⟨(target.dialect className).suite p, p.unusedVariables⟩ := by
  rw [generate, validate]
  cases p.violation? with
  | none => simp [bind, Except.bind, pure, Except.pure, eq_comm]
  | some e => simp [bind, Except.bind]

/-- The status codes of a program that has a source text are in range. -/
theorem WellFormed.statusesInRange (h : p.WellFormed) {t : Test} (ht : t ∈ p.tests) :
    t.StatusesInRange := by
  intro code hcode
  obtain ⟨statement, hmem, hassertion⟩ := List.mem_filterMap.1 hcode
  cases statement with
  | request r => cases hassertion
  | assertion a =>
    cases hassertion
    exact isStatusCode_iff.2 (h.statusCode t ht code hmem)

/-- A program that has a source text keeps the rules if all its tests are sufficient. -/
theorem WellFormed.violation?_eq_none_iff (h : p.WellFormed) :
    p.violation? = none ↔ ∀ t ∈ p.tests, t.Sufficient := by
  rw [Program.violation?_eq_none_iff, and_iff_right h.hasTest]
  exact forall₂_congr fun t ht => (h.statusesInRange ht).violation?_eq_none_iff

/-- A program that has a source text is reported for the first test that lacks something. -/
theorem WellFormed.violation?_eq_some_iff (h : p.WellFormed) {e : ValidationError} :
    p.violation? = some e ↔ ∃ before t after rule, p.tests = before ++ t :: after ∧
      (∀ u ∈ before, u.Sufficient) ∧ t.Lacks rule ∧ e = ⟨rule, some t.name⟩ := by
  rw [Program.violation?_eq_some_iff, or_iff_right fun hnil => h.hasTest hnil.1]
  -- The same test is found; what is said of it and of the tests before it is simpler.
  refine exists_congr fun before => exists_congr fun t => exists_congr fun after =>
    exists_congr fun rule => and_congr_right fun hsplit => ?_
  have hrange : ∀ u ∈ before ++ t :: after, u.StatusesInRange :=
    fun u hu => h.statusesInRange (hsplit ▸ hu)
  rw [List.forall_mem_append, List.forall_mem_cons] at hrange
  rw [hrange.2.1.violation?_eq_some_iff]
  refine and_congr_left fun _ => forall₂_congr fun u hu => ?_
  exact (hrange.1 u hu).violation?_eq_none_iff

end Program

/-! ## Compilation -/

/-- Why a source does not compile with a class name: what the first of the checks finds that does
not pass. -/
inductive Refused (source className : String) : CompileError → Prop where
  | className : Text.isIdentifier className = false →
    Refused source className (.invalidOptions (Options.badClassName className))
  | source {e : SourceError} : Text.isIdentifier className = true →
    Program.parse source = .error e → Refused source className (.source e)
  | test {p : Program} {before after : List Test} {t : Test} {rule : Violation} :
    Text.isIdentifier className = true → Program.parse source = .ok p →
    p.tests = before ++ t :: after → (∀ u ∈ before, u.Sufficient) → t.Lacks rule →
    Refused source className (.validation ⟨rule, some t.name⟩)

section Compile

variable {source : String} {options : Options}

theorem compile_of_not_isIdentifier (h : Text.isIdentifier options.className = false) :
    compile source options = .error (.invalidOptions (Options.badClassName options.className)) := by
  have hproblem : options.problem? = some (Options.badClassName options.className) := by
    rw [Options.problem?, h, if_neg Bool.false_ne_true]
  rw [compile, hproblem]

theorem compile_of_parse_eq_error {e : SourceError}
    (hname : Text.isIdentifier options.className = true) (h : Program.parse source = .error e) :
    compile source options = .error (.source e) := by
  have hproblem := Options.problem?_eq_none_iff.2 hname
  rw [compile, hproblem, h]

theorem compile_of_violation {p : Program} {e : ValidationError}
    (hname : Text.isIdentifier options.className = true) (hparse : Program.parse source = .ok p)
    (h : p.violation? = some e) : compile source options = .error (.validation e) := by
  have hproblem := Options.problem?_eq_none_iff.2 hname
  rw [compile, hproblem, hparse]
  show (p.generate options.target options.className).mapError CompileError.validation = _
  rw [Program.generate, Program.validate_eq_error_iff.2 h]
  rfl

theorem compile_of_sufficient {p : Program} (hname : Text.isIdentifier options.className = true)
    (hparse : Program.parse source = .ok p) (h : ∀ t ∈ p.tests, t.Sufficient) :
    compile source options =
      .ok ⟨(options.target.dialect options.className).suite p, p.unusedVariables⟩ := by
  have hrules := (Program.wellFormed_of_parse hparse).violation?_eq_none_iff.2 h
  exact compile_eq_ok_iff.2
    ⟨hname, p, _, hparse, Program.validate_eq_ok_iff.2 ⟨hrules, rfl⟩, rfl⟩

/-- A source that is refused has one error, whatever the target. -/
theorem Refused.compile_eq {e : CompileError} (h : Refused source options.className e) :
    compile source options = .error e := by
  cases h with
  | className hname => exact compile_of_not_isIdentifier hname
  | source hname hparse => exact compile_of_parse_eq_error hname hparse
  | test hname hparse hsplit hbefore hlacks =>
    have hrules := (Program.wellFormed_of_parse hparse).violation?_eq_some_iff.2
      ⟨_, _, _, _, hsplit, hbefore, hlacks, rfl⟩
    exact compile_of_violation hname hparse hrules

/-- A source passes all checks, or the first that it does not pass refuses it. -/
theorem sufficient_or_refused (source className : String) :
    (Text.isIdentifier className = true ∧
      ∃ p, Program.parse source = .ok p ∧ ∀ t ∈ p.tests, t.Sufficient) ∨
    ∃ e, Refused source className e := by
  cases hname : Text.isIdentifier className with
  | false => exact .inr ⟨_, .className hname⟩
  | true =>
    cases hparse : Program.parse source with
    | error e => exact .inr ⟨_, .source hname hparse⟩
    | ok p =>
      have hwellFormed := Program.wellFormed_of_parse hparse
      cases hrules : p.violation? with
      | none => exact .inl ⟨rfl, p, rfl, hwellFormed.violation?_eq_none_iff.1 hrules⟩
      | some e =>
        obtain ⟨before, t, after, rule, hsplit, hbefore, hlacks, rfl⟩ :=
          hwellFormed.violation?_eq_some_iff.1 hrules
        exact .inr ⟨_, .test hname hparse hsplit hbefore hlacks⟩

theorem exists_compile_eq_ok_iff : (∃ output, compile source options = .ok output) ↔
    Text.isIdentifier options.className = true ∧
      ∃ p, Program.parse source = .ok p ∧ ∀ t ∈ p.tests, t.Sufficient := by
  constructor
  · rintro ⟨output, h⟩
    refine (sufficient_or_refused source options.className).resolve_right ?_
    rintro ⟨e, hrefused⟩
    rw [hrefused.compile_eq] at h
    cases h
  · rintro ⟨hname, p, hparse, hsufficient⟩
    exact ⟨_, compile_of_sufficient hname hparse hsufficient⟩

theorem compile_eq_error_iff {e : CompileError} :
    compile source options = .error e ↔ Refused source options.className e := by
  refine ⟨fun h => ?_, Refused.compile_eq⟩
  rcases sufficient_or_refused source options.className with
    ⟨hname, p, hparse, hsufficient⟩ | ⟨e', hrefused⟩
  · rw [compile_of_sufficient hname hparse hsufficient] at h
    cases h
  · rw [hrefused.compile_eq] at h
    cases h
    exact hrefused

/-- Validation refuses a source only for a test without requests or with too few assertions. -/
theorem Refused.rule_eq {className : String} {e : ValidationError}
    (h : Refused source className (.validation e)) :
    e.rule = .missingRequest ∨ ∃ found < 2, e.rule = .tooFewAssertions found := by
  cases h with
  | test _ _ _ _ hlacks =>
    cases hlacks with
    | request _ => exact .inl rfl
    | assertions _ hfew => exact .inr ⟨_, hfew, rfl⟩

theorem map_diagnostics_compile_eq (source className : String) (target target' : Target) :
    (compile source ⟨target, className⟩).map Output.diagnostics =
      (compile source ⟨target', className⟩).map Output.diagnostics := by
  rcases sufficient_or_refused source className with
    ⟨hname, p, hparse, hsufficient⟩ | ⟨e, hrefused⟩
  · rw [compile_of_sufficient hname hparse hsufficient,
      compile_of_sufficient hname hparse hsufficient]
    rfl
  · rw [hrefused.compile_eq, hrefused.compile_eq]

end Compile

/-- A source compiles exactly if the class name is a word, the source parses, and each test makes a
request and two assertions; otherwise the error is that of the first check it does not pass, which
in validation is one of two rules. The target has no part in it, and none in the warnings. -/
theorem compile_acceptance (source className : String) :
    (∀ target, (∃ output, compile source ⟨target, className⟩ = .ok output) ↔
      Text.isIdentifier className = true ∧
        ∃ p, Program.parse source = .ok p ∧ ∀ t ∈ p.tests, t.Sufficient) ∧
    (∀ target e, compile source ⟨target, className⟩ = .error e ↔ Refused source className e) ∧
    (∀ e, Refused source className (.validation e) →
      e.rule = .missingRequest ∨ ∃ found < 2, e.rule = .tooFewAssertions found) ∧
    ∀ target target', (compile source ⟨target, className⟩).map Output.diagnostics =
      (compile source ⟨target', className⟩).map Output.diagnostics :=
  ⟨fun _ => exists_compile_eq_ok_iff, fun _ _ => compile_eq_error_iff, fun _ => Refused.rule_eq,
    map_diagnostics_compile_eq source className⟩

end HttpSuite
