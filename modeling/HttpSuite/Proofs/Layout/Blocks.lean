import HttpSuite.Proofs.Acceptance
import HttpSuite.Proofs.Layout.Frames

/-!
# The blocks of a suite

All tests of a suite are written into one draft, and the draft remembers whether the present test
has made a request.  Beginning a test makes it forget, so a test leaves nothing behind for the next
one: the text of a suite is a head, a block for each test, and a close.  The head comes from the
configuration and the blocks from the declarations and one test each, whatever the other tests are.

Finishing a Rust suite cuts off the line end behind the last block.  It is put back here, so that
the last block is like the others.

## Main definitions

* `Target.head`, `Target.block`: the text before the tests, and the text of a test.
* `Target.Assembled`: how a suite is put together from these.

## Main results

* `Target.assembled_suite`: the text of a suite is assembled from its head and its blocks.
* `generate_independent`: the same for generated suites, and for those with other choices of tests.
-/

namespace HttpSuite

/-- The lines of blocks, one block after the other. -/
private theorem unlines_flatMap {α : Type} (f : α → List String) (as : List α) :
    unlines (as.flatMap f) = String.join (as.map fun a => unlines (f a)) := by
  induction as with
  | nil => rfl
  | cons a as ih =>
    rw [List.flatMap_cons, Literal.unlines_append, ih, List.map_cons, String.join_cons]

namespace Dialect

/-- The lines of statements come from the requests and the assertions of the dialect alone. -/
private theorem statementLines_congr (dialect dialect' : Dialect)
    (hrequest : dialect.request = dialect'.request)
    (hassertion : dialect.assertion = dialect'.assertion) (fresh : Bool)
    (statements : List Resolved.Statement) :
    dialect.statementLines fresh statements = dialect'.statementLines fresh statements := by
  induction statements generalizing fresh with
  | nil => rfl
  | cons statement statements ih =>
    cases statement with
    | request r => rw [statementLines, statementLines, hrequest, ih]
    | assertion a => rw [statementLines, statementLines, hassertion, ih]

/-- The class name stands in no test. -/
theorem Junit.testLines_eq (c c' : String) (s : Substitution) (t : Test) :
    (junit c).testLines s t = (junit c').testLines s t := by
  have hbody : (junit c).bodyLines s t = (junit c').bodyLines s t :=
    statementLines_congr (junit c) (junit c') rfl rfl true _
  rw [testLines, testLines, hbody]
  rfl

/-- What is cut off at the end of a Rust suite is one line end. -/
private theorem Rust.dropBlankEnd_append (these : List String) :
    dropBlankEnd (unlines (these ++ Dialect.rust.endTest)) ++ "\n" =
      unlines (these ++ Dialect.rust.endTest) := by
  have hend : these ++ Dialect.rust.endTest = (these ++ ["\x7d"]) ++ [""] :=
    (List.append_assoc these ["\x7d"] [""]).symm
  have hblank : unlines [""] = "\n" := rfl
  rw [hend, dropBlankEnd_unlines, Literal.unlines_append (these ++ ["\x7d"]) [""], hblank]

end Dialect

namespace Target

/-- The text before the tests. -/
def head (target : Target) (className : String) (config : Option Config) : String :=
  unlines ((target.dialect className).sharedLines { config })

/-- The text of a test. It is the same for every class name. -/
def block (target : Target) (declared : List Variable) (t : Test) : String :=
  unlines ((target.dialect defaultClassName).testLines (.ofVariables declared) t)

/-- The source is this head, these blocks, and the close of the target. A Rust suite has none, and
lacks a line end. -/
def Assembled : Target → (source head : String) → (blocks : List String) → Prop
  | junit, source, head, blocks => source = head ++ String.join blocks ++ "\x7d\n"
  | rust, source, head, blocks => source ++ "\n" = head ++ String.join blocks

private theorem head_rust (c c' : String) (config : Option Config) :
    Target.rust.head c config = Target.rust.head c' config := rfl

private theorem unlines_sharedLines (target : Target) (className : String) (p : Program) :
    unlines ((target.dialect className).sharedLines p) = target.head className p.config := rfl

private theorem unlines_testLines (target : Target) (className : String) (declared : List Variable)
    (t : Test) : unlines ((target.dialect className).testLines (.ofVariables declared) t) =
      target.block declared t := by
  cases target with
  | junit => exact congrArg unlines (Dialect.Junit.testLines_eq className defaultClassName _ t)
  | rust => rfl

/-- The lines of a suite before its close. -/
theorem unlines_suite (target : Target) (className : String) (p : Program) :
    unlines ((target.dialect className).sharedLines p ++ (target.dialect className).testsLines p) =
      target.head className p.config
        ++ String.join (p.tests.map (target.block p.declarations)) := by
  rw [Literal.unlines_append, unlines_sharedLines, Dialect.testsLines, unlines_flatMap]
  simp only [unlines_testLines]

/-- The text of a suite is assembled from its head and the blocks of its tests. -/
theorem assembled_suite (target : Target) (className : String) {p : Program} (h : p.tests ≠ []) :
    target.Assembled ((target.dialect className).suite p) (target.head className p.config)
      (p.tests.map (target.block p.declarations)) := by
  have hlines := target.unlines_suite className p
  obtain ⟨these, hend⟩ := (target.dialect className).exists_eq_append_endTest h
  rw [Dialect.suite_eq]
  cases target with
  | junit => exact congrArg (· ++ "\x7d\n") hlines
  | rust =>
    -- There is a test, so what finishing cuts off is the end of its blank line.
    rw [hend] at hlines ⊢
    exact (Dialect.Rust.dropBlankEnd_append these).trans hlines

end Target

/-- The text of a generated suite is a head that depends on the configuration alone, or on the class
name too where the target has one, and a block for each test that depends on the declarations and
that test alone. Any other choice of these tests, in any order, gives a suite of the same head and
the same blocks; one test alone shows what its block is. -/
theorem generate_independent (target : Target) :
    ∃ (head : String → Option Config → String) (block : List Variable → Test → String),
      (target = .rust → ∀ c c', head c = head c') ∧
      ∀ (className : String) (p : Program) (output : Output),
        p.generate target className = .ok output →
        target.Assembled output.source (head className p.config)
          (p.tests.map (block p.declarations)) ∧
        ∀ tests, tests ≠ [] → (∀ t ∈ tests, t ∈ p.tests) →
          ∃ other, ({ p with tests } : Program).generate target className = .ok other ∧
            target.Assembled other.source (head className p.config)
              (tests.map (block p.declarations)) := by
  refine ⟨target.head, target.block, ?_, ?_⟩
  · rintro rfl c c'
    exact funext (Target.head_rust c c')
  · intro className p output h
    obtain ⟨hrules, rfl⟩ := Program.generate_eq_ok_iff.1 h
    obtain ⟨htests, hkept⟩ := Program.violation?_eq_none_iff.1 hrules
    refine ⟨target.assembled_suite className htests, fun tests hne hchosen => ?_⟩
    have hrules' : ({ p with tests } : Program).violation? = none :=
      Program.violation?_eq_none_iff.2 ⟨hne, fun t ht => hkept t (hchosen t ht)⟩
    exact ⟨_, Program.generate_eq_ok_iff.2 ⟨hrules', rfl⟩,
      target.assembled_suite className (p := { p with tests }) hne⟩

/-- A test that makes two requests, so that the second reuses what the first declares. -/
def repeatedRequest : Test where
  name := "repeated"
  statements :=
    [ .request { method := .get, url := "/$x" }, .request { method := .put, url := "/$x" }
    , .assertion (.statusEquals 200), .assertion (.bodyContains "$x") ]

/-- A test that makes one request. -/
def singleRequest : Test where
  name := "single"
  statements :=
    [ .request { method := .get, url := "/$x" }
    , .assertion (.statusEquals 200), .assertion (.bodyContains "$x") ]

/-- A test declares its own locals behind a test that made two requests, as it does alone. -/
theorem generate_independent_repeatedRequest :
    let p : Program :=
      { declarations := [⟨"x", .text "a"⟩], tests := [repeatedRequest, singleRequest] }
    ∃ head output other block block', p.generate .junit "" = .ok output ∧
      ({ p with tests := [singleRequest] } : Program).generate .junit "" = .ok other ∧
      output.source = head ++ (block ++ block') ++ "\x7d\n" ∧
      other.source = head ++ block' ++ "\x7d\n" := by
  intro p
  have hrules : p.violation? = none := by decide
  have hgenerate : p.generate .junit "" = .ok ⟨(Dialect.junit "").suite p, p.unusedVariables⟩ :=
    Program.generate_eq_ok_iff.2 ⟨hrules, rfl⟩
  obtain ⟨head, block, -, hblocks⟩ := generate_independent .junit
  obtain ⟨hboth, hchoice⟩ := hblocks "" p _ hgenerate
  obtain ⟨other, hother, halone⟩ := hchoice [singleRequest] (List.cons_ne_nil _ _) (by simp [p])
  refine ⟨head "" p.config, _, other, block p.declarations repeatedRequest,
    block p.declarations singleRequest, hgenerate, hother, ?_, ?_⟩
  · simpa [Target.Assembled, p] using hboth
  · simpa [Target.Assembled, p] using halone

end HttpSuite
