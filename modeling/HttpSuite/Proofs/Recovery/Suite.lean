import HttpSuite.Proofs.Recovery.Dialects

/-!
# The text of a compiled suite determines what it says

Two sources compile to the same text exactly if their suites render the same: the same class name
where the target has one, the same base URL and shared headers, and tests of the same names with the
same resolved statements.  So no text that a program holds, however much it looks like generated
code, can stand for another statement, header or test.

## Main definitions

* `Rendering`, `Target.rendering`: what a suite says, without its wording.

## Main results

* `source_eq_iff_rendering_eq`: equal texts and equal renderings.
-/

namespace HttpSuite

open Text

/-- What a suite says. -/
structure Rendering where
  /-- The class name, if the target has one. -/
  className : Option String
  baseUrl : String
  headers : List Header
  /-- The name of each test and its resolved statements. -/
  tests : List (String × List Resolved.Statement)
deriving DecidableEq, Repr

namespace Target

/-- What is seen of a statement. -/
def view : Target → Resolved.Statement → Resolved.Statement
  | junit => id
  | rust => Resolved.Statement.merge

theorem legible (target : Target) (className : String) :
    (target.dialect className).Legible target.view := by
  cases target with
  | junit => exact Dialect.Junit.legible className
  | rust => exact Dialect.Rust.legible

/-- What the suite of a program says. -/
def rendering (target : Target) (className : String) (p : Program) : Rendering where
  className := if target = .junit then some className else none
  baseUrl := p.baseUrl?.getD defaultBaseUrl
  headers := p.defaultHeaders
  tests := Dialect.renderedTests target.view p

/-- The lines before the first test determine what all tests share. -/
theorem shared_of_sharedLines (target : Target) {c c' : String} (hc : isIdentifier c = true)
    (hc' : isIdentifier c' = true) {p q : Program}
    (h : (target.dialect c).sharedLines p = (target.dialect c').sharedLines q) :
    (target = .junit → c = c') ∧
      p.baseUrl?.getD defaultBaseUrl = q.baseUrl?.getD defaultBaseUrl ∧
      p.defaultHeaders = q.defaultHeaders := by
  cases target with
  | junit =>
    obtain ⟨hclass, hshared⟩ := Dialect.Junit.shared_of_sharedLines
      (quote_not_mem_of_isIdentifier hc) (quote_not_mem_of_isIdentifier hc') h
    exact ⟨fun _ => hclass, hshared⟩
  | rust => exact ⟨nofun, Dialect.Rust.shared_of_sharedLines h⟩

/-- The class name is no part of the dialect of a target that has none. -/
theorem dialect_eq {target : Target} {c c' : String} (h : target = .junit → c = c') :
    target.dialect c = target.dialect c' := by
  cases target with
  | junit => rw [h rfl]
  | rust => rfl

/-- Suites with the same text say the same. -/
theorem rendering_eq_of_suite_eq (target : Target) {c c' : String} (hc : isIdentifier c = true)
    (hc' : isIdentifier c' = true) {p q : Program} (hp : p.WellFormed) (hq : q.WellFormed)
    (h : (target.dialect c).suite p = (target.dialect c').suite q) :
    target.rendering c p = target.rendering c' q := by
  have hnames {p : Program} (hp : p.WellFormed) : ∀ t ∈ p.tests, OneLine t.name := fun t ht =>
    oneLine_of_isIdentifier (hp.testName t ht).1
  have hframed := target.framed hc
  have hframed' := target.framed hc'
  have hshared : (target.dialect c).sharedLines p = (target.dialect c').sharedLines q := by
    rw [← hframed.takeWhile_suite hp.hasTest (hnames hp), h,
      hframed'.takeWhile_suite hq.hasTest (hnames hq)]
  obtain ⟨hclass, hbase, hheaders⟩ := target.shared_of_sharedLines hc hc' hshared
  have hdialect := dialect_eq hclass
  have hfunctions : p.tests.map ((target.dialect c).functionLines (.ofVariables p.declarations)) =
      q.tests.map ((target.dialect c).functionLines (.ofVariables q.declarations)) := by
    rw [← hframed.functions_suite hp.hasTest (hnames hp), h, hdialect,
      hframed'.functions_suite hq.hasTest (hnames hq)]
  have htests := (target.legible c).renderedTests_of_functions hframed hfunctions
  have hname : (if target = .junit then some c else none) =
      if target = .junit then some c' else none := by
    split
    · next htarget => rw [hclass htarget]
    · rfl
  rw [rendering, rendering, hname, hbase, hheaders, htests]

/-- Suites that say the same have the same text. -/
private theorem suite_eq_of_rendering_eq (target : Target) {c c' : String} {p q : Program}
    (h : target.rendering c p = target.rendering c' q) :
    (target.dialect c).suite p = (target.dialect c').suite q := by
  simp only [rendering, Rendering.mk.injEq] at h
  obtain ⟨hname, hbase, hheaders, htests⟩ := h
  have hclass : target = .junit → c = c' := by
    intro htarget
    rw [if_pos htarget, if_pos htarget] at hname
    exact Option.some.inj hname
  have hshared : p.shared = q.shared := by rw [Program.shared, Program.shared, hbase, hheaders]
  rw [dialect_eq hclass, Dialect.suite_eq, Dialect.suite_eq, (target.legible c').testsLines_eq,
    (target.legible c').testsLines_eq, htests, Dialect.sharedLines, Dialect.sharedLines, hshared]

end Target

/-- Two sources compile to the same text if and only if what their suites say is the same. -/
theorem source_eq_iff_rendering_eq {source source' : String} {target : Target} {c c' : String}
    {output output' : Output} (h : compile source ⟨target, c⟩ = .ok output)
    (h' : compile source' ⟨target, c'⟩ = .ok output') :
    ∃ p q, Program.parse source = .ok p ∧ Program.parse source' = .ok q ∧
      (output.source = output'.source ↔ target.rendering c p = target.rendering c' q) := by
  obtain ⟨hc, p, diagnostics, hparse, -, rfl⟩ := compile_eq_ok_iff.1 h
  obtain ⟨hc', q, diagnostics', hparse', -, rfl⟩ := compile_eq_ok_iff.1 h'
  exact ⟨p, q, hparse, hparse', target.rendering_eq_of_suite_eq hc hc'
    (Program.wellFormed_of_parse hparse) (Program.wellFormed_of_parse hparse'),
    target.suite_eq_of_rendering_eq⟩

/-- A request with a variable in its path and without a body. -/
def filledPath : Program where
  declarations := [⟨"x", .text "a"⟩]
  tests := [⟨"t",
    [ .request { method := .put, url := "/$x" }
    , .assertion (.statusEquals 200)
    , .assertion (.bodyContains "\");") ]⟩]

/-- The same request with its path written out and a body of no characters. -/
def writtenPath : Program where
  tests := [⟨"t",
    [ .request { method := .put, url := "/a", body := some "" }
    , .assertion (.statusEquals 200)
    , .assertion (.bodyContains "\");") ]⟩]

theorem wellFormed_filledPath : filledPath.WellFormed := by decide

theorem wellFormed_writtenPath : writtenPath.WellFormed := by decide

/-- A variable that is filled in leaves no trace, and in a Rust suite no body is the same as one of
no characters. -/
theorem source_eq_iff_rendering_eq_filledPath :
    ∃ output output', compile filledPath.print ⟨.rust, "A"⟩ = .ok output ∧
      compile writtenPath.print ⟨.rust, "B"⟩ = .ok output' ∧ output.source = output'.source := by
  have hcompile := compile_print wellFormed_filledPath ⟨.rust, "A"⟩ (by decide) rfl
  have hcompile' := compile_print wellFormed_writtenPath ⟨.rust, "B"⟩ (by decide) rfl
  obtain ⟨p, q, hparse, hparse', hiff⟩ := source_eq_iff_rendering_eq hcompile hcompile'
  rw [Program.parse_print wellFormed_filledPath] at hparse
  rw [Program.parse_print wellFormed_writtenPath] at hparse'
  cases hparse
  cases hparse'
  have hrendering :
      Target.rust.rendering "A" filledPath = Target.rust.rendering "B" writtenPath := by
    cbv
  exact ⟨_, _, hcompile, hcompile', hiff.2 hrendering⟩

end HttpSuite
