import HttpSuite.Proofs.Literals.Junit
import HttpSuite.Proofs.Literals.Rust
import HttpSuite.Proofs.RoundTrip

/-!
# The literals of a compiled suite

Whatever texts a source holds, the suite that it compiles to has its literals where they belong:
none is left open, none holds an escape that the target language lacks, and each stands for the
text that the program gives it.

The names that a suite is written with are words: the class name because the options are checked,
the names of the tests because they were tokens.

## Main results

* `compile_eq_ok_iff`: when a text compiles, and to what.
* `scan_compile`: the literals of a compiled suite.
-/

namespace HttpSuite

open Literal

/-- A text compiles if the class name is a word, and it parses to a program that keeps the
rules. -/
theorem compile_eq_ok_iff {source : String} {options : Options} {output : Output} :
    compile source options = .ok output ↔ Text.isIdentifier options.className = true ∧
      ∃ p diagnostics, Program.parse source = .ok p ∧ p.validate = .ok diagnostics ∧
        output = ⟨(options.target.dialect options.className).suite p, diagnostics⟩ := by
  by_cases hname : Text.isIdentifier options.className = true
  · have hproblem := Options.problem?_eq_none_iff.2 hname
    rw [compile, hproblem]
    cases hparse : Program.parse source with
    | error e => simp
    | ok p =>
      cases hvalid : p.validate with
      | error e => simp [Program.generate, hvalid, Except.mapError, bind, Except.bind]
      | ok diagnostics =>
        simp [Program.generate, hvalid, hname, Except.mapError, bind, Except.bind, pure,
          Except.pure, eq_comm]
  · have hproblem : options.problem? = some (Options.badClassName options.className) := by
      simp [Options.problem?, hname]
    rw [compile, hproblem]
    simp [hname]

/-- A program that keeps the rules is compiled from its printed form. -/
theorem compile_print {p : Program} (hp : p.WellFormed) (options : Options)
    {diagnostics : List Diagnostic} (hname : Text.isIdentifier options.className = true)
    (hvalid : p.validate = .ok diagnostics) : compile p.print options =
      .ok ⟨(options.target.dialect options.className).suite p, diagnostics⟩ :=
  compile_eq_ok_iff.2 ⟨hname, p, diagnostics, Program.parse_print hp, hvalid, rfl⟩

/-- A word holds no quotes. -/
theorem quote_not_mem_of_isIdentifier {text : String} (h : Text.isIdentifier text = true) :
    '"' ∉ text.toList :=
  fun hmem => absurd (Text.isWordPart_of_isIdentifier h _ hmem) (by decide)

/-- The literals of a target's suites. -/
def Target.literals : Target → LiteralTable
  | junit => .junit
  | rust => .rust

/-- The dialect of every target writes the literals of its table. -/
theorem Target.follows (target : Target) {className : String}
    (h : Text.isIdentifier className = true) :
    (target.dialect className).Follows target.literals := by
  cases target with
  | junit => exact Dialect.Junit.follows (quote_not_mem_of_isIdentifier h)
  | rust => exact Dialect.Rust.follows

/-- The literals of a compiled suite are well formed and closed, and they are those of the
program that the source is. -/
theorem scan_compile {source : String} {options : Options} {output : Output}
    (h : compile source options = .ok output) :
    ∃ p, Program.parse source = .ok p ∧
      scan output.source = some (options.target.literals.ofProgram p) := by
  obtain ⟨hname, p, diagnostics, hparse, -, rfl⟩ := compile_eq_ok_iff.1 h
  have hwords : ∀ t ∈ p.tests, '"' ∉ t.name.toList := fun t ht =>
    quote_not_mem_of_isIdentifier ((Program.wellFormed_of_parse hparse).testName t ht).1
  exact ⟨p, hparse, ((options.target.follows hname).suite hwords).scan_eq⟩

/-- Quotes, a backslash at the end of a text, and a variable whose value needs escapes itself. -/
theorem scan_compile_escapes :
    let p : Program :=
      { config := some { headers := [⟨"k\"", "\\"⟩] }
        declarations := [⟨"v", .text "\"\n"⟩]
        tests := [⟨"t",
          [ .request { method := .post, url := "/$v" }
          , .assertion (.headerContains "h" "$v")
          , .assertion (.statusEquals 200) ]⟩] }
    ∃ output, compile p.print { target := .rust } = .ok output ∧ scan output.source = some
      [ "http://localhost:8080", "", "", "request failed", "response body is not text"
      , "failed to build HTTP client", "k\"", "invalid default header name 'k\"'", "\\"
      , "invalid value for default header 'k\"'"
      , "\x7b\x7d\x7b\x7d", "/\"\n", "", "h", "\"\n" ] := by
  intro p
  have hp : p.WellFormed := by decide
  have hparse := Program.parse_print hp
  have hcompile : compile p.print { target := .rust } = .ok ⟨Dialect.rust.suite p, []⟩ :=
    compile_eq_ok_iff.2 ⟨by decide, p, [], hparse, rfl, rfl⟩
  obtain ⟨q, hq, hscan⟩ := scan_compile hcompile
  rw [hparse] at hq
  cases hq
  refine ⟨_, hcompile, hscan.trans ?_⟩
  simp only [p]
  with_unfolding_all rfl

end HttpSuite
