import HttpSuite.Files
import HttpSuite.Program.Reader
import HttpSuite.Program.Validation
import HttpSuite.Target
import HttpSuite.Text.Word

/-!
# Compilation

From source text to a generated suite: the options are checked, the text is read, the program is
validated, and the suite is written. The first failure ends it.

## Main definitions

* `Options`: the target and the class name.
* `Program.generate`: the suite of a program.
* `CompileError`: why there is no suite.
* `compile`, `compileFile`: the suite of a source text, and of a file.
-/

namespace HttpSuite

/-- The class name of a suite that is given none. -/
def defaultClassName : String := "GeneratedTests"

/-- The file that a Rust suite is written to unless another is named. -/
def rustFile : String := "generated_tests.rs"

/-- How a suite is to be generated. -/
structure Options where
  target : Target := .junit
  className : String := defaultClassName
deriving DecidableEq, Repr

namespace Options

/-- The file that the suite is written to unless another is named. -/
def outputFile (options : Options) : String :=
  match options.target with
  | .junit => options.className ++ ".java"
  | .rust => rustFile

/-- The wording for a class name that is no identifier. -/
def badClassName (name : String) : String := "class name '" ++ name ++ "' is not a valid identifier"

/-- What is wrong with the options. The class name is checked for every target. -/
def problem? (options : Options) : Option String :=
  if Text.isIdentifier options.className then none else some (badClassName options.className)

theorem problem?_eq_none_iff {options : Options} :
    options.problem? = none ↔ Text.isIdentifier options.className = true := by
  unfold problem?
  split <;> simp_all

end Options

/-- A generated suite and the warnings about its program. -/
structure Output where
  source : String
  diagnostics : List Diagnostic
deriving DecidableEq, Repr

/-- The suite of a program that keeps the rules. -/
def Program.generate (target : Target) (className : String) (p : Program) :
    Except ValidationError Output := do
  let diagnostics ← p.validate
  return ⟨(target.dialect className).suite p, diagnostics⟩

/-- Why there is no suite. -/
inductive CompileError where
  | source (e : SourceError)
  | validation (e : ValidationError)
  | invalidOptions (problem : String)
  | unreadable (path : String) (fault : FileFault)
deriving DecidableEq, Repr

namespace CompileError

/-- The heading under which the error is reported. -/
def heading : CompileError → String
  | source (.lex _) => "LEXER ERROR"
  | source (.parse _) => "PARSER ERROR"
  | validation _ => "VALIDATION ERROR"
  | invalidOptions _ => "CONFIG ERROR"
  | unreadable _ fault => if fault.kind = .missing then "FILE ERROR" else "IO ERROR"

/-- The full wording. -/
def message : CompileError → String
  | source e => e.message
  | validation e => e.message
  | invalidOptions problem => "invalid compiler options: " ++ problem
  | unreadable path fault => "failed to read " ++ path ++ ": " ++ fault.reason

end CompileError

/-- The suite of a source text. -/
def compile (source : String) (options : Options) : Except CompileError Output :=
  match options.problem? with
  | some problem => .error (.invalidOptions problem)
  | none =>
    match Program.parse source with
    | .error e => .error (.source e)
    | .ok p => (p.generate options.target options.className).mapError .validation

/-- The suite of a source file. The file is read before the options are checked. -/
def compileFile {m : Type → Type} [Monad m] (files : FileAccess m) (path : String)
    (options : Options) : m (Except CompileError Output) := do
  match ← files.read path with
  | .error fault => return .error (.unreadable path fault)
  | .ok source => return compile source options

end HttpSuite
