import HttpSuite.Compile
import HttpSuite.Settings

/-!
# The compiler as a command

One run of the compiler: arguments, settings, the input file, the suite, the output file. A run
ends with the first failure and then has written nothing.

How arguments and settings are written is no matter of the compiler. A run is given both as
conventions, and answers for what it does with the result.

## Main definitions

* `Arguments`, `Halt`: what arguments ask for, and why they ask for no compilation.
* `Conventions`: how arguments and settings are written.
* `Outcome`: the exit code of a run and what it printed.
* `Job`: what a run has to do, once arguments and settings are merged.
* `Failure`, `Failure.report`: why a run fails, and what it prints then.
* `CommandLine.run`: a run.
-/

namespace HttpSuite

/-- A compilation that arguments ask for. -/
structure Arguments where
  input : String
  output : Option String := none
  target : Option Target := none
  className : Option String := none
  config : Option String := none
deriving DecidableEq, Repr

/-- Why no compilation is asked for. -/
structure Halt where
  /-- What is printed, with its line ends. -/
  text : String
  /-- Whether the arguments are wrong; otherwise they ask for the text. -/
  isError : Bool
deriving DecidableEq, Repr

/-- How arguments and settings are written. -/
structure Conventions where
  /-- What arguments ask for. -/
  parse : List String → Except Halt Arguments
  settings : Settings.Format

/-- What a run leaves besides files. -/
structure Outcome where
  exitCode : Nat
  stdout : String := ""
  stderr : String := ""
deriving DecidableEq, Repr

/-- What a run has to do. -/
structure Job where
  input : String
  output : String
  options : Options
deriving DecidableEq, Repr

/-- Merges arguments and settings, field by field. Arguments win over settings, and settings over
the defaults. -/
def Job.resolve (arguments : Arguments) (settings : Settings) : Job :=
  let options : Options :=
    { target := (arguments.target <|> settings.target).getD .junit
      className := (arguments.className <|> settings.className).getD defaultClassName }
  { input := arguments.input
    output := (arguments.output <|> settings.output).getD options.outputFile
    options }

/-- Why a run fails. -/
inductive Failure where
  | settings (e : SettingsError)
  | compile (e : CompileError)
  | unwritable (path : String) (fault : FileFault)
deriving DecidableEq, Repr

namespace Failure

/-- What is printed before trouble with a file. -/
def fileTrouble : String := "Error reading/writing files: "

/-- The heading of a report. -/
def heading : Failure → String
  | settings _ => "CONFIG ERROR"
  | compile e => e.heading
  | unwritable _ _ => "IO ERROR"

/-- The body of a report. -/
def body : Failure → String
  | settings e => e.message
  | compile (.unreadable path fault) =>
    if fault.kind = .missing then "Input file not found: " ++ path
    else fileTrouble ++ (CompileError.unreadable path fault).message
  | compile e => e.message
  | unwritable path fault => fileTrouble ++ "failed to write " ++ path ++ ": " ++ fault.reason

/-- The advice at the end of a report. -/
def hint : Failure → String
  | compile (.source (.lex _)) => "\nPlease fix the syntax error and try again.\n"
  | compile (.source (.parse _)) => "\nPlease check your .test file syntax.\n"
  | compile (.validation _) =>
    "\nPlease ensure your tests meet the requirements:\n  - At least 1 HTTP request per test\n"
      ++ "  - At least 2 assertions per test\n"
  | _ => ""

/-- What a failed run prints. -/
def report (f : Failure) : String := "\n=== " ++ f.heading ++ " ===\n" ++ f.body ++ "\n" ++ f.hint

end Failure

namespace CommandLine

/-- The environment variable that names a settings file when the arguments do not. -/
def settingsVariable : String := "TESTLANG_CONFIG"

/-- The outcome of a run that fails. -/
def failed (f : Failure) : Outcome := { exitCode := 1, stderr := f.report }

/-- The outcome of a run whose arguments ask for no compilation. -/
def halted (halt : Halt) : Outcome :=
  if halt.isError then { exitCode := 1, stderr := halt.text }
  else { exitCode := 0, stdout := halt.text }

/-- The lines that report warnings. -/
def warningLines (diagnostics : List Diagnostic) : String :=
  String.join (diagnostics.map fun d => d.display ++ "\n")

/-- Compiles the input of a job and writes its output. Warnings are printed before the output is
written. -/
def perform {m : Type → Type} [Monad m] (files : FileAccess m) (job : Job) : m Outcome := do
  match ← compileFile files job.input job.options with
  | .error e => return failed (.compile e)
  | .ok output =>
    let warnings := warningLines output.diagnostics
    match ← files.write job.output output.source with
    | .error fault =>
      return { exitCode := 1, stderr := warnings ++ (Failure.unwritable job.output fault).report }
    | .ok () =>
      return { exitCode := 0, stdout := "Successfully generated " ++ job.output ++ "\n",
               stderr := warnings }

/-- A run of the compiler with the arguments and the environment's settings file. -/
def run {m : Type → Type} [Monad m] (conventions : Conventions) (files : FileAccess m)
    (settingsPath : Option String) (arguments : List String) : m Outcome := do
  match conventions.parse arguments with
  | .error halt => return halted halt
  | .ok asked =>
    match ← Settings.load conventions.settings files (asked.config <|> settingsPath) with
    | .error e => return failed (.settings e)
    | .ok settings => perform files (Job.resolve asked settings)

end CommandLine

end HttpSuite
