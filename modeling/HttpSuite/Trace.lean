import HttpSuite.CommandLine.Run
import HttpSuite.Program.Printer

/-!
# Tracing a compilation

Prints every stage of one compilation: the source, its tokens, the program as a text that comes in
from outside, its canonical source and the generated suite. A stage that fails ends the trace with
its message.

## Main definitions

* `Trace.ofSource`: the trace of a source text.
* `Trace.run`: a run of the tracer.
-/

namespace HttpSuite.Trace

/-- The lines that open a trace. -/
def banner : List String :=
  [ "╔═══════════════════════════════════════════════════════════════"
  , "║ TESTLANG COMPILER TRACER"
  , "╚═══════════════════════════════════════════════════════════════"
  , "" ]

/-- The line under the title of a stage. -/
def rule : String := "─────────────────────────────────────────────────────────────"

/-- What a tracer without arguments prints. -/
def usage : List String :=
  [ "Usage: cargo run --bin trace_compile <test-file> [junit|rust]"
  , ""
  , "Example:"
  , "  cargo run --bin trace_compile tests/fixtures/example.test rust" ]

/-- A message of failure as a line. -/
def failureLine (message : String) : String := "❌ " ++ message

/-- A number at the right end of four columns. -/
def padLine (n : Nat) : String :=
  let digits := toString n
  String.ofList (List.replicate (4 - digits.length) ' ') ++ digits

/-- A number at the left end of three columns. -/
def padColumn (n : Nat) : String :=
  let digits := toString n
  digits ++ String.ofList (List.replicate (3 - digits.length) ' ')

/-- The line of a token. -/
def tokenLine (t : Token) : String :=
  padLine t.span.line ++ ":" ++ padColumn t.span.column ++ " " ++ t.kind.display

/-- The lines of tokens as they are pulled, and those behind the last. An error ends the trace. -/
def tokenLines (behind : List String) : List Pull → List String
  | [] => behind
  | .ok t :: pulls => tokenLine t :: tokenLines behind pulls
  | .error e :: _ => [failureLine e.message]

/-- The lines of a program as it was understood. -/
def programLines (describe : Program → String) (p : Program) : List String :=
  ["🌳 AST:", rule, describe p, "", "🔄 CANONICAL SOURCE:", rule, p.print]

/-- The line of a warning. -/
def warningLine (d : Diagnostic) : String := "⚠️  [" ++ d.code ++ "] " ++ d.display

/-- The last line of a trace that reaches its end. -/
def successLine : String := "✅ Compile succeeded!"

/-- The lines of the suite of a program. -/
def suiteLines (target : Target) (p : Program) : List String :=
  ["⚙️  GENERATED (" ++ target.name ++ "):", rule] ++
    match p.generate target defaultClassName with
    | .error e => [failureLine e.message]
    | .ok output => output.diagnostics.map warningLine ++ [output.source, successLine]

/-- The trace of a source text. -/
def ofSource (describe : Program → String) (target : Target) (source : String) : List String :=
  let programStage :=
    match Program.parse source with
    | .error e => [failureLine e.message]
    | .ok p => programLines describe p ++ suiteLines target p
  ["📝 INPUT:", source, "", "🔤 TOKENS:", rule] ++
    tokenLines ("" :: programStage) (Lexer.ofString source).collect

/-- The outcome of a tracer that cannot start. -/
def refused (message : String) : Outcome :=
  { exitCode := 1, stderr := unlines [failureLine message] }

/-- A run of the tracer. The target is the second argument, and further ones are ignored. A trace
that ends in a failure of the source is a success of the tracer. -/
def run {m : Type → Type} [Monad m] (describe : Program → String) (files : FileAccess m)
    (arguments : List String) : m Outcome := do
  match arguments with
  | [] => return { exitCode := 1, stderr := unlines usage }
  | path :: options =>
    match (options.head?.map Target.ofText).getD (.ok .junit) with
    | .error e => return refused e.message
    | .ok target =>
      match ← files.read path with
      | .error fault =>
        return { refused ("Failed to read " ++ path ++ ": " ++ fault.reason) with
                 stdout := unlines banner }
      | .ok source =>
        return { exitCode := 0, stdout := unlines (banner ++ ofSource describe target source) }

end HttpSuite.Trace
