import HttpSuite.CommandLine.Run
import HttpSuite.Settings.Format
import HttpSuite.Text.Unstyled

/-!
# Arguments

The arguments of the compiler: an input, an output, and three options that may stand anywhere. An
option takes its value from the same argument or from the next one; `--` ends the options. A flag
asks for a text and ends the reading.

A value that comes with the next argument is only looked at when the argument after it is read, so
that an argument which is no argument of the program is reported first.

## Main definitions

* `Slot`, `Flag`: what an argument can set, and what it can ask for.
* `ArgumentError`: why arguments will not do.
* `Arguments.parse`: what the arguments ask for.
* `Conventions.standard`: how the programs write arguments and settings.
-/

namespace HttpSuite

/-- What an argument can set. -/
inductive Slot where
  | input
  | output
  | target
  | className
  | config
deriving DecidableEq, Repr

/-- How a message names a slot. -/
def Slot.display : Slot → String
  | input => "<INPUT>"
  | output => "[OUTPUT]"
  | target => "--target <TARGET>"
  | className => "--class-name <CLASS_NAME>"
  | config => "--config <PATH>"

/-- The slot of a long option. -/
def Slot.ofOption? (name : String) : Option Slot :=
  if name = "target" then some target
  else if name = "class-name" then some className
  else if name = "config" then some config
  else none

/-- A text that an argument can ask for. -/
inductive Flag where
  | help
  | version
deriving DecidableEq, Repr

namespace Flag

/-- The long form of a flag, without its dashes. -/
def name : Flag → String
  | help => "help"
  | version => "version"

/-- The short form of a flag, without its dash. -/
def letter : Flag → Char
  | help => 'h'
  | version => 'V'

/-- The text that a flag asks for. -/
def text : Flag → String
  | help => unlines
    [ "Compile TestLang .test files into executable HTTP test suites"
    , ""
    , "Usage: testlang [OPTIONS] <INPUT> [OUTPUT]"
    , ""
    , "Arguments:"
    , "  <INPUT>   Source file to compile"
    , "  [OUTPUT]  Where to write the generated suite (<class name>.java or generated_tests.rs by "
        ++ "default)"
    , ""
    , "Options:"
    , "  -t, --target <TARGET>          Test framework to generate for: junit or rust"
    , "      --class-name <CLASS_NAME>  Name of the generated JUnit class"
    , "      --config <PATH>            TOML config file (falls back to $TESTLANG_CONFIG)"
    , "  -h, --help                     Print help"
    , "  -V, --version                  Print version" ]
  | version => "testlang 0.1.0\n"

/-- All flags. -/
def all : List Flag := [help, version]

end Flag

/-- Why arguments will not do. -/
inductive ArgumentError where
  | noInput
  | unexpected (argument : String)
  | noValue (slot : Slot)
  | repeated (slot : Slot)
  | badTarget (given : String) (e : UnknownTarget)
  | valueForFlag (flag : Flag) (given : String)
deriving DecidableEq, Repr

namespace ArgumentError

/-- The full wording. -/
def message : ArgumentError → String
  | noInput =>
    "error: the following required arguments were not provided:\n  " ++ Slot.input.display
  | unexpected argument => "error: unexpected argument '" ++ argument ++ "' found"
  | noValue slot =>
    "error: a value is required for '" ++ slot.display ++ "' but none was supplied"
  | repeated slot => "error: the argument '" ++ slot.display ++ "' cannot be used multiple times"
  | badTarget given e =>
    "error: invalid value '" ++ given ++ "' for '" ++ Slot.target.display ++ "': " ++ e.message
  | valueForFlag flag given =>
    "error: unexpected value '" ++ given ++ "' for '--" ++ flag.name
      ++ "' found; no more were expected"

end ArgumentError

namespace Arguments

/-- Why the reading of arguments stops before its end. -/
inductive Stop where
  | flag (flag : Flag)
  | error (e : ArgumentError)
deriving DecidableEq, Repr

/-- What is printed then. A message may repeat an argument, so terminal controls are left out of
it. -/
def Stop.halt : Stop → Halt
  | flag f => { text := f.text, isError := false }
  | error e => { text := Text.unstyled e.message ++ "\n", isError := true }

/-- The arguments read so far. -/
structure Collected where
  input : Option String := none
  output : Option String := none
  target : Option Target := none
  className : Option String := none
  config : Option String := none
  /-- How many arguments stood for themselves. -/
  positionals : Nat := 0
  /-- A slot whose value was not looked at yet, or is still to come. -/
  pending : Option (Slot × Option String) := none
deriving DecidableEq, Repr

namespace Collected

/-- Whether a slot is set. -/
def isSet (c : Collected) : Slot → Bool
  | .input => c.input.isSome
  | .output => c.output.isSome
  | .target => c.target.isSome
  | .className => c.className.isSome
  | .config => c.config.isSome

/-- A path is a value only if it is not empty. -/
def path (slot : Slot) (value : String) : Except ArgumentError String :=
  if value.isEmpty then .error (.noValue slot) else .ok value

/-- Sets a slot. -/
def set (c : Collected) (slot : Slot) (value : String) : Except ArgumentError Collected := do
  if c.isSet slot then throw (.repeated slot)
  match slot with
  | .input => return { c with input := some (← path slot value) }
  | .output => return { c with output := some (← path slot value) }
  | .config => return { c with config := some (← path slot value) }
  | .className => return { c with className := some value }
  | .target =>
    match Target.ofText value with
    | .ok t => return { c with target := some t }
    | .error e => throw (.badTarget value e)

/-- Sets the pending slot, if there is one. -/
def settle (c : Collected) : Except ArgumentError Collected :=
  match c.pending with
  | none => .ok c
  | some (slot, none) => .error (.noValue slot)
  | some (slot, some value) => set { c with pending := none } slot value

/-- Reads an argument that stands for itself: the first is the input, the second the output. -/
def positional (c : Collected) (argument : String) : Except ArgumentError Collected := do
  match c.positionals with
  | 0 => return { ← c.settle with positionals := 1, pending := some (.input, some argument) }
  | 1 => return { ← c.settle with positionals := 2, pending := some (.output, some argument) }
  | _ => throw (.unexpected argument)

/-- Reads an option of a slot, with the value that the argument brings. -/
def option (c : Collected) (slot : Slot) (value : Option String) :
    Except ArgumentError Collected := do
  let c ← c.settle
  match value with
  | some value => c.set slot value
  | none => return { c with pending := some (slot, none) }

/-- Asks for the text of a flag, once the pending slot is set. -/
def flag (c : Collected) (f : Flag) : Stop :=
  match c.settle with
  | .ok _ => .flag f
  | .error e => .error e

/-- Reads an argument that starts with two dashes, which are left out of `text`. -/
def long (c : Collected) (text : List Char) : Except Stop Collected :=
  let name := String.ofList (text.takeWhile (· != '='))
  let value :=
    match text.dropWhile (· != '=') with
    | [] => none
    | _ :: value => some (String.ofList value)
  match Slot.ofOption? name with
  | some slot => (c.option slot value).mapError .error
  | none =>
    match Flag.all.find? (·.name = name), value with
    | some f, some value => .error (.error (.valueForFlag f value))
    | some f, none => .error (c.flag f)
    | none, _ => .error (.error (.unexpected ("--" ++ name)))

/-- Reads an argument that starts with one dash; `letter` and `text` follow it. -/
def short (c : Collected) (letter : Char) (text : List Char) : Except Stop Collected :=
  if letter = 't' then
    let value :=
      match text with
      | [] => none
      | '=' :: value => some (String.ofList value)
      | value => some (String.ofList value)
    (c.option .target value).mapError .error
  else
    match Flag.all.find? (·.letter = letter) with
    | some f => .error (c.flag f)
    | none => .error (.error (.unexpected ("-" ++ String.singleton letter)))

/-- Reads an argument that starts with no dash, or is one dash alone. -/
def plain (c : Collected) (argument : String) : Except ArgumentError Collected :=
  match c.pending with
  | some (slot, none) => .ok { c with pending := some (slot, some argument) }
  | _ => c.positional argument

/-- Reads arguments in order; `optionsOver` says whether `--` was met. -/
def read (optionsOver : Bool) (c : Collected) : List String → Except Stop Collected
  | [] => c.settle.mapError .error
  | argument :: arguments => do
    if optionsOver then read true (← (c.positional argument).mapError .error) arguments
    else
      match argument.toList with
      | ['-', '-'] => read true c arguments
      | '-' :: '-' :: text => read false (← c.long text) arguments
      | '-' :: letter :: text => read false (← c.short letter text) arguments
      | _ => read false (← (c.plain argument).mapError .error) arguments

end Collected

/-- What arguments ask for. -/
def parse (arguments : List String) : Except Stop Arguments := do
  let c ← Collected.read false {} arguments
  match c.input with
  | some input =>
    return { input, output := c.output, target := c.target, className := c.className,
             config := c.config }
  | none => throw (.error .noInput)

end Arguments

/-- How the programs write arguments and settings. -/
def Conventions.standard : Conventions where
  parse arguments := (Arguments.parse arguments).mapError Arguments.Stop.halt
  settings := .toml

end HttpSuite
