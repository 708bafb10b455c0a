import HttpSuite.Settings
import HttpSuite.Settings.LogFilter
import HttpSuite.Settings.Toml

/-!
# A format of settings

Settings files as key and value files, and log filters as lists of directives. This is the format
that the programs use. It has strings only, none of the tables and other values of full TOML, and
it does not look into the patterns that a log filter may hold.

## Main definitions

* `Settings.ofToml?`: the settings that a file's text makes.
* `Settings.Format.toml`: the format.
-/

namespace HttpSuite.Settings

/-- Sets one key. Unknown and repeated keys will not do, nor will an inexact target name. -/
def assign? (s : Settings) (entry : String × String) : Option Settings :=
  let (key, value) := entry
  if key = "target" then
    if s.target.isSome then none else (Target.ofName? value).map fun t => { s with target := some t }
  else if key = Field.className.key then
    if s.className.isSome then none else some { s with className := some value }
  else if key = Field.output.key then
    if s.output.isSome then none else some { s with output := some value }
  else if key = Field.logLevel.key then
    if s.logLevel.isSome then none else some { s with logLevel := some value }
  else none

/-- The settings that a file's text makes. -/
def ofToml? (text : String) : Option Settings :=
  (Toml.entries? text).bind fun entries => entries.foldlM assign? {}

/-- Keys with strings. A malformed file is refused without a reason. -/
def Format.toml : Format where
  parse text :=
    match ofToml? text with
    | some s => .ok s
    | none => .error ""
  checkFilter filter := (LogFilter.check filter).mapError LogFilter.Fault.message

end HttpSuite.Settings
