import HttpSuite.Files
import HttpSuite.Target
import HttpSuite.Text.Blank
import HttpSuite.Text.Word

/-!
# Settings files

A settings file gives what the command line may leave out. All of it is optional. How the file is
written, and what a log filter looks like, is for others to say: both come in from outside, and
nothing here depends on them.

## Main definitions

* `Settings`: what a file sets.
* `Settings.Format`: how settings are written.
* `Settings.check`: the first value that will not do.
* `Settings.load`: the settings of a run.
-/

namespace HttpSuite

/-- What a settings file sets. -/
structure Settings where
  target : Option Target := none
  className : Option String := none
  output : Option String := none
  logLevel : Option String := none
deriving DecidableEq, Repr

/-- How settings are written. A text that will not do is known by a reason, in words. -/
structure Settings.Format where
  /-- The settings that a file's text makes. -/
  parse : String → Except String Settings
  /-- Whether a text is a log filter. -/
  checkFilter : String → Except String Unit

/-- A setting whose value can be wrong. -/
inductive Settings.Field where
  | className
  | output
  | logLevel
deriving DecidableEq, Repr

/-- The key of a setting. -/
def Settings.Field.key : Settings.Field → String
  | className => "class_name"
  | output => "output"
  | logLevel => "log_level"

/-- What is wrong with the value of a setting. -/
inductive Settings.Reason where
  | notIdentifier (name : String)
  | empty
  | badFilter (reason : String)
deriving DecidableEq, Repr

/-- The wording of a reason. -/
def Settings.Reason.message : Settings.Reason → String
  | notIdentifier name => "'" ++ name ++ "' is not a valid identifier"
  | empty => "must not be empty"
  | badFilter reason => reason

/-- Why there are no settings. -/
inductive SettingsError where
  | unreadable (path : String) (fault : FileFault)
  | malformed (reason : String)
  | invalid (field : Settings.Field) (reason : Settings.Reason)
deriving DecidableEq, Repr

namespace SettingsError

/-- The full wording. -/
def message : SettingsError → String
  | unreadable path fault => "Failed to read config file " ++ path ++ ": " ++ fault.reason
  | malformed reason => "Failed to parse config TOML: " ++ reason
  | invalid field reason => "Invalid config value for " ++ field.key ++ ": " ++ reason.message

end SettingsError

namespace Settings

/-- Checks a class name. -/
def checkClassName (name : String) : Except SettingsError Unit :=
  if Text.isIdentifier name then .ok () else .error (.invalid .className (.notIdentifier name))

/-- Checks an output path. -/
def checkOutput (path : String) : Except SettingsError Unit :=
  if path.isEmpty then .error (.invalid .output .empty) else .ok ()

section

variable (format : Format)

/-- Checks a log filter. -/
def checkLogLevel (filter : String) : Except SettingsError Unit :=
  if Text.isBlank filter then .error (.invalid .logLevel .empty)
  else (format.checkFilter filter).mapError fun reason => .invalid .logLevel (.badFilter reason)

/-- The first value that will not do. -/
def check (s : Settings) : Except SettingsError Unit := do
  s.className.forM checkClassName
  s.output.forM checkOutput
  s.logLevel.forM (checkLogLevel format)

/-- The settings that a file's text makes, if it is well formed. -/
def ofText (text : String) : Except SettingsError Settings :=
  (format.parse text).mapError .malformed

/-- The checked settings that a file's text makes. -/
def ofCheckedText (text : String) : Except SettingsError Settings := do
  let s ← ofText format text
  s.check format
  return s

/-- The settings of a run: those of the file at a path, or none if there is no path. -/
def load {m : Type → Type} [Monad m] (files : FileAccess m) (path : Option String) :
    m (Except SettingsError Settings) := do
  match path with
  | none => return .ok {}
  | some path =>
    match ← files.read path with
    | .error fault => return .error (.unreadable path fault)
    | .ok text => return ofCheckedText format text

end

end Settings

end HttpSuite
