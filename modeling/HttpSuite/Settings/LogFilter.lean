import HttpSuite.Text.Alphanumeric
import HttpSuite.Text.Blank

/-!
# Log filters

A log filter is a list of directives divided by commas. A directive is a level, the name of a
target, or a target with a level; a target may be followed by a span in square brackets. Filters
are only checked here: what is logged is no part of a run's outcome.

## Main definitions

* `LogFilter.isLevel`: the names and numbers of levels.
* `LogFilter.check`: what is wrong with a filter.
-/

namespace HttpSuite.LogFilter

/-- What can be wrong with a directive. -/
inductive Fault where
  | badDirective
  | badLevel
deriving DecidableEq, Repr

/-- The wording of a fault. -/
def Fault.message : Fault → String
  | badDirective => "invalid filter directive"
  | badLevel =>
    "error parsing level filter: expected one of \"off\", \"error\", \"warn\", \"info\", "
      ++ "\"debug\", \"trace\", or a number 0-5"

/-- The names of the levels. -/
def levelNames : List String := ["off", "error", "warn", "info", "debug", "trace"]

/-- The greatest level as a number. -/
def maxLevel : Nat := 5

/-- Whether a text is a number of a level. A plus sign and zeros may come first. -/
def isLevelNumber (text : List Char) : Bool :=
  let digits := if text.head? = some '+' then text.tail else text
  !digits.isEmpty && digits.all Char.isDigit && Nat.ofDigitChars 10 digits 0 ≤ maxLevel

/-- Whether a text is a level: its name in any case, or its number. -/
def isLevel (text : List Char) : Bool :=
  isLevelNumber text || levelNames.contains (String.ofList (text.map Char.toLower))

/-- How far a directive has been read. -/
inductive State where
  | start
  | word
  | span
  | field (empty : Bool)
  | fields
  | spanEnd
  /-- The level starts at this character. -/
  | level (start : Nat)
deriving DecidableEq, Repr

/-- Whether a character may start a target: a letter or digit of any script, or one of three
marks. -/
def startsTarget (c : Char) : Bool :=
  Text.isAlphanumeric c || c == '-' || c == ':' || c == '_'

/-- Reads the character at place `i` of a directive. -/
def step (i : Nat) (c : Char) : State → Option State
  | .start => if c = '[' then some .span else if startsTarget c then some .word else none
  | .word =>
    if c = '=' then some (.level (i + 1)) else if c = '[' then some .span else some .word
  | .span =>
    if c = ']' then some .spanEnd else if c = '\x7b' then some (.field true) else some .span
  | .field empty =>
    if c = '\x7d' then if empty then none else some .fields else some (.field false)
  | .fields => if c = ']' then some .spanEnd else none
  | .spanEnd => if c = '=' then some (.level (i + 1)) else none
  | .level start => some (.level start)

/-- Reads the characters of a directive from place `i` on. -/
def scan (i : Nat) (state : State) : List Char → Option State
  | [] => some state
  | c :: text => (step i c state).bind fun state => scan (i + 1) state text

/-- Checks a directive. Blanks at its ends are skipped in reading it, but the level is cut from the
directive as it was given, at the place counted without them. -/
def checkDirective (given : List Char) : Except Fault Unit :=
  match scan 0 .start (Text.trimWhite given) with
  | some .word | some .spanEnd => .ok ()
  | some (.level start) =>
    let level := given.drop start
    if level.isEmpty || isLevel level then .ok () else .error .badLevel
  | _ => .error .badDirective

/-- The first fault of a filter. Empty directives are skipped. -/
def check (filter : String) : Except Fault Unit :=
  ((filter.toList.splitOn ',').filter fun directive => !directive.isEmpty).forM checkDirective

end HttpSuite.LogFilter
