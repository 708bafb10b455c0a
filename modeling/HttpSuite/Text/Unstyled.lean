/-!
# Text without terminal controls

A message that repeats what the user typed must not steer the terminal. Control characters other
than white space are left out, and so are the escape sequences that set colours, move the cursor
or carry data to the terminal.

## Main definitions

* `unstyled`: a text without its terminal controls.
-/

namespace HttpSuite.Text

/-- What the next character of a text belongs to. -/
inductive Styling where
  /-- The text itself. -/
  | text
  /-- A sequence of which the escape character was read. -/
  | escape
  /-- A sequence whose kind an intermediate character has narrowed down. -/
  | narrowed
  /-- A control sequence: parameters up to a letter or mark. -/
  | control
  /-- Data for the terminal; a bell ends the data of a command. -/
  | data (command : Bool)
deriving DecidableEq, Repr

namespace Styling

/-- Whether a character is a control of ASCII. -/
def isControl (c : Char) : Bool := c.toNat < 0x20 || c.toNat == 0x7F

/-- Whether a control character is white space, which a terminal prints. -/
def isPrintedControl (c : Char) : Bool := c == '\t' || c == '\n' || c == '\x0c' || c == '\r'

/-- Whether a character cancels the sequence that it stands in. -/
def isCancel (c : Char) : Bool := c == '\x18' || c == '\x1a'

/-- Where the character after an escape leads. -/
def afterEscape (c : Char) : Styling :=
  if c = '[' then control
  else if c = ']' then data true
  else if c = 'P' ∨ c = 'X' ∨ c = '^' ∨ c = '_' then data false
  else if 0x20 ≤ c.toNat ∧ c.toNat < 0x30 then narrowed
  else if 0x30 ≤ c.toNat ∧ c.toNat < 0x7F then text
  else escape

/-- Reads a character: whether it is printed, and what the next one belongs to. White space prints
and ends a sequence that is no data. -/
def step (s : Styling) (c : Char) : Bool × Styling :=
  if c = '\x1b' then (false, escape)
  else if isCancel c then (false, text)
  else
    match s with
    | text => (!isControl c || isPrintedControl c, text)
    | data command => (false, if command && c == '\x07' then text else data command)
    | escape => if isControl c then control? c escape else (false, afterEscape c)
    | narrowed =>
      if isControl c then control? c narrowed
      else (false, if 0x30 ≤ c.toNat ∧ c.toNat < 0x7F then text else narrowed)
    | control =>
      if isControl c then control? c control
      else (false, if 0x40 ≤ c.toNat ∧ c.toNat < 0x7F then text else control)
where
  /-- A control character inside a sequence. -/
  control? (c : Char) (s : Styling) : Bool × Styling :=
    if isPrintedControl c then (true, text) else (false, s)

/-- The characters that are printed. -/
def printed (s : Styling) : List Char → List Char
  | [] => []
  | c :: rest =>
    let (isPrinted, next) := s.step c
    if isPrinted then c :: next.printed rest else next.printed rest

end Styling

/-- A text without its terminal controls. -/
def unstyled (message : String) : String := String.ofList (Styling.text.printed message.toList)

end HttpSuite.Text
