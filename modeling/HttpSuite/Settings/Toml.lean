/-!
# Key and value files

The part of TOML that a settings file uses: keys with strings, and comments. Keys are bare or
quoted, strings are basic, with escapes, or literal. A long string, between three quotes on each
side, may go on over several lines; all else ends with its line. Lines end in a line feed, with or
without a carriage return.

## Main definitions

* `Toml.basic`, `Toml.literal`: the two sorts of string.
* `Toml.Progress.line`: one line of a file.
* `Toml.entries?`: the keys and values of a file, in order.
-/

namespace HttpSuite.Toml

/-- What is read at the start of a text, and the rest; nothing if the text does not start so. -/
abbrev Reading (α : Type) := Option (α × List Char)

/-- Whether a character may stand in a string or a comment as it is: no control but the tab. The
controls above U+007F count as any other character. -/
def isPlain (c : Char) : Bool := c == '\t' || (0x20 ≤ c.toNat && c.toNat != 0x7F)

/-- Whether a character may stand in a bare key. -/
def isKeyChar (c : Char) : Bool := c.isAlphanum || c == '_' || c == '-'

/-- Without the spaces and tabs at the start. -/
def skipBlanks (text : List Char) : List Char := text.dropWhile fun c => c == ' ' || c == '\t'

/-- The value of a hexadecimal digit. -/
def hexDigit? (c : Char) : Option Nat :=
  if c.isDigit then some (c.toNat - '0'.toNat)
  else if 'a' ≤ c ∧ c ≤ 'f' then some (c.toNat - 'a'.toNat + 10)
  else if 'A' ≤ c ∧ c ≤ 'F' then some (c.toNat - 'A'.toNat + 10)
  else none

/-- The number that hexadecimal digits write. -/
def hexNumber? (digits : List Char) : Option Nat :=
  digits.foldlM (fun n c => (hexDigit? c).map (16 * n + ·)) 0

/-- The character with this code point; surrogates and larger numbers are none. -/
def scalar? (n : Nat) : Option Char :=
  if n < 0xD800 ∨ 0xDFFF < n ∧ n < 0x110000 then some (Char.ofNat n) else none

/-- The character that a backslash and a letter stand for. -/
def escape? : Char → Option Char
  | 'b' => some '\x08'
  | 't' => some '\t'
  | 'n' => some '\n'
  | 'f' => some '\x0c'
  | 'r' => some '\r'
  | '"' => some '"'
  | '\\' => some '\\'
  | _ => none

/-- How a line leaves the string that was read on it. -/
inductive Passage where
  /-- The string ends, and this is the rest of the line. -/
  | closed (rest : List Char)
  /-- The line ends before the string. -/
  | goesOn
  /-- The line ends before the string, and blanks and line ends do not count up to its next
  character. -/
  | joined
deriving DecidableEq, Repr

/-- One more character at the front of what was read. -/
def consRead (c : Option Char) (tail : Option (List Char × Passage)) :
    Option (List Char × Passage) :=
  c.bind fun c => tail.map fun reading => (c :: reading.1, reading.2)

/-- The end of a string at the start of a text: the quotes that still belong to the string, and
the rest. Three quotes end a long string, and up to two of its own may come before them. -/
def closing? (quote : Char) (long : Bool) (text : List Char) : Reading (List Char) :=
  let run := (text.takeWhile (· == quote)).length
  if long then
    if run < 3 then none else some (List.replicate (min run 5 - 3) quote, text.drop (min run 5))
  else if run = 0 then none
  else some ([], text.drop 1)

/-- A line of a string between double quotes, after the opening ones. In a long string a backslash
at the end of a line joins it to what follows. -/
def basic (long : Bool) : List Char → Option (List Char × Passage)
  | [] => some ([], .goesOn)
  | '\\' :: 'u' :: a :: b :: c :: d :: text =>
    consRead ((hexNumber? [a, b, c, d]).bind scalar?) (basic long text)
  | '\\' :: 'U' :: a :: b :: c :: d :: e :: f :: g :: h :: text =>
    consRead ((hexNumber? [a, b, c, d, e, f, g, h]).bind scalar?) (basic long text)
  | '\\' :: letter :: text =>
    if long && (skipBlanks (letter :: text)).isEmpty then some ([], .joined)
    else consRead (escape? letter) (basic long text)
  | c :: text =>
    match closing? '"' long (c :: text) with
    | some (quotes, rest) => some (quotes, .closed rest)
    | none =>
      if c = '\\' then if long then some ([], .joined) else none
      else if isPlain c then consRead (some c) (basic long text)
      else none

/-- A line of a string between single quotes, after the opening ones. -/
def literal (long : Bool) : List Char → Option (List Char × Passage)
  | [] => some ([], .goesOn)
  | c :: text =>
    match closing? '\'' long (c :: text) with
    | some (quotes, rest) => some (quotes, .closed rest)
    | none => if isPlain c then consRead (some c) (literal long text) else none

/-- A line of a string with this quote. -/
def quoted (quote : Char) (long : Bool) (text : List Char) : Option (List Char × Passage) :=
  if quote = '"' then basic long text else literal long text

/-- Whether a character opens a string. -/
def isQuote (c : Char) : Bool := c == '"' || c == '\''

/-- A string that ends on its line, with its quotes. -/
def string : List Char → Reading (List Char)
  | [] => none
  | quote :: text =>
    if isQuote quote then
      match quoted quote false text with
      | some (content, .closed rest) => some (content, rest)
      | _ => none
    else none

/-- A key: a string, or a run of key characters. -/
def key (text : List Char) : Reading (List Char) :=
  match string text with
  | some reading => some reading
  | none =>
    let run := text.takeWhile isKeyChar
    if run.isEmpty then none else some (run, text.dropWhile isKeyChar)

/-- Whether nothing but blanks and a comment is left of a line. -/
def isDone (text : List Char) : Bool :=
  match skipBlanks text with
  | [] => true
  | c :: remark => c == '#' && remark.all isPlain

/-- A long string that the lines so far did not end, and the key that it is for. -/
structure Unfinished where
  name : String
  quote : Char
  /-- What each line so far brought, the last one first. -/
  pieces : List (List Char) := []
  /-- Whether blanks and line ends are left out up to the next character. -/
  joined : Bool := false
deriving DecidableEq, Repr

/-- What is known after some lines of a file. -/
structure Progress where
  entries : List (String × String) := []
  unfinished : Option Unfinished := none
deriving DecidableEq, Repr

namespace Progress

/-- Adds a key and value, with which the line must end. -/
def add (p : Progress) (name : String) (value rest : List Char) : Option Progress :=
  if isDone rest then some ⟨p.entries ++ [(name, String.ofList value)], none⟩ else none

/-- Reads a line as more of an unfinished string. -/
def resume (p : Progress) (u : Unfinished) (text : List Char) : Option Progress := do
  let text := if u.joined then skipBlanks text else text
  if u.joined && text.isEmpty then return { p with unfinished := some u }
  match ← quoted u.quote true text with
  | (piece, .closed rest) => p.add u.name (piece :: u.pieces).reverse.flatten rest
  | (piece, .goesOn) =>
    let pieces := (piece ++ ['\n']) :: u.pieces
    return { p with unfinished := some { u with pieces, joined := false } }
  | (piece, .joined) =>
    return { p with unfinished := some { u with pieces := piece :: u.pieces, joined := true } }

/-- Reads the value of a key. The end of the line right after the quotes that open a long string is
no part of it. -/
def value (p : Progress) (name : String) (text : List Char) : Option Progress := do
  match text with
  | a :: b :: c :: text =>
    if isQuote a && a == b && b == c then
      let u : Unfinished := { name, quote := a }
      if text.isEmpty then return { p with unfinished := some u } else p.resume u text
    else
      let (value, rest) ← string (a :: b :: c :: text)
      p.add name value rest
  | _ =>
    let (value, rest) ← string text
    p.add name value rest

/-- Reads a line between values: blank, a comment, or a key and the start of its value. -/
def start (p : Progress) (text : List Char) : Option Progress :=
  if isDone text then some p
  else do
    let (name, text) ← key (skipBlanks text)
    match skipBlanks text with
    | '=' :: text => p.value (String.ofList name) (skipBlanks text)
    | _ => none

/-- Reads the next line of a file. -/
def line (p : Progress) (text : List Char) : Option Progress :=
  match p.unfinished with
  | some u => p.resume u text
  | none => p.start text

end Progress

/-- A line without the carriage return that belongs to its end. -/
def withoutReturn (text : List Char) : List Char :=
  if text.getLast? = some '\r' then text.dropLast else text

/-- The lines of a file. Only a line that a line feed ends may have a carriage return before it. -/
def linesOf (text : List Char) : List (List Char) :=
  let lines := text.splitOn '\n'
  lines.dropLast.map withoutReturn ++ lines.getLast?.toList

/-- The keys and values of a file, in order; nothing if the file is malformed. A byte order mark
may open the file. -/
def entries? (text : String) : Option (List (String × String)) := do
  let chars :=
    match text.toList with
    | '\ufeff' :: chars => chars
    | chars => chars
  let p ← (linesOf chars).foldlM Progress.line {}
  if p.unfinished.isSome then none else return p.entries

end HttpSuite.Toml
