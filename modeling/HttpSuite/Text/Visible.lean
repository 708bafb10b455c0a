import HttpSuite.Text.Hidden

/-!
# Text shown in messages

A message that quotes a string shows it between quotes, with every character that would be
invisible or would merge with its neighbour written as a code point.

## Main definitions

* `shown`: a string as a message quotes it.
-/

namespace HttpSuite.Text

/-- One character inside a quoted string of a message. -/
def shownChar (c : Char) : String :=
  if c = '"' then "\\\""
  else if c = '\\' then "\\\\"
  else if c = '\n' then "\\n"
  else if c = '\r' then "\\r"
  else if c = '\t' then "\\t"
  else if c = '\x00' then "\\0"
  else if isHidden c then "\\u\x7b" ++ String.ofList (Nat.toDigits 16 c.toNat) ++ "\x7d"
  else String.singleton c

/-- A string as a message quotes it. -/
def shown (text : String) : String := "\"" ++ String.join (text.toList.map shownChar) ++ "\""

end HttpSuite.Text
