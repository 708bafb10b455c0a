/-!
# Blank text

The white space of Unicode, and texts that hold nothing else.
-/

namespace HttpSuite.Text

/-- The characters with the Unicode property White_Space. -/
def isWhite (c : Char) : Bool :=
  let n := c.toNat
  (0x09 ≤ n && n ≤ 0x0D) || n == 0x20 || n == 0x85 || n == 0xA0 || n == 0x1680 ||
    (0x2000 ≤ n && n ≤ 0x200A) || n == 0x2028 || n == 0x2029 || n == 0x202F || n == 0x205F ||
    n == 0x3000

/-- Whether nothing of a text is left once its white space is removed. -/
def isBlank (text : String) : Bool := text.toList.all isWhite

/-- A text without the white space at its two ends. -/
def trimWhite (text : List Char) : List Char :=
  ((text.dropWhile isWhite).reverse.dropWhile isWhite).reverse

end HttpSuite.Text
