/-!
# Placeholders

A placeholder is a dollar sign and a name. It is recognised as plain text, wherever it stands: a
name that goes on after it makes no difference.

## Main definitions

* `Placeholder.mentions`: whether a text holds a placeholder.
* `Placeholder.fill`: a text with a value in the place of every occurrence of one placeholder.
-/

namespace HttpSuite.Placeholder

/-- Whether a text starts with the placeholder of `name`. -/
def starts (name : List Char) : List Char → Bool
  | [] => false
  | c :: text => c == '$' && name.isPrefixOf text

/-- Whether a text holds the placeholder of `name`. -/
def mentions (name : List Char) : List Char → Bool
  | [] => false
  | c :: text => starts name (c :: text) || mentions name text

/-- Writes `value` for each placeholder of `name`, from left to right; the first `skipped`
characters belong to a placeholder that was already replaced. -/
def fillFrom (name value : List Char) (skipped : Nat) : List Char → List Char
  | [] => []
  | c :: text =>
    match skipped with
    | skipped + 1 => fillFrom name value skipped text
    | 0 =>
      if starts name (c :: text) then value ++ fillFrom name value name.length text
      else c :: fillFrom name value 0 text

/-- A text with `value` in the place of every placeholder of `name`. -/
def fill (name value text : List Char) : List Char := fillFrom name value 0 text

end HttpSuite.Placeholder
