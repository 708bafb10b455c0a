import HttpSuite.Placeholder
import HttpSuite.Program

/-!
# Substitution

The variables of a program as a table of values, and the texts that result from it. The entries
are applied one after the other, each to the whole text that the ones before it left; longer names
come first, so that a name is not mistaken for a shorter one that it starts with.

## Main definitions

* `Substitution.put`: one more declaration.
* `Substitution.ofVariables`: the table of a list of declarations.
* `Substitution.apply`: a text with its placeholders filled.
-/

namespace HttpSuite

/-- A table of names and the texts that stand for them. -/
structure Substitution where
  entries : List (String × String) := []
deriving DecidableEq, Repr

namespace Substitution

/-- Adds a declaration. A name that is already there keeps its place and gets the new value. -/
def put (entries : List (String × String)) (v : Variable) : List (String × String) :=
  if entries.any fun entry => entry.1 == v.name then
    entries.map fun entry => if entry.1 = v.name then (entry.1, v.value.asText) else entry
  else entries ++ [(v.name, v.value.asText)]

/-- The table of a list of declarations: by length in bytes, the longest name first, and names of
one length as they were first declared. -/
def ofVariables (declared : List Variable) : Substitution where
  entries := (declared.foldl put []).mergeSort fun a b => b.1.utf8ByteSize ≤ a.1.utf8ByteSize

/-- Fills the placeholders of a text, entry by entry. -/
def applyChars (s : Substitution) (text : List Char) : List Char :=
  s.entries.foldl (fun text entry => Placeholder.fill entry.1.toList entry.2.toList text) text

/-- A text with its placeholders filled. Unknown ones stay. -/
def apply (s : Substitution) (text : String) : String := String.ofList (s.applyChars text.toList)

end Substitution

end HttpSuite
