import HttpSuite.Dialect.Junit
import HttpSuite.Dialect.Rust

/-!
# Targets

The test frameworks that suites are generated for, and the names by which a user asks for them.
-/

namespace HttpSuite

/-- A test framework. -/
inductive Target where
  | junit
  | rust
deriving DecidableEq, Repr

/-- A name that is no target's. -/
structure UnknownTarget where
  /-- The name in lower case. -/
  name : String
deriving DecidableEq, Repr

namespace UnknownTarget

/-- The full wording. -/
def message (e : UnknownTarget) : String :=
  "unknown target '" ++ e.name ++ "' (expected junit or rust)"

end UnknownTarget

namespace Target

/-- The name of a target. -/
def name : Target → String
  | junit => "junit"
  | rust => "rust"

/-- The target whose exact name this is. -/
def ofName? (text : String) : Option Target := [junit, rust].find? fun t => t.name == text

/-- The target that a user asks for. Case of ASCII letters does not matter, and the language of the
JUnit dialect stands for it. -/
def ofText (text : String) : Except UnknownTarget Target :=
  let lower := String.ofList (text.toList.map Char.toLower)
  if lower = "junit" ∨ lower = "java" then .ok junit
  else if lower = "rust" then .ok rust
  else .error ⟨lower⟩

/-- The dialect of a target. Only JUnit suites have a class name. -/
def dialect (className : String) : Target → Dialect
  | junit => .junit className
  | rust => .rust

end Target

end HttpSuite
