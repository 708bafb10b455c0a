/-!
# Request methods

The four methods a suite can use. Two of them send a body.
-/

namespace HttpSuite

/-- A method of HTTP that a request statement can name. -/
inductive Method where
  | get
  | post
  | put
  | delete
deriving DecidableEq, Repr

namespace Method

/-- The method as it stands in source text and on the wire. -/
def verb : Method → String
  | get => "GET"
  | post => "POST"
  | put => "PUT"
  | delete => "DELETE"

/-- Whether a request with this method sends a body. -/
def carriesBody : Method → Bool
  | post | put => true
  | get | delete => false

end Method

end HttpSuite
