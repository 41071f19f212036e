import Rcon.Protocol

/-!
# Responses

What a decoder hands on: the header of a frame as it stood on the wire, the text of its body, and
the kind of response it is. The kind follows the type, except that an empty packet with the reserved
id ends a split response and is of a kind of its own.
-/

namespace Rcon

namespace Response

/-- The kinds of response. -/
inductive Kind
  /-- The end of a split response. -/
  | terminator
  /-- Output of a command. -/
  | command
  /-- The answer to an authentication. -/
  | auth
  deriving DecidableEq, Repr

namespace Kind

/-- The kinds of response. -/
def all : List Kind :=
  [.terminator, .command, .auth]

/-- The name of a kind. -/
def name : Kind → String
  | .terminator => "terminator"
  | .command => "command"
  | .auth => "auth"

/-- The kind with a name. -/
def ofName? (name : String) : Option Kind :=
  all.find? fun k ↦ k.name = name

/-- The kind of a response of a type that ends nothing. -/
def ofType : ResponseType → Kind
  | .value => .command
  | .authentication => .auth

end Kind

end Response

/-- A decoded response. -/
structure Response where
  /-- The kind of response. -/
  kind : Response.Kind
  /-- The size, as it stood on the wire. -/
  size : Int
  /-- The request id. -/
  id : Int
  /-- The code of the type. -/
  code : Int
  /-- The text of the body. -/
  body : String
  deriving DecidableEq, Repr

namespace Response

/-- A response of a kind with nothing in it. -/
def empty (kind : Kind) : Response :=
  ⟨kind, 0, 0, 0, ""⟩

/-- Does a response end a split response? -/
def isTerminator (response : Response) : Bool :=
  response.kind = .terminator

end Response

end Rcon
