import Rcon.Number.Shortest

/-!
# Errors

The errors that the library raises, as causes with their data. `RconError.name` is the name that an
error goes by, `RconError.message` its wording, and `RconError.text` the two together.

A caller's function may raise something of its own, an error with a message or a bare text: this is
`Raised`. And a value may be used for what it cannot do: this is `Misuse`.
-/

namespace Rcon

/-- An error of the library. -/
inductive RconError
  /-- An error that says nothing but its message. -/
  | plain (message : String)
  /-- More bytes are buffered than the limit allows, and no frame of them is complete. -/
  | frameStall (pending limit : Number)
  /-- A configuration does not fit, for these reasons. -/
  | invalidConfig (issues : List String)
  deriving DecidableEq

namespace RconError

/-- The name that an error goes by. -/
def name : RconError → String
  | .plain _ => "RconError"
  | .frameStall .. => "FrameStallError"
  | .invalidConfig _ => "DecoderConfigError"

/-- The wording of an error. -/
def message : RconError → String
  | .plain message => message
  | .frameStall pending limit =>
    "Decoder stalled: " ++ pending.text ++ " bytes buffered without a complete frame (limit " ++
      limit.text ++ ")"
  | .invalidConfig issues => "Invalid decoder config: " ++ String.intercalate "; " issues

/-- The name and the wording of an error; the name alone when there is no wording. -/
def text (e : RconError) : String :=
  if e.message = "" then e.name else e.name ++ ": " ++ e.message

end RconError

/-- What a caller's function may raise. -/
inductive Raised
  /-- An error with a message. -/
  | error (message : String)
  /-- A bare text. -/
  | text (content : String)
  deriving DecidableEq, Repr

namespace Raised

/-- What was raised as an error: a bare text becomes the message of one. -/
def toError : Raised → Raised
  | .error message => .error message
  | .text content => .error content

end Raised

/-- A use that a value does not allow. -/
inductive Misuse
  /-- An object without a text is to be shown as text. -/
  | noText
  /-- Something is asked of an object where there is none. -/
  | noObject
  /-- An operation that gives its name is asked of something that is no object. -/
  | noObjectFor (operation : String)
  /-- What is called by this name cannot be called. -/
  | notCallable (name : String)
  deriving DecidableEq, Repr

namespace Misuse

/-- The wording of a misuse. -/
def message : Misuse → String
  | .noText => "Cannot convert object to primitive value"
  | .noObject => "Cannot convert undefined or null to object"
  | .noObjectFor operation => operation ++ " called on null or undefined"
  | .notCallable name => name ++ " is not a function"

end Misuse

end Rcon
