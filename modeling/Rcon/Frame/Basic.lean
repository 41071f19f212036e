import Rcon.Response
import Rcon.Text.Blank
import Rcon.Text.Utf8

/-!
# Frames

A complete frame as it is read from the wire: its header and the bytes of its body, which hold no
zero. It takes `Frame.length` bytes of the stream, **whatever its size says**, and `Frame.response`
is what it tells.
-/

namespace Rcon

/-- A complete frame. -/
structure Frame where
  /-- The size, as it stood on the wire. -/
  size : Int
  /-- The request id. -/
  id : Int
  /-- The type of response. -/
  type : ResponseType
  /-- The bytes of the body. -/
  body : Bytes
  deriving DecidableEq, Repr

namespace Frame

/-- The bytes of the stream that a frame takes: the header, the body and two terminators. -/
def length (frame : Frame) : Nat :=
  Protocol.minFrameBytes + frame.body.length

/-- The text of the body. -/
def text (frame : Frame) : String :=
  Utf8.text frame.body

/-- The kind of response that a frame is: with the reserved id and nothing but blanks in its body it
ends a split response, and otherwise it is what its type says. -/
def kind (frame : Frame) : Response.Kind :=
  if frame.id = RequestId.terminator ∧ frame.text.toList.all isBlank then .terminator
  else .ofType frame.type

/-- The response that a frame tells. -/
def response (frame : Frame) : Response where
  kind := frame.kind
  size := frame.size
  id := frame.id
  code := frame.type.code
  body := frame.text

theorem length_pos (frame : Frame) : 0 < frame.length := by
  unfold length Protocol.minFrameBytes
  omega

end Frame

end Rcon
