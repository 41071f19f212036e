import Rcon.Bytes
import Rcon.Protocol
import Rcon.Text.Utf8

/-!
# Packets

Frames as a server writes them, rightly or wrongly. Size and terminators are parts of their own
here, so that a packet need not be a frame that a decoder would take.

* `Packet.bytes` writes a packet.
* `FrameSpec` asks for one by numbers and a text, and fills in what is not said. `FrameSpec.packet?`
  is that packet: there is none where a number does not fit its place. `FrameSpec.encode?` is its
  bytes.
-/

namespace Rcon

/-- The parts of a frame, in order. -/
structure Packet where
  /-- The size. -/
  size : Int
  /-- The request id. -/
  id : Int
  /-- The code of the type. -/
  code : Int
  /-- The bytes of the body. -/
  body : Bytes
  /-- The byte after the body. -/
  bodyTerminator : UInt8 := 0
  /-- The byte at the end. -/
  packetTerminator : UInt8 := 0
  deriving DecidableEq, Repr

namespace Packet

/-- The bytes of a packet. -/
def bytes (packet : Packet) : Bytes :=
  Bytes.ofInt32 packet.size ++ Bytes.ofInt32 packet.id ++ Bytes.ofInt32 packet.code ++
    packet.body ++ [packet.bodyTerminator, packet.packetTerminator]

theorem length_bytes (packet : Packet) :
    packet.bytes.length = Protocol.minFrameBytes + packet.body.length := by
  simp only [bytes, List.length_append, Bytes.length_ofInt32, List.length_cons, List.length_nil,
    Protocol.minFrameBytes]
  omega

end Packet

/-- What a frame is to be written from. -/
structure FrameSpec where
  /-- The request id. -/
  id : Number
  /-- The code of the type. -/
  code : Number := .ofInt ResponseType.value.code
  /-- The text of the body. -/
  body : String := ""
  /-- The size, when it is not to be that of the frame. -/
  size : Option Number := none
  /-- The byte after the body. -/
  bodyTerminator : Number := .ofInt 0
  /-- The byte at the end. -/
  packetTerminator : Number := .ofInt 0
  deriving DecidableEq

namespace FrameSpec

/-- What is written for a number of the header. -/
def headerField? : Number → Option Int :=
  Number.fitted? Bytes.int32Least Bytes.int32Greatest

/-- What is written for a terminator. -/
def terminator? (n : Number) : Option UInt8 :=
  (n.fitted? 0 255).map fun b ↦ UInt8.ofNat b.toNat

/-- The size of a frame with a body of so many bytes: what follows the size. -/
def properSize (bodyBytes : Nat) : Int :=
  10 + bodyBytes

/-- The packet that is asked for, if every number fits its place. -/
def packet? (spec : FrameSpec) : Option Packet := do
  let body := Utf8.encode spec.body
  let size ← headerField? (spec.size.getD (.ofInt (properSize body.length)))
  let id ← headerField? spec.id
  let code ← headerField? spec.code
  let bodyTerminator ← terminator? spec.bodyTerminator
  let packetTerminator ← terminator? spec.packetTerminator
  return { size, id, code, body, bodyTerminator, packetTerminator }

/-- The bytes of the frame that is asked for. -/
def encode? (spec : FrameSpec) : Option Bytes :=
  spec.packet?.map Packet.bytes

example : terminator? (.finite (-1 / 2)) = none := by decide +kernel

example : headerField? (.finite (4294967295 / 2)) = none := by decide +kernel

end FrameSpec

end Rcon
