import Rcon.Frame.Head
import Rcon.Log.Line

/-!
# Notes

What a decoder has to say about its work, in the order in which it happens. A note holds what
happened; `Note.record` is how the log tells it.

A complete frame is told with a preview of its body. The preview is cut before line breaks are
escaped, so a cut body is followed by three dots after exactly `limit` units of text, and no line
break is left in it.
-/

namespace Rcon

/-- What a decoder says about its work. -/
inductive Note
  /-- A chunk arrived, after which this many bytes are buffered. `continuing` says that the buffered
  bytes arrived in more than one chunk. -/
  | received (bytes pending : Nat) (continuing : Bool)
  /-- A frame was completed, and this many bytes are left behind it. -/
  | completed (frame : Frame) (remaining : Nat)
  /-- The head has to wait. -/
  | waiting (why : Wait)
  /-- The buffered bytes were dropped for the end of a split response that is followed by these. -/
  | malformed (discarded : Nat) (bodyTerminator packetTerminator : UInt8)
  /-- The buffered bytes were dropped for being more than the limit. -/
  | stalled (pending limit : Nat)
  deriving DecidableEq, Repr

namespace Note

/-! ### Previews -/

/-- Three dots. -/
def ellipsis : Units :=
  [0x2E, 0x2E, 0x2E]

/-- A unit of a preview: a line break is written as a backslash and the letter n. -/
def previewUnit (u : UInt16) : Units :=
  if u = 0x0A then [0x5C, 0x6E] else [u]

/-- The first `limit` units of a body, followed by three dots if there are more, without line
breaks. -/
def preview (limit : Nat) (body : Units) : Units :=
  (if limit < body.length then body.take limit ++ ellipsis else body).flatMap previewUnit

/-! ### Records -/

/-- A field that holds a whole number. -/
def intField (key : String) (n : Int) : Units × Value :=
  (Units.ofString key, .ofInt n)

/-- A field that holds a natural number. -/
def natField (key : String) (n : Nat) : Units × Value :=
  (Units.ofString key, .ofNat n)

/-- The level of a note: what drops bytes is a warning. -/
def level : Note → Log.Level
  | .malformed .. | .stalled .. => .warn
  | _ => .debug

/-- The message of a note. -/
def message : Note → String
  | .received .. => "Decoding incoming data"
  | .completed .. => "Frame complete"
  | .waiting (.size ..) => "Declared size exceeds buffered bytes"
  | .waiting (.id _) => "Request id outside the accepted range"
  | .waiting (.type _) => "Unknown response type"
  | .waiting (.terminators ..) => "Terminator bytes not yet received"
  | .waiting (.unterminated ..) => "Missing null terminators"
  | .malformed .. => "Malformed terminator packet, discarding buffered bytes"
  | .stalled .. => "No complete frame within buffer limit, discarding buffered bytes"

/-- The fields of a note, with previews of at most `limit` units of text. -/
def fields (limit : Nat) : Note → Fields
  | .received bytes pending continuing =>
    [natField "received" bytes, natField "pending" pending,
      (Units.ofString "continuation", .bool continuing)]
  | .completed frame remaining =>
    [intField "size" frame.size, intField "id" frame.id, intField "type" frame.type.code,
      natField "bodyLength" frame.body.length,
      (Units.ofString "body", .text (preview limit (Units.ofString frame.text))),
      natField "remaining" remaining]
  | .waiting (.size size available) => [intField "size" size, natField "available" available]
  | .waiting (.id id) => [intField "id" id]
  | .waiting (.type code) => [intField "type" code]
  | .waiting (.terminators id code) => [intField "id" id, intField "type" code]
  | .waiting (.unterminated id first second) =>
    [intField "id" id, natField "bodyTerminator" first.toNat,
      natField "packetTerminator" second.toNat]
  | .malformed discarded first second =>
    [natField "discarded" discarded, natField "bodyTerminator" first.toNat,
      natField "packetTerminator" second.toNat]
  | .stalled pending limit => [natField "pending" pending, natField "maxPendingBytes" limit]

/-- How the log tells a note. -/
def record (limit : Nat) (note : Note) : Log.Record :=
  ⟨note.level, note.message, note.fields limit⟩

/-- **A note always has a line**: its fields are numbers, texts and truth values. -/
theorem isSome_line?_record (format : Log.Format) (time : Log.Timestamp) (component : String)
    (limit : Nat) (note : Note) :
    (Log.Entry.line? format
      (Log.Entry.ofRecord time component (note.record limit))).isSome = true := by
  refine Log.Entry.isSome_line?_ofRecord format time component fun f hf ↦ ?_
  obtain ⟨key, value⟩ := f
  have hvalue : (∃ n, value = .number n) ∨ (∃ u, value = .text u) ∨ ∃ b, value = .bool b := by
    unfold record fields at hf
    split at hf <;>
      simp only [List.mem_cons, List.not_mem_nil, or_false, intField, natField, Value.ofInt,
        Value.ofNat, Prod.mk.injEq] at hf <;> grind
  obtain ⟨n, rfl⟩ | ⟨u, rfl⟩ | ⟨b, rfl⟩ := hvalue
  · rfl
  · rfl
  · cases b <;> rfl

/-- Is a note made at all for a log with or without debug output? Only the note of a complete frame,
with its preview, is costly enough to be left out. -/
def isMade (debug : Bool) : Note → Bool
  | .completed .. => debug
  | _ => true

end Note

end Rcon
