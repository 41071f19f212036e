import Rcon.Frame.Basic

/-!
# The head of the buffered bytes

What stands first in the buffered bytes: a complete frame, a packet that can only be dropped, or
something that more bytes may or may not complete. The verdict depends on the bytes alone.

* `Head.read?` reads the fields in order and stops at the first that does not fit. Every read names
  its place, and a read outside the bytes would leave no verdict.
* `Head.read?_isSome` is the proof that none does, and `Head.read` the verdict there always is.

The body ends at the first zero within the declared size; where there is none the body is empty. The
two bytes behind it have to be zero.
-/

namespace Rcon

/-- Why as many bytes as a frame may have are no frame yet. -/
inductive Wait
  /-- The size says there is more than the `available` bytes behind it. -/
  | size (size : Int) (available : Nat)
  /-- The id is none that a server may answer with. -/
  | id (id : Int)
  /-- The code is that of no type. -/
  | type (code : Int)
  /-- The two bytes behind the body are not there. -/
  | terminators (id code : Int)
  /-- The two bytes behind the body are not both zero. -/
  | unterminated (id : Int) (bodyTerminator packetTerminator : UInt8)
  deriving DecidableEq, Repr

/-- What stands first in the buffered bytes. -/
inductive Head
  /-- A complete frame. -/
  | frame (frame : Frame)
  /-- An end of a split response that is followed by these two bytes and not by zeros. -/
  | malformed (bodyTerminator packetTerminator : UInt8)
  /-- Something that is no frame yet, for this reason. -/
  | waiting (why : Wait)
  /-- Fewer bytes than any frame has. -/
  | short
  deriving DecidableEq, Repr

namespace Head

/-- The verdict on a frame whose body and terminators are known. -/
def judge (size id : Int) (type : ResponseType) (body : Bytes) (first second : UInt8) : Head :=
  if first = 0 ∧ second = 0 then .frame ⟨size, id, type, body⟩
  else if id = RequestId.terminator then .malformed first second
  else .waiting (.unterminated id first second)

/-- The bytes behind the header and within the declared size. -/
def bodyRegion? (bytes : Bytes) (available : Nat) (size : Int) : Option Bytes :=
  let last := (min (available : Int) (Protocol.sizeFieldBytes + size)).toNat
  if Protocol.headerBytes < last then Bytes.slice? bytes Protocol.headerBytes last else some []

/-- Reads the body and the terminators. -/
def readBody? (bytes : Bytes) (available : Nat) (size id : Int) (type : ResponseType) :
    Option Head := do
  let region ← bodyRegion? bytes available size
  let stop := Protocol.headerBytes + (region.idxOf? 0).getD 0
  if available < stop + 2 then
    return .waiting (.terminators id type.code)
  else
    let body ← Bytes.slice? bytes Protocol.headerBytes stop
    let first ← Bytes.byte? bytes stop
    let second ← Bytes.byte? bytes (stop + 1)
    return judge size id type body first second

/-- Reads the head, field by field. -/
def read? (bytes : Bytes) : Option Head := do
  let available := bytes.length
  if available < Protocol.minFrameBytes then
    return .short
  else
    let size ← Bytes.int32? bytes 0
    if (available : Int) - Protocol.sizeFieldBytes < size then
      return .waiting (.size size (available - Protocol.sizeFieldBytes))
    else
      let id ← Bytes.int32? bytes 4
      if RequestId.isAccepted id then
        let code ← Bytes.int32? bytes 8
        match ResponseType.ofCode? code with
        | none => return .waiting (.type code)
        | some type => readBody? bytes available size id type
      else
        return .waiting (.id id)

/-! ### No read falls outside -/

/-- The region of the body lies within the bytes. -/
theorem bodyRegion?_isSome (bytes : Bytes) (size : Int) :
    (bodyRegion? bytes bytes.length size).isSome := by
  simp only [bodyRegion?]
  split
  · next h =>
    rw [Bytes.slice?_isSome]
    exact ⟨by omega, by omega⟩
  · rfl

/-- Every read of body and terminators lies within the bytes. -/
theorem readBody?_isSome (bytes : Bytes) (size id : Int) (type : ResponseType) :
    (readBody? bytes bytes.length size id type).isSome := by
  obtain ⟨region, hregion⟩ := Option.isSome_iff_exists.1 (bodyRegion?_isSome bytes size)
  simp only [readBody?, hregion, Option.bind_eq_bind, Option.bind_some]
  split
  · rfl
  · next h =>
    -- Both terminators are there, and so is the body in front of them.
    obtain ⟨body, hbody⟩ := Option.isSome_iff_exists.1
      ((Bytes.slice?_isSome bytes Protocol.headerBytes
        (Protocol.headerBytes + (region.idxOf? 0).getD 0)).2 ⟨by omega, by omega⟩)
    obtain ⟨first, hfirst⟩ := Option.isSome_iff_exists.1
      ((Bytes.byte?_isSome bytes (Protocol.headerBytes + (region.idxOf? 0).getD 0)).2 (by omega))
    obtain ⟨second, hsecond⟩ := Option.isSome_iff_exists.1
      ((Bytes.byte?_isSome bytes (Protocol.headerBytes + (region.idxOf? 0).getD 0 + 1)).2
        (by omega))
    simp [hbody, hfirst, hsecond]

/-- **No read of a head falls outside the bytes.** -/
theorem read?_isSome (bytes : Bytes) : (read? bytes).isSome := by
  simp only [read?]
  split
  · rfl
  · next hshort =>
    -- As many bytes as a frame may have hold all three fields of its header.
    have hlen : 14 ≤ bytes.length := by
      simpa [Protocol.minFrameBytes] using hshort
    obtain ⟨size, hsize⟩ := Option.isSome_iff_exists.1
      ((Bytes.int32?_isSome bytes 0).2 (by omega))
    obtain ⟨id, hid⟩ := Option.isSome_iff_exists.1
      ((Bytes.int32?_isSome bytes 4).2 (by omega))
    obtain ⟨code, hcode⟩ := Option.isSome_iff_exists.1
      ((Bytes.int32?_isSome bytes 8).2 (by omega))
    simp only [hsize, hid, hcode, Option.bind_eq_bind, Option.bind_some]
    split
    · rfl
    · split
      · split
        · rfl
        · exact readBody?_isSome bytes size id _
      · rfl

/-- What stands first in the bytes. -/
def read (bytes : Bytes) : Head :=
  (read? bytes).get (read?_isSome bytes)

theorem read?_eq_some_read (bytes : Bytes) : read? bytes = some (read bytes) :=
  (Option.some_get (read?_isSome bytes)).symm

/-! ### What a verdict takes -/

/-- A verdict on the body and the terminators that lets the stream go on rests on a body and two
bytes that are there. -/
theorem readBody?_eq_some {bytes : Bytes} {available : Nat} {size id : Int} {type : ResponseType}
    {head : Head} (h : readBody? bytes available size id type = some head) :
    head = .waiting (.terminators id type.code) ∨
      ∃ body first second, head = judge size id type body first second ∧
        Protocol.minFrameBytes + body.length ≤ available := by
  simp only [readBody?, Option.bind_eq_bind, Option.bind_eq_some_iff] at h
  obtain ⟨region, -, h⟩ := h
  split at h
  · left
    simpa using h.symm
  · next hstop =>
    right
    simp only [Option.bind_eq_some_iff] at h
    obtain ⟨body, hbody, first, -, second, -, h⟩ := h
    -- The body was read up to the terminators, so its length is known.
    refine ⟨body, first, second, by simpa using h.symm, ?_⟩
    simp only [Bytes.slice?] at hbody
    split at hbody
    · next hfit =>
      simp only [Option.some.injEq] at hbody
      rw [← hbody, List.length_drop, hfit.2]
      simp only [Protocol.minFrameBytes, Protocol.headerBytes] at *
      omega
    · simp at hbody

/-- A verdict that lets the stream go on is one on a body and terminators that are there. -/
theorem read_eq_judge {bytes : Bytes} {head : Head} (h : read bytes = head) (hshort : head ≠ .short)
    (hwait : ∀ why, head ≠ .waiting why) :
    ∃ size id type body first second, head = judge size id type body first second ∧
      Protocol.minFrameBytes + body.length ≤ bytes.length := by
  have hread := read?_eq_some_read bytes
  rw [h] at hread
  simp only [read?] at hread
  split at hread
  · exact absurd (Option.some.inj hread).symm hshort
  · simp only [Option.bind_eq_bind, Option.bind_eq_some_iff] at hread
    obtain ⟨size, -, hread⟩ := hread
    split at hread
    · exact absurd (Option.some.inj hread).symm (hwait _)
    · simp only [Option.bind_eq_some_iff] at hread
      obtain ⟨id, -, hread⟩ := hread
      split at hread
      · simp only [Option.bind_eq_some_iff] at hread
        obtain ⟨code, -, hread⟩ := hread
        split at hread
        · exact absurd (Option.some.inj hread).symm (hwait _)
        · next type _ =>
          rcases readBody?_eq_some hread with hw | ⟨body, first, second, hj, hlen⟩
          · exact absurd hw (hwait _)
          · exact ⟨size, id, type, body, first, second, hj, hlen⟩
      · exact absurd (Option.some.inj hread).symm (hwait _)

/-- **A complete frame lies within the bytes.** -/
theorem length_le_of_read {bytes : Bytes} {frame : Frame} (h : read bytes = .frame frame) :
    frame.length ≤ bytes.length := by
  obtain ⟨size, id, type, body, first, second, hj, hlen⟩ := read_eq_judge h (by simp) (by simp)
  unfold judge at hj
  split at hj
  · cases hj
    exact hlen
  · split at hj <;> cases hj

/-- **A packet is dropped only where a whole frame could stand.** -/
theorem minFrameBytes_le_of_read {bytes : Bytes} {first second : UInt8}
    (h : read bytes = .malformed first second) : Protocol.minFrameBytes ≤ bytes.length := by
  obtain ⟨size, id, type, body, -, -, -, hlen⟩ := read_eq_judge h (by simp) (by simp)
  omega

end Head

end Rcon
