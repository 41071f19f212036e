import Rcon.Frame.Packet
import Rcon.Proofs.Frame.Head
import Rcon.Proofs.Text.Utf8

/-!
# Replies

A `Reply` is what a server has to say: an id and a type that are good, and a text without `U+0000`.
It is written as a frame of the size it has (`Reply.spec`), or as one that ends in any two bytes
(`Reply.endingIn`).

* A front of the written bytes that is not all of them waits (`isWait_of_length_lt`), for the size
  is known before anything else is.
* All of them, and whatever follows, are judged by where the first zero stands behind the header.
  The two bytes at the end lie within the declared size, so it may be either of them
  (`bodyEnd_append_cons_cons`).
-/

namespace Rcon

/-- What a server has to say. -/
structure Reply where
  /-- The request id. -/
  id : Int
  /-- The type of response. -/
  type : ResponseType := .value
  /-- The text of the body. -/
  body : String := ""
  /-- The id is one that a server may answer with. -/
  isAccepted_id : RequestId.isAccepted id = true := by decide
  /-- A zero would end the body. -/
  null_notMem_body : '\x00' ∉ body.toList := by decide
  deriving DecidableEq

namespace Reply

/-- The frame to be written for a reply. -/
def spec (reply : Reply) : FrameSpec where
  id := .ofInt reply.id
  code := .ofInt reply.type.code
  body := reply.body

/-- The frame to be written for a reply, ending in two bytes that may be others than zeros. -/
def endingIn (reply : Reply) (first second : UInt8) : FrameSpec :=
  { reply.spec with
    bodyTerminator := .ofNat first.toNat
    packetTerminator := .ofNat second.toNat }

/-- The bytes of the body. -/
def bodyBytes (reply : Reply) : Bytes :=
  Utf8.encode reply.body

/-- The number of bytes that a reply is written as. -/
def length (reply : Reply) : Nat :=
  Protocol.minFrameBytes + reply.bodyBytes.length

/-- The size that a reply declares. -/
def size (reply : Reply) : Int :=
  FrameSpec.properSize reply.bodyBytes.length

/-- The response that a reply is to come out as: the end of a split response if it has the reserved
id and nothing but blanks in its body, and what its type says otherwise. -/
def response (reply : Reply) : Response where
  kind :=
    if reply.id = RequestId.terminator ∧ reply.body.toList.all isBlank then .terminator
    else .ofType reply.type
  size := reply.size
  id := reply.id
  code := reply.type.code
  body := reply.body

/-- The response that a reply comes out as when a byte behind its body is taken for the last of it.
Such a byte is a character of its own, and a space as good a blank as any. -/
def responseWith (reply : Reply) (last : UInt8) : Response :=
  let body := reply.body.push (Utf8.charOfByte last)
  { kind :=
      if reply.id = RequestId.terminator ∧ body.toList.all isBlank then .terminator
      else .ofType reply.type
    size := reply.size
    id := reply.id
    code := reply.type.code
    body := body }

/-- The frame that a reply is. -/
def frame (reply : Reply) : Frame where
  size := reply.size
  id := reply.id
  type := reply.type
  body := reply.bodyBytes

/-- The replies whose last byte is among the first `n` bytes of all of them in a row. -/
def arrived : Nat → List Reply → List Reply
  | _, [] => []
  | n, reply :: rest =>
    if reply.length ≤ n then reply :: arrived (n - reply.length) rest else []

/-- The number of bytes that replies are written as in a row. -/
def totalLength : List Reply → Nat
  | [] => 0
  | reply :: rest => reply.length + totalLength rest

@[simp] theorem length_frame (reply : Reply) : reply.frame.length = reply.length := rfl

@[simp] theorem response_frame (reply : Reply) : reply.frame.response = reply.response := by
  have htext : reply.frame.text = reply.body := Utf8.text_encode reply.body
  simp only [Frame.response, Frame.kind, htext]
  rfl

theorem response_frame_append (reply : Reply) (last : UInt8) :
    Frame.response { reply.frame with body := reply.bodyBytes ++ [last] } =
      reply.responseWith last := by
  have htext : Utf8.text (reply.bodyBytes ++ [last]) = reply.body.push (Utf8.charOfByte last) :=
    Utf8.text_encode_append_singleton reply.body last
  simp only [Frame.response, Frame.kind, Frame.text, htext]
  rfl

example : ({ id := 999 } : Reply).responseWith 0x20 = ⟨.terminator, 10, 999, 0, " "⟩ := by decide

theorem zero_notMem_bodyBytes (reply : Reply) : 0 ∉ reply.bodyBytes := by
  rw [bodyBytes, Utf8.zero_mem_encode_iff]
  exact reply.null_notMem_body

theorem isInt32_id (reply : Reply) : Bytes.isInt32 reply.id = true := by
  have hid := reply.isAccepted_id
  simp only [RequestId.isAccepted, Bool.or_eq_true, Bool.and_eq_true, decide_eq_true_eq] at hid
  simp only [Bytes.isInt32, Bool.and_eq_true, decide_eq_true_eq]
  simp only [RequestId.unsolicited, RequestId.terminator, RequestId.least,
    RequestId.greatest] at hid
  simp only [Bytes.int32Least, Bytes.int32Greatest]
  omega

/-! ### What is written -/

/-- The bytes of a reply that ends in two bytes. -/
def bytesEndingIn (reply : Reply) (first second : UInt8) : Bytes :=
  Frame.header reply.size reply.id reply.type.code ++ (reply.bodyBytes ++ [first, second])

theorem length_bytesEndingIn (reply : Reply) (first second : UInt8) :
    (reply.bytesEndingIn first second).length = reply.length := by
  simp only [bytesEndingIn, List.length_append, Frame.length_header, List.length_cons,
    List.length_nil, length, Protocol.minFrameBytes]
  omega

theorem terminator?_ofNat (b : UInt8) : FrameSpec.terminator? (.ofNat b.toNat) = some b := by
  have hlt := b.toNat_lt
  rw [FrameSpec.terminator?, Number.ofNat, Number.fitted?_ofInt, if_pos (by omega), Option.map_some,
    Int.toNat_natCast, UInt8.ofNat_toNat]

/-- **What is written for a reply**: there are bytes exactly if the size fits, and then those of
`bytesEndingIn`. -/
theorem encode?_endingIn (reply : Reply) (first second : UInt8) :
    (reply.endingIn first second).encode? =
      if Bytes.isInt32 reply.size = true then some (reply.bytesEndingIn first second)
      else none := by
  have hfits : ∀ n : Int, FrameSpec.headerField? (.ofInt n) =
      if Bytes.isInt32 n = true then some n else none := by
    intro n
    rw [FrameSpec.headerField?, Number.fitted?_ofInt]
    simp only [Bytes.isInt32, Bool.and_eq_true, decide_eq_true_eq]
  have hsize : FrameSpec.headerField? (.ofInt reply.size) =
      if Bytes.isInt32 reply.size = true then some reply.size else none := hfits _
  have hid : FrameSpec.headerField? (.ofInt reply.id) = some reply.id := by
    rw [hfits, if_pos reply.isInt32_id]
  have hcode : FrameSpec.headerField? (.ofInt reply.type.code) = some reply.type.code := by
    rw [hfits, if_pos reply.type.isInt32_code]
  show Option.map Packet.bytes (do
    let size ← FrameSpec.headerField? (.ofInt reply.size)
    let id ← FrameSpec.headerField? (.ofInt reply.id)
    let code ← FrameSpec.headerField? (.ofInt reply.type.code)
    let bodyTerminator ← FrameSpec.terminator? (.ofNat first.toNat)
    let packetTerminator ← FrameSpec.terminator? (.ofNat second.toNat)
    return ⟨size, id, code, reply.bodyBytes, bodyTerminator, packetTerminator⟩) = _
  rw [hsize, hid, hcode, terminator?_ofNat, terminator?_ofNat]
  split
  · show some (_ ++ reply.bodyBytes ++ [first, second]) = _
    rw [bytesEndingIn, List.append_assoc]
    rfl
  · rfl

/-- A reply that can be written is written as the bytes of `bytesEndingIn`, and its size fits. -/
theorem eq_bytesEndingIn_of_encode? {reply : Reply} {first second : UInt8} {bytes : Bytes}
    (h : (reply.endingIn first second).encode? = some bytes) :
    Bytes.isInt32 reply.size = true ∧ reply.bytesEndingIn first second = bytes := by
  rw [reply.encode?_endingIn] at h
  split at h
  · next hsize => exact ⟨hsize, Option.some.inj h⟩
  · exact absurd h (by simp)

/-! ### Where the body ends

The two bytes at the end are within the declared size, so the first zero is looked for in them too.
-/

/-- **The first zero behind a body without zeros** is the first byte at the end, or the second, or
none. -/
theorem bodyEnd_append_cons_cons {body : Bytes} (hbody : 0 ∉ body) (first second : UInt8)
    (more : Bytes) :
    Head.bodyEnd (FrameSpec.properSize body.length) (body ++ first :: second :: more) =
      if first = 0 then body.length else if second = 0 then body.length + 1 else 0 := by
  have hregion : (body ++ first :: second :: more).take
      (FrameSpec.properSize body.length - 8).toNat = body ++ [first, second] := by
    rw [show (FrameSpec.properSize body.length - 8).toNat = body.length + 2 by
      simp only [FrameSpec.properSize]; omega, List.take_length_add_append]
    rfl
  have hnone : body.findIdx? (· == 0) = none := List.idxOf?_eq_none_iff.2 hbody
  rw [Head.bodyEnd, hregion, List.idxOf?, List.findIdx?_append, hnone, Option.none_or]
  by_cases hfirst : first = 0
  · rw [if_pos hfirst, hfirst]
    show 0 + body.length = _
    omega
  · by_cases hsecond : second = 0
    · rw [if_neg hfirst, if_pos hsecond, hsecond, List.findIdx?_cons,
        if_neg (by simpa using hfirst)]
      show 0 + 1 + body.length = _
      omega
    · rw [if_neg hfirst, if_neg hsecond, List.findIdx?_cons, if_neg (by simpa using hfirst),
        List.findIdx?_cons, if_neg (by simpa using hsecond)]
      rfl

/-! ### The verdict on what was written -/

variable (reply : Reply)

/-- A front of the written bytes that is not all of them waits. -/
theorem isWait_of_length_lt (hsize : Bytes.isInt32 reply.size = true) {first second : UInt8}
    {more front : Bytes} (hfront : front <+: reply.bytesEndingIn first second ++ more)
    (hlt : front.length < reply.length) : (Head.read front).isWait = true := by
  rw [bytesEndingIn, List.append_assoc] at hfront
  refine Head.isWait_of_lt_size hsize reply.isInt32_id reply.type.isInt32_code hfront ?_
  simp only [length, Protocol.minFrameBytes] at hlt
  simp only [size, FrameSpec.properSize]
  omega

/-- The verdict on a written reply and what follows it is the one on the tail. -/
theorem read_bytesEndingIn_append (hsize : Bytes.isInt32 reply.size = true) (first second : UInt8)
    (more : Bytes) :
    Head.read (reply.bytesEndingIn first second ++ more) =
      Head.ofTail reply.size reply.id reply.type (reply.bodyBytes ++ first :: second :: more) := by
  have htail : (reply.bodyBytes ++ [first, second] ++ more) =
      reply.bodyBytes ++ first :: second :: more := by
    rw [List.append_assoc]
    rfl
  have hlen : (reply.bodyBytes ++ first :: second :: more).length =
      reply.bodyBytes.length + more.length + 2 := by
    simp only [List.length_append, List.length_cons]
    omega
  have htype : ResponseType.ofCode? reply.type.code = some reply.type :=
    ResponseType.ofCode?_eq_some_iff.2 rfl
  have hfits : ¬((reply.bodyBytes ++ first :: second :: more).length : Int) + 8 < reply.size := by
    simp only [hlen, size, FrameSpec.properSize]
    omega
  rw [bytesEndingIn, List.append_assoc, htail,
    Head.read_header_append hsize reply.isInt32_id reply.type.isInt32_code, Head.ofHeader,
    if_neg (by omega), if_neg hfits, if_pos reply.isAccepted_id, htype]

/-- With a zero behind the body the verdict is on the body and the two bytes. -/
theorem read_of_first_eq_zero (hsize : Bytes.isInt32 reply.size = true) (second : UInt8)
    (more : Bytes) :
    Head.read (reply.bytesEndingIn 0 second ++ more) =
      Head.judge reply.size reply.id reply.type reply.bodyBytes 0 second := by
  have hend := bodyEnd_append_cons_cons reply.zero_notMem_bodyBytes 0 second more
  rw [if_pos rfl] at hend
  rw [reply.read_bytesEndingIn_append hsize, Head.ofTail, size, hend, List.drop_left,
    List.take_left]

/-- **A frame is read as the reply that was written**, whatever follows it. -/
theorem read_append (hsize : Bytes.isInt32 reply.size = true) (more : Bytes) :
    Head.read (reply.bytesEndingIn 0 0 ++ more) = .frame reply.frame := by
  rw [reply.read_of_first_eq_zero hsize, Head.judge, if_pos ⟨rfl, rfl⟩]
  rfl

/-- A zero at the end that is not followed by another is judged as it stands, and so is anything but
zeros: either the body is what was written, or it is taken to be empty. -/
theorem exists_read_eq_judge (hsize : Bytes.isInt32 reply.size = true) {first second : UInt8}
    (hbad : ¬(first = 0 ∧ second = 0)) (hends : first = 0 ∨ second ≠ 0) :
    ∃ body a b, ¬(a = 0 ∧ b = 0) ∧ ∀ more,
      Head.read (reply.bytesEndingIn first second ++ more) =
        Head.judge reply.size reply.id reply.type body a b := by
  by_cases hfirst : first = 0
  · subst hfirst
    exact ⟨reply.bodyBytes, 0, second, hbad, reply.read_of_first_eq_zero hsize second⟩
  · have hsecond : second ≠ 0 := hends.resolve_left hfirst
    -- No zero is found, and the first two bytes behind the header are taken for terminators.
    obtain ⟨a, b, rest, hstart⟩ :
        ∃ a b rest, reply.bodyBytes ++ [first, second] = a :: b :: rest := by
      match reply.bodyBytes with
      | [] => exact ⟨first, second, [], rfl⟩
      | [a] => exact ⟨a, first, [second], rfl⟩
      | a :: b :: rest => exact ⟨a, b, rest ++ [first, second], rfl⟩
    have ha : a ≠ 0 := by
      have hmem : a ∈ reply.bodyBytes ++ [first, second] := hstart ▸ List.mem_cons_self
      simp only [List.mem_append, List.mem_cons, List.not_mem_nil, or_false] at hmem
      rcases hmem with hmem | rfl | rfl
      · exact fun h ↦ reply.zero_notMem_bodyBytes (h ▸ hmem)
      · exact hfirst
      · exact hsecond
    refine ⟨[], a, b, fun h ↦ ha h.1, fun more ↦ ?_⟩
    have hend := bodyEnd_append_cons_cons reply.zero_notMem_bodyBytes first second more
    rw [if_neg hfirst, if_neg hsecond] at hend
    have htail : reply.bodyBytes ++ first :: second :: more = a :: b :: (rest ++ more) := by
      rw [← List.cons_append, ← List.cons_append, ← hstart, List.append_assoc]
      rfl
    rw [reply.read_bytesEndingIn_append hsize, Head.ofTail, size, hend, htail]
    rfl

/-- **A zero at the end behind a byte that is none ends the body one byte late**: that byte is part
of it, and what follows the frame is the second terminator. -/
theorem read_of_second_eq_zero (hsize : Bytes.isInt32 reply.size = true) {first : UInt8}
    (hfirst : first ≠ 0) :
    Head.read (reply.bytesEndingIn first 0) =
        .waiting (.terminators reply.id reply.type.code) ∧
      ∀ next more, Head.read (reply.bytesEndingIn first 0 ++ [next] ++ more) =
        Head.judge reply.size reply.id reply.type (reply.bodyBytes ++ [first]) 0 next := by
  have hend : ∀ more, Head.bodyEnd reply.size (reply.bodyBytes ++ first :: 0 :: more) =
      (reply.bodyBytes ++ [first]).length := by
    intro more
    have h := bodyEnd_append_cons_cons reply.zero_notMem_bodyBytes first 0 more
    rw [if_neg hfirst, if_pos rfl] at h
    rw [size, h, List.length_append]
    rfl
  have htail : ∀ more, reply.bodyBytes ++ first :: 0 :: more =
      (reply.bodyBytes ++ [first]) ++ 0 :: more := by
    intro more
    rw [List.append_assoc]
    rfl
  constructor
  · have h := reply.read_bytesEndingIn_append hsize first 0 []
    rw [List.append_nil, Head.ofTail, hend, htail, List.drop_left] at h
    exact h
  · intro next more
    rw [← List.append_cons, reply.read_bytesEndingIn_append hsize, Head.ofTail, hend, htail,
      List.drop_left, List.take_left]

theorem isWait_of_length_le (hsize : Bytes.isInt32 reply.size = true) {first : UInt8}
    (hfirst : first ≠ 0) {more front : Bytes}
    (hfront : front <+: reply.bytesEndingIn first 0 ++ more)
    (hle : front.length ≤ reply.length) : (Head.read front).isWait = true := by
  rcases Nat.lt_or_eq_of_le hle with hlt | heq
  · exact reply.isWait_of_length_lt hsize hfront hlt
  · have hall : front = reply.bytesEndingIn first 0 := by
      rw [List.prefix_iff_eq_take.1 hfront, heq, ← reply.length_bytesEndingIn first 0,
        List.take_left]
    rw [hall, (reply.read_of_second_eq_zero hsize hfirst).1]
    rfl

end Reply

end Rcon
