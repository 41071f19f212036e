import Rcon.Frame.Head
import Rcon.Proofs.Bytes

/-!
# The verdict on a header and what follows it

Twelve bytes are a header, three numbers, and the verdict on it and the bytes behind it is
`Head.ofHeader` (`read_header_append`). There the places of `Head.read?` are gone: the body ends at
the first zero of the tail within the declared size, and the two bytes behind it are the
terminators.

* A verdict is **settled** when no further bytes can change it (`read_append_of_isSettled`): a
  frame, a packet that can only be dropped, an id or a type that is none, two bytes that are no
  terminators.
* A verdict that is open bounds what was read (`length_le_of_isSettled_eq_false`), by the largest
  size there is or by the length of any frame that may yet come of it.
-/

namespace Rcon

theorem ResponseType.isInt32_code (type : ResponseType) : Bytes.isInt32 type.code = true := by
  cases type <;> rfl

namespace Frame

/-- The header of a frame. -/
def header (size id code : Int) : Bytes :=
  Bytes.ofInt32 size ++ Bytes.ofInt32 id ++ Bytes.ofInt32 code

@[simp] theorem length_header (size id code : Int) : (header size id code).length = 12 := rfl

/-- As many bytes as a header has begin with one. -/
theorem exists_header_append {bytes : Bytes} (h : 12 ≤ bytes.length) :
    ∃ size id code tail, Bytes.isInt32 size = true ∧ Bytes.isInt32 id = true ∧
      Bytes.isInt32 code = true ∧ bytes = header size id code ++ tail := by
  obtain ⟨size, rest, hsize, rfl⟩ := Bytes.exists_ofInt32_append (by omega : 4 ≤ bytes.length)
  simp only [List.length_append, Bytes.length_ofInt32] at h
  obtain ⟨id, rest, hid, rfl⟩ := Bytes.exists_ofInt32_append (by omega : 4 ≤ rest.length)
  simp only [List.length_append, Bytes.length_ofInt32] at h
  obtain ⟨code, tail, hcode, rfl⟩ := Bytes.exists_ofInt32_append (by omega : 4 ≤ rest.length)
  refine ⟨size, id, code, tail, hsize, hid, hcode, ?_⟩
  simp only [header, List.append_assoc]

/-- The three numbers of a header are read from their places. -/
theorem int32?_header_append {size id code : Int} (hsize : Bytes.isInt32 size = true)
    (hid : Bytes.isInt32 id = true) (hcode : Bytes.isInt32 code = true) (tail : Bytes) :
    Bytes.int32? (header size id code ++ tail) 0 = some size ∧
      Bytes.int32? (header size id code ++ tail) 4 = some id ∧
      Bytes.int32? (header size id code ++ tail) 8 = some code := by
  refine ⟨?_, ?_, ?_⟩
  · rw [header, List.append_assoc, List.append_assoc, Bytes.int32?_ofInt32_append hsize]
  · rw [header, List.append_assoc, List.append_assoc,
      Bytes.int32?_append_right _ _ 0 (Bytes.length_ofInt32 size), Bytes.int32?_ofInt32_append hid]
  · rw [header, List.append_assoc, Bytes.int32?_append_right _ _ 0 (show _ = 8 from rfl),
      Bytes.int32?_ofInt32_append hcode]

end Frame

namespace Head

open Rcon.Frame (header)

/-! ### The verdict by parts -/

/-- Where the body ends in a tail: at the first zero within the size, or else at once. -/
def bodyEnd (size : Int) (tail : Bytes) : Nat :=
  ((tail.take (size - 8).toNat).idxOf? 0).getD 0

/-- The verdict on the tail behind a good header. -/
def ofTail (size id : Int) (type : ResponseType) (tail : Bytes) : Head :=
  match tail.drop (bodyEnd size tail) with
  | first :: second :: _ => judge size id type (tail.take (bodyEnd size tail)) first second
  | _ => .waiting (.terminators id type.code)

/-- The verdict on a header and the tail behind it. -/
def ofHeader (size id code : Int) (tail : Bytes) : Head :=
  if tail.length < 2 then .short
  else if (tail.length : Int) + 8 < size then .waiting (.size size (tail.length + 8))
  else if RequestId.isAccepted id then
    match ResponseType.ofCode? code with
    | none => .waiting (.type code)
    | some type => ofTail size id type tail
  else .waiting (.id id)

/-- The region of the body is the tail up to the declared size. -/
theorem bodyRegion?_header_append (size id code : Int) (tail : Bytes) :
    bodyRegion? (header size id code ++ tail) (12 + tail.length) size =
      some (tail.take (size - 8).toNat) := by
  have hfield : Protocol.sizeFieldBytes = 4 := rfl
  have hbytes : Protocol.headerBytes = 12 := rfl
  have hheader : (header size id code).length = Protocol.headerBytes := rfl
  simp only [bodyRegion?]
  split
  · -- The region is cut to what is there, which a tail is by itself.
    have hcut : tail.take (min (size - 8).toNat tail.length) = tail.take (size - 8).toNat :=
      List.take_eq_take_iff.2 (by omega)
    rw [show (min ((12 + tail.length : Nat) : Int) (Protocol.sizeFieldBytes + size)).toNat =
        Protocol.headerBytes + min (size - 8).toNat tail.length by omega,
      Bytes.slice?_append_right hheader (Nat.min_le_right _ _), hcut]
  · rw [eq_comm, Option.some.injEq, List.take_eq_nil_iff, ← List.length_eq_zero_iff]
    omega

/-- The two bytes behind the body are there and are judged, or the verdict waits for them. -/
theorem ofTail_cases (size id : Int) (type : ResponseType) (tail : Bytes) :
    (tail.length < bodyEnd size tail + 2 ∧
        ofTail size id type tail = .waiting (.terminators id type.code)) ∨
      ∃ first second rest, tail.drop (bodyEnd size tail) = first :: second :: rest ∧
        bodyEnd size tail + 2 ≤ tail.length ∧
        ofTail size id type tail =
          judge size id type (tail.take (bodyEnd size tail)) first second := by
  have hlen : (tail.drop (bodyEnd size tail)).length = tail.length - bodyEnd size tail :=
    List.length_drop
  rw [ofTail]
  generalize tail.drop (bodyEnd size tail) = behind at hlen ⊢
  rcases behind with - | ⟨first, - | ⟨second, rest⟩⟩
  · rw [List.length_nil] at hlen
    exact .inl ⟨by omega, rfl⟩
  · rw [List.length_singleton] at hlen
    exact .inl ⟨by omega, rfl⟩
  · rw [List.length_cons, List.length_cons] at hlen
    exact .inr ⟨first, second, rest, rfl, by omega, rfl⟩

theorem readBody?_header_append (size id code : Int) (type : ResponseType) (tail : Bytes) :
    readBody? (header size id code ++ tail) (12 + tail.length) size id type =
      some (ofTail size id type tail) := by
  have hheader : (header size id code).length = Protocol.headerBytes := rfl
  have hbytes : Protocol.headerBytes = 12 := rfl
  simp only [readBody?, bodyRegion?_header_append, Option.bind_eq_bind, Option.bind_some]
  rw [show ((tail.take (size - 8).toNat).idxOf? 0).getD 0 = bodyEnd size tail from rfl]
  rcases ofTail_cases size id type tail with ⟨hlt, hwait⟩ | ⟨first, second, _, hdrop, hle, hjudge⟩
  · rw [if_pos (by omega), hwait]
    rfl
  · have hfirst : Bytes.byte? (header size id code ++ tail)
        (Protocol.headerBytes + bodyEnd size tail) = some first := by
      rw [Bytes.byte?_append_right _ _ _ hheader, ← Nat.add_zero (bodyEnd size tail),
        ← List.getElem?_drop, hdrop]
      rfl
    have hsecond : Bytes.byte? (header size id code ++ tail)
        (Protocol.headerBytes + bodyEnd size tail + 1) = some second := by
      rw [Nat.add_assoc, Bytes.byte?_append_right _ _ _ hheader, ← List.getElem?_drop, hdrop]
      rfl
    rw [if_neg (by omega), Bytes.slice?_append_right hheader (by omega), hfirst, hsecond, hjudge]
    rfl

/-- **The verdict on a header and its tail**, with no place left in it. -/
theorem read_header_append {size id code : Int} (hsize : Bytes.isInt32 size = true)
    (hid : Bytes.isInt32 id = true) (hcode : Bytes.isInt32 code = true) (tail : Bytes) :
    read (header size id code ++ tail) = ofHeader size id code tail := by
  have hlen : (header size id code ++ tail).length = 12 + tail.length := by
    rw [List.length_append, Frame.length_header]
  obtain ⟨hsize', hid', hcode'⟩ := Frame.int32?_header_append hsize hid hcode tail
  have hmin : Protocol.minFrameBytes = 14 := rfl
  have hfield : Protocol.sizeFieldBytes = 4 := rfl
  refine Option.some.inj ((read?_eq_some_read _).symm.trans ?_)
  simp only [read?, hlen, hsize', hid', hcode', readBody?_header_append, Option.bind_eq_bind,
    Option.bind_some, ofHeader]
  by_cases hshort : tail.length < 2
  · rw [if_pos hshort, if_pos (by omega)]
    rfl
  · rw [if_neg hshort, if_neg (by omega)]
    by_cases hwait : (tail.length : Int) + 8 < size
    · rw [if_pos hwait, if_pos (by omega),
        show 12 + tail.length - Protocol.sizeFieldBytes = tail.length + 8 by omega]
      rfl
    · rw [if_neg hwait, if_neg (by omega)]
      split
      · rcases ResponseType.ofCode? code with - | type <;> rfl
      · rfl

/-! ### Settled verdicts -/

/-- Is a verdict one that further bytes cannot change? -/
def isSettled : Head → Bool
  | .frame _ | .malformed .. => true
  | .waiting (.id _) | .waiting (.type _) | .waiting (.unterminated ..) => true
  | .waiting (.size ..) | .waiting (.terminators ..) | .short => false

@[simp] theorem isSettled_judge (size id : Int) (type : ResponseType) (body : Bytes)
    (first second : UInt8) : (judge size id type body first second).isSettled = true := by
  unfold judge
  split
  · rfl
  · split <;> rfl

/-- More bytes leave the end of the body where it is once the declared size is there. -/
theorem bodyEnd_append {size : Int} {tail : Bytes} (h : size ≤ tail.length + 8) (more : Bytes) :
    bodyEnd size (tail ++ more) = bodyEnd size tail := by
  rw [bodyEnd, bodyEnd, List.take_append_of_le_length (by omega)]

/-- **Two bytes behind the body settle the verdict.** -/
theorem ofTail_append {size id : Int} {type : ResponseType} {tail : Bytes}
    (hsize : size ≤ tail.length + 8) (h : (ofTail size id type tail).isSettled = true)
    (more : Bytes) : ofTail size id type (tail ++ more) = ofTail size id type tail := by
  rcases ofTail_cases size id type tail with ⟨-, hwait⟩ | ⟨first, second, rest, hdrop, hle, hjudge⟩
  · rw [hwait] at h
    exact absurd h (by simp [isSettled])
  · rw [hjudge, ofTail, bodyEnd_append hsize, List.drop_append_of_le_length (by omega),
      List.take_append_of_le_length (by omega), hdrop]
    rfl

theorem ofHeader_append {size id code : Int} {tail : Bytes}
    (h : (ofHeader size id code tail).isSettled = true) (more : Bytes) :
    ofHeader size id code (tail ++ more) = ofHeader size id code tail := by
  unfold ofHeader at h ⊢
  rw [List.length_append]
  -- The settled verdicts come behind the two checks that more bytes could change.
  by_cases hshort : tail.length < 2
  · rw [if_pos hshort] at h
    exact absurd h (by simp [isSettled])
  · rw [if_neg hshort] at h
    by_cases hwait : (tail.length : Int) + 8 < size
    · rw [if_pos hwait] at h
      exact absurd h (by simp [isSettled])
    · rw [if_neg hwait] at h
      rw [if_neg hshort, if_neg hwait, if_neg (by omega), if_neg (by omega)]
      by_cases hid : RequestId.isAccepted id = true
      · rw [if_pos hid] at h
        rw [if_pos hid, if_pos hid]
        rcases htype : ResponseType.ofCode? code with - | type
        · rfl
        · rw [htype] at h
          exact ofTail_append (by omega) h more
      · rw [if_neg hid, if_neg hid]

theorem read_eq_short {bytes : Bytes} (h : bytes.length < 14) : read bytes = .short := by
  refine Option.some.inj ((read?_eq_some_read _).symm.trans ?_)
  simp only [read?]
  rw [if_pos (show bytes.length < Protocol.minFrameBytes from h)]
  rfl

theorem ofTail_ne_short (size id : Int) (type : ResponseType) (tail : Bytes) :
    ofTail size id type tail ≠ .short := by
  unfold ofTail judge
  split
  · split
    · exact fun h ↦ nomatch h
    · split <;> exact fun h ↦ nomatch h
  · exact fun h ↦ nomatch h

/-- **Bytes are too few just if they are fewer than any frame has.** -/
theorem read_eq_short_iff {bytes : Bytes} : read bytes = .short ↔ bytes.length < 14 := by
  refine ⟨fun h ↦ Nat.lt_of_not_le fun hle ↦ ?_, read_eq_short⟩
  obtain ⟨size, id, code, tail, hsize, hid, hcode, rfl⟩ :=
    Frame.exists_header_append (by omega : 12 ≤ bytes.length)
  rw [List.length_append, Frame.length_header] at hle
  rw [read_header_append hsize hid hcode, ofHeader, if_neg (by omega)] at h
  split at h
  · cases h
  · split at h
    · split at h
      · cases h
      · exact ofTail_ne_short _ _ _ _ h
    · cases h

/-- **A settled verdict stays, whatever follows.** -/
theorem read_append_of_isSettled {bytes : Bytes} (h : (read bytes).isSettled = true)
    (more : Bytes) : read (bytes ++ more) = read bytes := by
  by_cases hlen : bytes.length < 14
  · rw [read_eq_short hlen] at h
    exact absurd h (by simp [isSettled])
  · obtain ⟨size, id, code, tail, hsize, hid, hcode, rfl⟩ :=
      Frame.exists_header_append (by omega : 12 ≤ bytes.length)
    rw [List.append_assoc]
    rw [read_header_append hsize hid hcode] at h ⊢
    rw [read_header_append hsize hid hcode, ofHeader_append h]

/-! ### Waiting verdicts -/

/-- Is a verdict one that leaves the bytes where they are? -/
def isWait : Head → Bool
  | .waiting _ | .short => true
  | .frame _ | .malformed .. => false

/-- **Bytes that are fewer than their size declares wait.** -/
theorem isWait_of_lt_size {size id code : Int} (hsize : Bytes.isInt32 size = true)
    (hid : Bytes.isInt32 id = true) (hcode : Bytes.isInt32 code = true) {rest front : Bytes}
    (hfront : front <+: header size id code ++ rest) (hlt : (front.length : Int) < 4 + size) :
    (read front).isWait = true := by
  by_cases hshort : front.length < 14
  · rw [read_eq_short hshort]
    rfl
  · -- The header is there, and the size in it is more than what follows.
    obtain ⟨tail, rfl⟩ := List.prefix_of_prefix_length_le (List.prefix_append _ rest) hfront
      (by rw [Frame.length_header]; omega)
    rw [List.length_append, Frame.length_header] at hshort hlt
    rw [read_header_append hsize hid hcode, ofHeader, if_neg (by omega), if_pos (by omega)]
    rfl

/-! ### Open verdicts -/

/-- A frame takes the header, the body and two bytes more. -/
theorem length_of_judge_eq_frame {size id : Int} {type : ResponseType} {body : Bytes}
    {first second : UInt8} {frame : Frame}
    (h : judge size id type body first second = .frame frame) :
    frame.length = 14 + body.length := by
  unfold judge at h
  split at h
  · cases h
    rfl
  · split at h <;> cases h

/-- The body of a frame is what stands in front of the place where it ends. -/
theorem length_of_ofTail_eq_frame {size id : Int} {type : ResponseType} {tail : Bytes}
    {frame : Frame} (h : ofTail size id type tail = .frame frame) :
    frame.length = 14 + bodyEnd size tail := by
  rcases ofTail_cases size id type tail with ⟨-, hwait⟩ | ⟨first, second, rest, -, hle, hjudge⟩
  · rw [hwait] at h
    cases h
  · rw [hjudge] at h
    rw [length_of_judge_eq_frame h, List.length_take_of_le (by omega)]

/-- The most bytes that can wait for the rest of the size they declare: the largest size there is
and the four bytes that tell it, but one. -/
def longestWait : Nat := 2147483650

/-- **An open verdict bounds what was read**: by the largest size there is, or else by the length of
any frame that may yet come of it. -/
theorem length_le_of_isSettled_eq_false {bytes : Bytes} (h : (read bytes).isSettled = false) :
    bytes.length ≤ longestWait ∨
      ∀ more frame, read (bytes ++ more) = .frame frame → bytes.length < frame.length := by
  by_cases hshort : bytes.length < 14
  · left
    simp only [longestWait]
    omega
  · obtain ⟨size, id, code, tail, hsize, hid, hcode, rfl⟩ :=
      Frame.exists_header_append (by omega : 12 ≤ bytes.length)
    rw [List.length_append, Frame.length_header] at hshort ⊢
    rw [read_header_append hsize hid hcode, ofHeader, if_neg (by omega)] at h
    by_cases hwait : (tail.length : Int) + 8 < size
    · left
      simp only [Bytes.isInt32, Bool.and_eq_true, decide_eq_true_eq] at hsize
      simp only [Bytes.int32Greatest, longestWait] at hsize ⊢
      omega
    · right
      intro more frame hread
      have hlonger : (tail ++ more).length = tail.length + more.length := List.length_append
      rw [List.append_assoc, read_header_append hsize hid hcode, ofHeader, if_neg (by omega),
        if_neg (by omega)] at hread
      rw [if_neg hwait] at h
      by_cases haccepted : RequestId.isAccepted id = true
      · rw [if_pos haccepted] at h hread
        rcases htype : ResponseType.ofCode? code with - | type
        · rw [htype] at h
          exact absurd h (by simp [isSettled])
        · -- The body ends where it did, and the two bytes behind it were not there yet.
          rw [htype] at h hread
          rw [length_of_ofTail_eq_frame hread, bodyEnd_append (by omega)]
          rcases ofTail_cases size id type tail with ⟨hlt, -⟩ | ⟨_, _, _, -, -, hjudge⟩
          · omega
          · have hopen : (ofTail size id type tail).isSettled = false := h
            rw [hjudge] at hopen
            exact absurd hopen (by simp)
      · rw [if_neg haccepted] at hread
        cases hread

end Head

end Rcon
