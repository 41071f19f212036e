import Rcon.Frame.Packet
import Rcon.Proofs.Frame.Head

/-!
# What stands first, by places

The verdict on the buffered bytes is reached by reading one field after the other. Here it is said
at once, by what stands at which place:

* `Grammar.BodyEnds` is the place where the body ends: the first zero behind the header and within
  the declared size, or the place right behind the header where there is none.
* `Grammar.Complete` says that there is all it takes to judge what stands first: a header that a
  server may send, as many bytes as its size declares, and two bytes behind the body.
* `Grammar.IsFrame`, `Grammar.IsMalformed` and `Grammar.Waits` are the three things that bytes can
  be. They exclude each other, and `Head.read` tells them apart (`isFrame_iff`, `isMalformed_iff`,
  `waits_iff`).

**The places determine the bytes of a frame**: they are those that would be written for it
(`IsFrame.eq_bytes_append`), whatever size it declares.
-/

namespace Rcon

/-- The packet that a frame is. -/
def Frame.packet (frame : Frame) : Packet where
  size := frame.size
  id := frame.id
  code := frame.type.code
  body := frame.body

namespace Grammar

/-! ### Places -/

/-- The place where the body of a packet of this size ends. -/
inductive BodyEnds (bytes : Bytes) (size : Int) : Nat → Prop
  /-- At the first zero behind the header and within the size. -/
  | atZero {stop : Nat} (behind : 12 ≤ stop) (within : (stop : Int) < 4 + size)
      (zero : bytes[stop]? = some 0) (first : ∀ j : Nat, 12 ≤ j → j < stop → bytes[j]? ≠ some 0) :
      BodyEnds bytes size stop
  /-- Right behind the header where there is no zero within the size. -/
  | atOnce (nowhere : ∀ j : Nat, 12 ≤ j → (j : Int) < 4 + size → bytes[j]? ≠ some 0) :
      BodyEnds bytes size 12

/-- There is all it takes to judge what stands first, and its body ends at `stop`. -/
structure Complete (bytes : Bytes) (size id code : Int) (stop : Nat) : Prop where
  /-- There are as many bytes as any frame has. -/
  minimal : 14 ≤ bytes.length
  /-- The size. -/
  size_at : Bytes.int32? bytes 0 = some size
  /-- The request id. -/
  id_at : Bytes.int32? bytes 4 = some id
  /-- The code of the type. -/
  code_at : Bytes.int32? bytes 8 = some code
  /-- There are as many bytes as the size declares. -/
  declared : 4 + size ≤ bytes.length
  /-- The id is one that a server may answer with. -/
  id_accepted : id = -1 ∨ id = 999 ∨ 100000000 ≤ id ∧ id ≤ 999999999
  /-- The code is that of a type. -/
  code_known : code = 0 ∨ code = 2
  /-- The body ends at `stop`. -/
  ends : BodyEnds bytes size stop
  /-- The two bytes behind the body are there. -/
  terminators : stop + 2 ≤ bytes.length

/-- The bytes begin with this frame, whose body ends at `stop`. -/
structure IsFrame (bytes : Bytes) (frame : Frame) (stop : Nat) : Prop where
  /-- There is all it takes to judge the frame. -/
  complete : Complete bytes frame.size frame.id frame.type.code stop
  /-- The byte behind the body is zero. -/
  first_zero : bytes[stop]? = some 0
  /-- The byte behind that is zero too. -/
  second_zero : bytes[stop + 1]? = some 0
  /-- The body stands between the header and the place where it ends. -/
  body_eq : frame.body = (bytes.take stop).drop 12

/-- The bytes begin with the end of a split response that is not followed by two zeros. -/
def IsMalformed (bytes : Bytes) : Prop :=
  ∃ size code stop, Complete bytes size 999 code stop ∧
    ¬(bytes[stop]? = some 0 ∧ bytes[stop + 1]? = some 0)

/-- The bytes begin neither with a frame nor with a malformed packet. -/
def Waits (bytes : Bytes) : Prop :=
  (∀ frame stop, ¬IsFrame bytes frame stop) ∧ ¬IsMalformed bytes

/-- The body ends at one place only. -/
theorem BodyEnds.unique {bytes : Bytes} {size : Int} {stop stop' : Nat}
    (h : BodyEnds bytes size stop) (h' : BodyEnds bytes size stop') : stop = stop' := by
  cases h with
  | atZero behind within zero first =>
    cases h' with
    | atZero behind' within' zero' first' =>
      -- Of two zeros the later would not be the first.
      rcases Nat.lt_trichotomy stop stop' with hlt | heq | hgt
      · exact absurd zero (first' stop behind hlt)
      · exact heq
      · exact absurd zero' (first stop' behind' hgt)
    | atOnce nowhere' => exact absurd zero (nowhere' stop behind within)
  | atOnce nowhere =>
    cases h' with
    | atZero behind' within' zero' first' => exact absurd zero' (nowhere stop' behind' within')
    | atOnce nowhere' => rfl

theorem BodyEnds.le {bytes : Bytes} {size : Int} {stop : Nat} (h : BodyEnds bytes size stop) :
    12 ≤ stop := by
  cases h with
  | atZero behind => exact behind
  | atOnce => exact Nat.le_refl 12

/-- **With the two bytes behind it the body goes at most one byte beyond the size**, unless the size
is that of no frame. -/
theorem BodyEnds.add_two_le {bytes : Bytes} {size : Int} {stop : Nat}
    (h : BodyEnds bytes size stop) : (stop : Int) + 2 ≤ max 14 (size + 5) := by
  cases h with
  | atZero behind within => omega
  | atOnce => omega

/-! ### Places and parts -/

open Rcon.Frame (header int32?_header_append)

theorem getElem?_header_append (size id code : Int) (tail : Bytes) (k : Nat) :
    (header size id code ++ tail)[12 + k]? = tail[k]? := by
  rw [List.getElem?_append_right (by rw [Frame.length_header]; omega), Frame.length_header,
    Nat.add_sub_cancel_left]

/-- The end of the body in the tail is its place behind the header. -/
theorem bodyEnds_header_append (size id code : Int) (tail : Bytes) :
    BodyEnds (header size id code ++ tail) size (12 + Head.bodyEnd size tail) := by
  rcases hfound : (tail.take (size - 8).toNat).idxOf? 0 with - | k
  · have hend : Head.bodyEnd size tail = 0 := by rw [Head.bodyEnd, hfound, Option.getD_none]
    rw [hend]
    refine .atOnce fun j hj hlt hzero ↦ ?_
    obtain ⟨k, rfl⟩ := Nat.exists_eq_add_of_le hj
    rw [getElem?_header_append] at hzero
    refine List.idxOf?_eq_none_iff.1 hfound (List.mem_of_getElem? (i := k) ?_)
    rw [List.getElem?_take_of_lt (by omega), hzero]
  · have hend : Head.bodyEnd size tail = k := by rw [Head.bodyEnd, hfound, Option.getD_some]
    rw [List.idxOf?, List.findIdx?_eq_some_iff_getElem] at hfound
    obtain ⟨hk, hzero, hfirst⟩ := hfound
    have hk' := hk
    rw [List.length_take] at hk'
    rw [List.getElem_take, beq_iff_eq] at hzero
    rw [hend]
    refine .atZero (by omega) (by omega) ?_ fun j hj hlt hzero' ↦ ?_
    · rw [getElem?_header_append, List.getElem?_eq_getElem (by omega), hzero]
    · obtain ⟨i, rfl⟩ := Nat.exists_eq_add_of_le hj
      rw [getElem?_header_append, List.getElem?_eq_some_iff] at hzero'
      obtain ⟨hi, hzero'⟩ := hzero'
      refine hfirst i (by omega) ?_
      rw [List.getElem_take, hzero', beq_self_eq_true]

theorem isAccepted_iff (id : Int) :
    RequestId.isAccepted id = true ↔ id = -1 ∨ id = 999 ∨ 100000000 ≤ id ∧ id ≤ 999999999 := by
  simp only [RequestId.isAccepted, Bool.or_eq_true, Bool.and_eq_true, decide_eq_true_eq, or_assoc]
  exact Iff.rfl

theorem code_eq_zero_or_two (type : ResponseType) : type.code = 0 ∨ type.code = 2 := by
  cases type
  · exact .inl rfl
  · exact .inr rfl

theorem exists_code_eq {code : Int} (h : code = 0 ∨ code = 2) :
    ∃ type : ResponseType, type.code = code := by
  rcases h with rfl | rfl
  · exact ⟨.value, rfl⟩
  · exact ⟨.authentication, rfl⟩

/-! ### The verdict -/

/-- **Where there is all it takes, the two bytes behind the body are judged.** -/
theorem Complete.read_eq {bytes : Bytes} {size id code : Int} {stop : Nat}
    (h : Complete bytes size id code stop) :
    ∃ type first second, ResponseType.code type = code ∧ bytes[stop]? = some first ∧
      bytes[stop + 1]? = some second ∧
      Head.read bytes = Head.judge size id type ((bytes.take stop).drop 12) first second := by
  obtain ⟨minimal, size_at, id_at, code_at, declared, id_accepted, code_known, ends, terminators⟩ :=
    h
  obtain ⟨size, id, code, tail, hsize, hid, hcode, rfl⟩ :=
    Frame.exists_header_append (by omega : 12 ≤ bytes.length)
  obtain ⟨hsize', hid', hcode'⟩ := int32?_header_append hsize hid hcode tail
  obtain rfl := Option.some.inj (hsize'.symm.trans size_at)
  obtain rfl := Option.some.inj (hid'.symm.trans id_at)
  obtain rfl := Option.some.inj (hcode'.symm.trans code_at)
  obtain rfl := ends.unique (bodyEnds_header_append size id code tail)
  obtain ⟨type, rfl⟩ := exists_code_eq code_known
  rw [List.length_append, Frame.length_header] at minimal declared terminators
  have htype : ResponseType.ofCode? type.code = some type :=
    ResponseType.ofCode?_eq_some_iff.2 rfl
  rcases Head.ofTail_cases size id type tail with ⟨hlt, -⟩ | ⟨first, second, rest, hdrop, -, hjudge⟩
  · omega
  · refine ⟨type, first, second, rfl, ?_, ?_, ?_⟩
    · rw [getElem?_header_append, ← Nat.add_zero (Head.bodyEnd size tail), ← List.getElem?_drop,
        hdrop]
      rfl
    · rw [Nat.add_assoc, getElem?_header_append, ← List.getElem?_drop, hdrop]
      rfl
    · rw [Head.read_header_append hsize hid hcode, Head.ofHeader, if_neg (by omega),
        if_neg (by omega), if_pos ((isAccepted_iff id).2 id_accepted), htype]
      show Head.ofTail size id type tail = _
      rw [hjudge, ← Frame.length_header size id type.code, List.take_length_add_append,
        List.drop_left]

/-- **A verdict other than waiting has all it takes.** -/
theorem exists_complete {bytes : Bytes} (h : (Head.read bytes).isWait = false) :
    ∃ size id code stop, Complete bytes size id code stop := by
  by_cases hshort : bytes.length < 12
  · rw [Head.read_eq_short (by omega)] at h
    cases h
  · obtain ⟨size, id, code, tail, hsize, hid, hcode, rfl⟩ :=
      Frame.exists_header_append (Nat.le_of_not_lt hshort)
    obtain ⟨hsize', hid', hcode'⟩ := int32?_header_append hsize hid hcode tail
    have hends := bodyEnds_header_append size id code tail
    rw [Head.read_header_append hsize hid hcode, Head.ofHeader] at h
    -- Each check that fails leaves a verdict that waits.
    split at h
    · cases h
    · split at h
      · cases h
      · split at h
        · next haccepted =>
          rcases htype : ResponseType.ofCode? code with - | type
          · rw [htype] at h
            cases h
          · rw [htype] at h
            obtain rfl := ResponseType.ofCode?_eq_some_iff.1 htype
            rcases Head.ofTail_cases size id type tail with ⟨-, hwait⟩ | ⟨_, _, _, -, hle, -⟩
            · have hopen : (Head.ofTail size id type tail).isWait = false := h
              rw [hwait] at hopen
              cases hopen
            · refine ⟨size, id, type.code, _, ?_, hsize', hid', hcode', ?_,
                (isAccepted_iff id).1 haccepted, code_eq_zero_or_two type, hends, ?_⟩
              all_goals
                rw [List.length_append, Frame.length_header]
                omega
        · cases h

/-- A frame stands first exactly if it is read there. -/
theorem isFrame_iff {bytes : Bytes} {frame : Frame} :
    (∃ stop, IsFrame bytes frame stop) ↔ Head.read bytes = .frame frame := by
  constructor
  · rintro ⟨stop, hcomplete, hfirst, hsecond, hbody⟩
    obtain ⟨type, first, second, htype, hfirst', hsecond', hread⟩ := hcomplete.read_eq
    obtain rfl := Option.some.inj (hfirst.symm.trans hfirst')
    obtain rfl := Option.some.inj (hsecond.symm.trans hsecond')
    have htype' : type = frame.type :=
      Option.some.inj ((ResponseType.ofCode?_eq_some_iff.2 rfl).symm.trans
        (ResponseType.ofCode?_eq_some_iff.2 htype.symm))
    rw [hread, Head.judge, if_pos ⟨rfl, rfl⟩, htype', ← hbody]
  · intro hread
    obtain ⟨size, id, code, stop, hcomplete⟩ := exists_complete (by rw [hread]; rfl)
    obtain ⟨type, first, second, rfl, hfirst, hsecond, hread'⟩ := hcomplete.read_eq
    rw [hread', Head.judge] at hread
    split at hread
    · next hzeros =>
      cases hread
      exact ⟨stop, hcomplete, hzeros.1 ▸ hfirst, hzeros.2 ▸ hsecond, rfl⟩
    · split at hread <;> cases hread

/-- A malformed packet stands first exactly if it is read there. -/
theorem isMalformed_iff {bytes : Bytes} :
    IsMalformed bytes ↔ ∃ first second, Head.read bytes = .malformed first second := by
  constructor
  · rintro ⟨size, code, stop, hcomplete, hzeros⟩
    obtain ⟨type, first, second, -, hfirst, hsecond, hread⟩ := hcomplete.read_eq
    rw [hfirst, hsecond, Option.some.injEq, Option.some.injEq] at hzeros
    refine ⟨first, second, ?_⟩
    rw [hread, Head.judge, if_neg hzeros]
    exact if_pos rfl
  · rintro ⟨first, second, hread⟩
    obtain ⟨size, id, code, stop, hcomplete⟩ := exists_complete (by rw [hread]; rfl)
    obtain ⟨type, first', second', -, hfirst, hsecond, hread'⟩ := hcomplete.read_eq
    rw [hread', Head.judge] at hread
    split at hread
    · cases hread
    · next hzeros =>
      split at hread
      · next hid =>
        obtain rfl : id = 999 := hid
        refine ⟨size, code, stop, hcomplete, ?_⟩
        rwa [hfirst, hsecond, Option.some.injEq, Option.some.injEq]
      · cases hread

/-- **Bytes wait exactly if they are read so.** -/
theorem waits_iff {bytes : Bytes} : Waits bytes ↔ (Head.read bytes).isWait = true := by
  rcases hread : Head.read bytes with frame | ⟨first, second⟩ | why | -
  · refine ⟨fun h ↦ ?_, fun h ↦ by cases h⟩
    obtain ⟨stop, hframe⟩ := isFrame_iff.2 hread
    exact absurd hframe (h.1 frame stop)
  · exact ⟨fun h ↦ absurd (isMalformed_iff.2 ⟨first, second, hread⟩) h.2, fun h ↦ by cases h⟩
  all_goals
    refine ⟨fun _ ↦ rfl, fun _ ↦ ⟨fun frame stop hframe ↦ ?_, fun hmalformed ↦ ?_⟩⟩
    · rw [isFrame_iff.1 ⟨stop, hframe⟩] at hread
      cases hread
    · obtain ⟨first, second, hread'⟩ := isMalformed_iff.1 hmalformed
      rw [hread'] at hread
      cases hread

/-! ### The bytes of a frame -/

variable {bytes : Bytes} {frame : Frame} {stop : Nat}

/-- A frame goes up to the two bytes behind its body. -/
theorem IsFrame.length_eq (h : IsFrame bytes frame stop) : frame.length = stop + 2 := by
  have hle := h.complete.ends.le
  have hterminators := h.complete.terminators
  rw [Frame.length, h.body_eq, List.length_drop, List.length_take_of_le (by omega),
    Protocol.minFrameBytes]
  omega

theorem IsFrame.stop_eq (h : IsFrame bytes frame stop) : stop = 12 + frame.body.length := by
  have hlength := h.length_eq
  rw [Frame.length, Protocol.minFrameBytes] at hlength
  omega

/-- **A frame stands there as it would be written**, whatever size it declares. -/
theorem IsFrame.eq_bytes_append (h : IsFrame bytes frame stop) :
    bytes = frame.packet.bytes ++ bytes.drop frame.length := by
  have hle := h.complete.ends.le
  obtain ⟨hstop, hfirst⟩ := List.getElem?_eq_some_iff.1 h.first_zero
  obtain ⟨hstop', hsecond⟩ := List.getElem?_eq_some_iff.1 h.second_zero
  have hheader : bytes.take 12 = header frame.size frame.id frame.type.code := by
    obtain ⟨size, id, code, tail, hsize, hid, hcode, rfl⟩ :=
      Frame.exists_header_append (by omega : 12 ≤ bytes.length)
    obtain ⟨hsize', hid', hcode'⟩ := int32?_header_append hsize hid hcode tail
    rw [Option.some.inj (hsize'.symm.trans h.complete.size_at),
      Option.some.inj (hid'.symm.trans h.complete.id_at),
      Option.some.inj (hcode'.symm.trans h.complete.code_at)]
    exact List.take_left' rfl
  have hfront : bytes.take stop = header frame.size frame.id frame.type.code ++ frame.body := by
    have htake : (bytes.take stop).take 12 = bytes.take 12 := by
      rw [List.take_take, Nat.min_eq_left hle]
    rw [← hheader, ← htake, h.body_eq, List.take_append_drop]
  have hback : bytes.drop stop = [0, 0] ++ bytes.drop frame.length := by
    rw [h.length_eq, List.drop_eq_getElem_cons hstop, List.drop_eq_getElem_cons hstop', hfirst,
      hsecond]
    rfl
  calc
    bytes = bytes.take stop ++ bytes.drop stop := (List.take_append_drop stop bytes).symm
    _ = frame.packet.bytes ++ bytes.drop frame.length := by
      rw [hfront, hback, ← List.append_assoc]
      rfl

end Grammar

/-- **A frame that is read stands there as it would be written.** -/
theorem Head.eq_bytes_append_of_read {bytes : Bytes} {frame : Frame}
    (h : Head.read bytes = .frame frame) :
    bytes = frame.packet.bytes ++ bytes.drop frame.length := by
  obtain ⟨stop, hframe⟩ := Grammar.isFrame_iff.2 h
  exact hframe.eq_bytes_append

end Rcon
