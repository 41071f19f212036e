import Rcon.Proofs.Frame.Head

/-!
# What is asked of a buffer

A head is read at a place within a buffer (`Head.readAt`). What is asked of the buffer for it is
kept beside the result (`Traced`): a number or a byte that is not there raises an error, and a range
that goes too far, or back, is silently cut. What is made anew, a buffer or a text, takes room, and
where there is none for something of its length this raises an error too (`Room`).

**Nothing is asked for that is not there** (`Head.yields_readAt`), whatever size is declared, so the
text of a body is all that can be refused. Three questions in the way see to that:

* as many bytes as any frame has hold the three numbers of a header;
* a declared frame that ends in front of its own body has no body, so no range goes back;
* the two bytes behind a body that is there need a look of their own, for a body may end where the
  buffer does.
-/

namespace Rcon

/-! ### Accesses -/

/-- Something that is asked of a buffer of so many bytes, or of where the program runs. -/
inductive Access
  /-- The signed 32-bit number at a place. -/
  | int32 (length place : Nat)
  /-- The byte at a place. -/
  | byte (length place : Nat)
  /-- The bytes from one place up to another. -/
  | range (length first last : Nat)
  /-- A new buffer of so many bytes. -/
  | buffer (length : Nat)
  /-- A new text, made of so many bytes or of so many UTF-16 units. -/
  | text (length : Nat)
  deriving DecidableEq, Repr

/-- Is all of it in the buffer, and in order? What is made anew is in none. -/
def Access.IsInside : Access → Prop
  | .int32 length place => place + 4 ≤ length
  | .byte length place => place < length
  | .range length first last => first ≤ last ∧ last ≤ length
  | .buffer _ | .text _ => True

instance : DecidablePred Access.IsInside
  | .int32 .. => inferInstanceAs (Decidable (_ ≤ _))
  | .byte .. => inferInstanceAs (Decidable (_ < _))
  | .range .. => inferInstanceAs (Decidable (_ ∧ _))
  | .buffer .. => inferInstanceAs (Decidable True)
  | .text .. => inferInstanceAs (Decidable True)

/-- A range does not go back, though both of its places are there. -/
example : ¬Access.IsInside (.range 42 40 12) := by decide

/-- What there is room for where the program runs. -/
structure Room where
  /-- Is there room for a new buffer of so many bytes? -/
  buffer : Nat → Bool
  /-- Is there room for a new text of this length? -/
  text : Nat → Bool

namespace Room

/-- Room for everything. -/
def unlimited : Room :=
  ⟨fun _ ↦ true, fun _ ↦ true⟩

/-- Room for all buffers, and for texts up to a length. -/
def ofTexts (longest : Nat) : Room :=
  ⟨fun _ ↦ true, fun length ↦ decide (length ≤ longest)⟩

/-- Is there room for what is asked for? What is in a buffer takes none. -/
def grants (room : Room) : Access → Bool
  | .buffer length => room.buffer length
  | .text length => room.text length
  | _ => true

theorem grants_unlimited (access : Access) : unlimited.grants access = true := by
  cases access <;> rfl

end Room

/-- The error that an access raises, and what is left where it is raised. -/
structure Refusal (σ : Type) where
  /-- What was asked for. -/
  access : Access
  /-- What is left. -/
  left : σ
  deriving DecidableEq

/-- A computation that reads buffers and asks for room. -/
structure Traced (σ α : Type) where
  /-- All that is asked for, in order. -/
  accesses : List Access
  /-- What comes of it, or the error that one of the accesses raises. -/
  result : Except (Refusal σ) α

namespace Traced

variable {σ α β : Type}

/-- A computation with accesses in front of its own. -/
def behind (earlier : List Access) (traced : Traced σ α) : Traced σ α :=
  { traced with accesses := earlier ++ traced.accesses }

/-- A computation whose errors leave this. -/
def leaving (left : σ) (traced : Traced Unit α) : Traced σ α :=
  ⟨traced.accesses, traced.result.mapError fun refusal ↦ ⟨refusal.access, left⟩⟩

instance : Monad (Traced σ) where
  pure a := ⟨[], .ok a⟩
  bind traced next :=
    match traced.result with
    | .ok a => (next a).behind traced.accesses
    | .error refusal => ⟨traced.accesses, .error refusal⟩

theorem behind_pure (earlier : List Access) (a : α) :
    (pure a : Traced σ α).behind earlier = ⟨earlier, .ok a⟩ := by
  show Traced.mk (earlier ++ []) (.ok a) = _
  rw [List.append_nil]

theorem bind_of_ok {traced : Traced σ α} {a : α} (h : traced.result = .ok a)
    (next : α → Traced σ β) : traced >>= next = (next a).behind traced.accesses := by
  show (match traced.result with | .ok a => _ | .error refusal => _) = _
  rw [h]

theorem bind_of_error {traced : Traced σ α} {refusal : Refusal σ}
    (h : traced.result = .error refusal) (next : α → Traced σ β) :
    traced >>= next = ⟨traced.accesses, .error refusal⟩ := by
  show (match traced.result with | .ok a => _ | .error refusal => _) = _
  rw [h]

theorem mem_accesses_bind {traced : Traced σ α} {access : Access} (h : access ∈ traced.accesses)
    (next : α → Traced σ β) : access ∈ (traced >>= next).accesses := by
  rcases hresult : traced.result with refusal | a
  · rwa [bind_of_error hresult]
  · rw [bind_of_ok hresult]
    exact List.mem_append_left _ h

/-- Reads a number, or raises an error. -/
def int32 (buffer : Bytes) (place : Nat) : Traced Unit Int :=
  let access := Access.int32 buffer.length place
  ⟨[access], (Bytes.int32? buffer place).elim (.error ⟨access, ()⟩) .ok⟩

/-- Reads a byte, or raises an error. -/
def byte (buffer : Bytes) (place : Nat) : Traced Unit UInt8 :=
  let access := Access.byte buffer.length place
  ⟨[access], (Bytes.byte? buffer place).elim (.error ⟨access, ()⟩) .ok⟩

/-- Takes a range, or what there is of it. -/
def range (buffer : Bytes) (first last : Nat) : Traced σ Bytes :=
  ⟨[.range buffer.length first last], .ok ((buffer.take last).drop first)⟩

/-- Asks for room, or raises an error that leaves this. -/
def ask (room : Room) (access : Access) (left : σ) : Traced σ Unit :=
  ⟨[access], if room.grants access then .ok () else .error ⟨access, left⟩⟩

/-! ### Computations that stay inside -/

/-- A computation comes to this result unless something is refused for which there is no room, and
asks for nothing that is not there. -/
structure Yields (room : Room) (traced : Traced σ α) (a : α) : Prop where
  /-- All that is asked for of a buffer is inside it. -/
  isInside : ∀ access ∈ traced.accesses, access.IsInside
  /-- There is room for all of it, or an access for which there is none raises an error. -/
  ends : (traced.result = .ok a ∧ ∀ access ∈ traced.accesses, room.grants access = true) ∨
    ∃ refusal, traced.result = .error refusal ∧ refusal.access ∈ traced.accesses ∧
      room.grants refusal.access = false

section Yields

variable {room : Room} {traced : Traced σ α} {a : α}

theorem Yields.pure (a : α) : (pure a : Traced σ α).Yields room a :=
  ⟨fun _ hmem ↦ absurd hmem List.not_mem_nil,
    .inl ⟨rfl, fun _ hmem ↦ absurd hmem List.not_mem_nil⟩⟩

/-- What comes of a computation is what it yields. -/
theorem Yields.eq_of_ok {b : α} (h : traced.Yields room a) (hb : traced.result = .ok b) :
    b = a := by
  rcases h.ends with ⟨hok, -⟩ | ⟨refusal, herror, -⟩
  · exact Except.ok.inj (hb.symm.trans hok)
  · exact nomatch hb.symm.trans herror

/-- **If anything comes of a computation, there is room for all that it asks for.** -/
theorem Yields.grants_of_ok {b : α} (h : traced.Yields room a) (hb : traced.result = .ok b) :
    ∀ access ∈ traced.accesses, room.grants access = true := by
  rcases h.ends with ⟨-, hgranted⟩ | ⟨refusal, herror, -⟩
  · exact hgranted
  · exact nomatch hb.symm.trans herror

theorem Yields.ok_of_unlimited (h : traced.Yields .unlimited a) : traced.result = .ok a := by
  rcases h.ends with ⟨hok, -⟩ | ⟨refusal, -, -, hrefused⟩
  · exact hok
  · exact absurd (Room.grants_unlimited refusal.access) (Bool.eq_false_iff.1 hrefused)

/-- Accesses in front that are inside and granted change nothing about what a computation yields. -/
theorem Yields.behind (h : traced.Yields room a) {earlier : List Access}
    (hinside : ∀ access ∈ earlier, access.IsInside)
    (hgranted : ∀ access ∈ earlier, room.grants access = true) :
    (traced.behind earlier).Yields room a := by
  refine ⟨List.forall_mem_append.2 ⟨hinside, h.isInside⟩, ?_⟩
  rcases h.ends with ⟨hok, hgranted'⟩ | ⟨refusal, herror, hmem, hrefused⟩
  · exact .inl ⟨hok, List.forall_mem_append.2 ⟨hgranted, hgranted'⟩⟩
  · exact .inr ⟨refusal, herror, List.mem_append_right earlier hmem, hrefused⟩

/-- **One computation after the other stays inside if both do.** -/
theorem Yields.bind {next : α → Traced σ β} {b : β} (h : traced.Yields room a)
    (hnext : (next a).Yields room b) : (traced >>= next).Yields room b := by
  rcases h.ends with ⟨hok, hgranted⟩ | ⟨refusal, herror, hmem, hrefused⟩
  · rw [bind_of_ok hok]
    exact hnext.behind h.isInside hgranted
  · rw [bind_of_error herror]
    exact ⟨h.isInside, .inr ⟨refusal, rfl, hmem, hrefused⟩⟩

theorem Yields.leaving {traced : Traced Unit α} (h : traced.Yields room a) (left : σ) :
    (traced.leaving left).Yields room a := by
  refine ⟨h.isInside, ?_⟩
  rcases h.ends with ⟨hok, hgranted⟩ | ⟨refusal, herror, hmem, hrefused⟩
  · exact .inl ⟨by rw [Traced.leaving, hok]; rfl, hgranted⟩
  · exact .inr ⟨⟨refusal.access, left⟩, by rw [Traced.leaving, herror]; rfl, hmem, hrefused⟩

/-- What is asked for is granted or refused. -/
theorem yields_ask (room : Room) {access : Access} (hinside : access.IsInside) (left : σ) :
    (ask room access left).Yields room () := by
  refine ⟨List.forall_mem_singleton.2 hinside, ?_⟩
  by_cases hgrants : room.grants access = true
  · exact .inl ⟨if_pos hgrants, List.forall_mem_singleton.2 hgrants⟩
  · exact .inr ⟨⟨access, left⟩, if_neg hgrants, List.mem_singleton_self access,
      Bool.eq_false_iff.2 hgrants⟩

end Yields

/-- Whatever error is raised, this holds of what it leaves. -/
def Leaves (p : σ → Prop) (traced : Traced σ α) : Prop :=
  ∀ refusal, traced.result = .error refusal → p refusal.left

section Leaves

variable {p : σ → Prop} {traced : Traced σ α}

theorem Leaves.of_ok {a : α} (h : traced.result = .ok a) : traced.Leaves p :=
  fun _ herror ↦ nomatch h.symm.trans herror

theorem Leaves.bind {next : α → Traced σ β} (h : traced.Leaves p)
    (hnext : ∀ a, traced.result = .ok a → (next a).Leaves p) : (traced >>= next).Leaves p := by
  intro refusal herror
  rcases hresult : traced.result with refusal' | a
  · rw [bind_of_error hresult] at herror
    exact Except.error.inj herror ▸ h refusal' hresult
  · rw [bind_of_ok hresult] at herror
    exact hnext a hresult refusal herror

theorem leaves_leaving {left : σ} (h : p left) (traced : Traced Unit α) :
    (traced.leaving left).Leaves p := by
  intro refusal herror
  rcases hresult : traced.result with refusal' | a
  · rw [leaving, hresult] at herror
    exact Except.error.inj herror ▸ h
  · rw [leaving, hresult] at herror
    cases herror

theorem leaves_ask {left : σ} (h : p left) (room : Room) (access : Access) :
    (ask room access left).Leaves p := by
  intro refusal herror
  rw [ask] at herror
  split at herror
  · cases herror
  · exact Except.error.inj herror ▸ h

end Leaves

section Reads

variable {room : Room} {buffer front tail : Bytes} {place k : Nat}

theorem yields_int32 {n : Int} (h : Bytes.int32? buffer place = some n) :
    (int32 buffer place).Yields room n := by
  refine ⟨List.forall_mem_singleton.2 ?_, .inl ⟨?_, List.forall_mem_singleton.2 rfl⟩⟩
  · exact (Bytes.int32?_isSome buffer place).1 (by rw [h]; rfl)
  · rw [int32, h]
    rfl

theorem yields_byte {b : UInt8} (h : Bytes.byte? buffer place = some b) :
    (byte buffer place).Yields room b := by
  refine ⟨List.forall_mem_singleton.2 ?_, .inl ⟨?_, List.forall_mem_singleton.2 rfl⟩⟩
  · exact (Bytes.byte?_isSome buffer place).1 (by rw [h]; rfl)
  · rw [byte, h]
    rfl

theorem yields_range (buffer : Bytes) {first last : Nat} (h : first ≤ last)
    (h' : last ≤ buffer.length) :
    (range buffer first last : Traced σ Bytes).Yields room ((buffer.take last).drop first) :=
  ⟨List.forall_mem_singleton.2 ⟨h, h'⟩, .inl ⟨rfl, List.forall_mem_singleton.2 rfl⟩⟩

/-- Behind some bytes in front, a range is taken from the others. -/
theorem yields_range_append (h : front.length = place) (hk : k ≤ tail.length) :
    (range (front ++ tail) place (place + k) : Traced σ Bytes).Yields room (tail.take k) := by
  subst h
  have htaken : ((front ++ tail).take (front.length + k)).drop front.length = tail.take k := by
    rw [List.take_length_add_append, List.drop_left]
  rw [← htaken]
  exact yields_range _ (Nat.le_add_right front.length k)
    (by rw [List.length_append]; exact Nat.add_le_add_left hk _)

end Reads

end Traced

/-! ### Attempts -/

namespace Head

open Rcon.Frame (header)

/-- How many bytes there are in front of the first zero between two places: none where no byte of
them is zero, or where they are not in order. -/
def bodyLengthAt (buffer : Bytes) (cursor : Nat) (frameEnd : Int) : Traced Unit Nat :=
  if cursor < frameEnd then do
    let region ← Traced.range buffer cursor frameEnd.toNat
    return (region.idxOf? 0).getD 0
  else return 0

/-- Reads a body of so many bytes, and makes its text. -/
def bodyAt (room : Room) (buffer : Bytes) (cursor bodyLength : Nat) : Traced Unit Bytes :=
  if 0 < bodyLength then do
    let body ← Traced.range buffer cursor (cursor + bodyLength)
    Traced.ask room (.text body.length) ()
    return body
  else return []

/-- Reads a body and the two bytes behind it, and judges them. -/
def readBodyAt (room : Room) (buffer : Bytes) (cursor : Nat) (frameEnd size id : Int)
    (type : ResponseType) : Traced Unit Head := do
  let bodyLength ← bodyLengthAt buffer cursor frameEnd
  let body ← bodyAt room buffer cursor bodyLength
  let stop := cursor + bodyLength
  if buffer.length < stop + 2 then
    return .waiting (.terminators id type.code)
  else
    let first ← Traced.byte buffer stop
    let second ← Traced.byte buffer (stop + 1)
    return judge size id type body first second

/-- Reads a head at a place, field by field. -/
def readAt (room : Room) (buffer : Bytes) (start : Nat) : Traced Unit Head := do
  if buffer.length - start < Protocol.minFrameBytes then
    return .short
  else
    let size ← Traced.int32 buffer start
    if (buffer.length : Int) - (start + Protocol.sizeFieldBytes) < size then
      return .waiting (.size size (buffer.length - (start + Protocol.sizeFieldBytes)))
    else
      let id ← Traced.int32 buffer (start + 4)
      if RequestId.isAccepted id then
        let code ← Traced.int32 buffer (start + 8)
        match ResponseType.ofCode? code with
        | none => return .waiting (.type code)
        | some type =>
          let frameEnd := min (buffer.length : Int) (start + Protocol.sizeFieldBytes + size)
          readBodyAt room buffer (start + Protocol.headerBytes) frameEnd size id type
      else
        return .waiting (.id id)

section Behind

variable {room : Room} {front tail : Bytes} {cursor : Nat} {frameEnd size : Int}

theorem bodyEnd_le (size : Int) (tail : Bytes) : bodyEnd size tail ≤ tail.length := by
  rw [bodyEnd]
  rcases hfound : (tail.take (size - 8).toNat).idxOf? 0 with - | k
  · exact Nat.zero_le _
  · rw [List.idxOf?, List.findIdx?_eq_some_iff_getElem] at hfound
    obtain ⟨hlt, -⟩ := hfound
    exact Nat.le_trans (Nat.le_of_lt hlt) (List.length_take_le' _ _)

/-- The first zero within the declared frame is looked for inside the buffer. -/
theorem yields_bodyLengthAt (hfront : front.length = cursor)
    (hend : frameEnd = min ((front ++ tail).length : Int) (cursor - 8 + size)) :
    (bodyLengthAt (front ++ tail) cursor frameEnd).Yields room (bodyEnd size tail) := by
  rw [List.length_append] at hend
  rw [bodyLengthAt]
  split
  · next hlt =>
    -- The range ends behind as many bytes of the tail as the size allows, if they are there.
    have hlast : frameEnd.toNat = cursor + min (size - 8).toNat tail.length := by omega
    have hcut : tail.take (min (size - 8).toNat tail.length) = tail.take (size - 8).toNat :=
      List.take_eq_take_iff.2 (by omega)
    rw [bodyEnd, ← hcut, hlast]
    exact (Traced.yields_range_append hfront (Nat.min_le_right _ _)).bind (.pure _)
  · next hle =>
    have hnone : tail.take (size - 8).toNat = [] := by
      rw [List.take_eq_nil_iff, ← List.length_eq_zero_iff]
      omega
    rw [bodyEnd, hnone]
    exact .pure 0

/-- A body that ends within the tail is read inside the buffer, be the two bytes behind it there or
not. -/
theorem yields_bodyAt (hfront : front.length = cursor) {k : Nat} (hk : k ≤ tail.length) :
    (bodyAt room (front ++ tail) cursor k).Yields room (tail.take k) := by
  rw [bodyAt]
  split
  · have hinside : (Access.text (tail.take k).length).IsInside := trivial
    exact (Traced.yields_range_append hfront hk).bind
      ((Traced.yields_ask room hinside ()).bind (.pure _))
  · next hzero =>
    rw [Nat.eq_zero_of_not_pos hzero]
    exact .pure []

/-- A body and the two bytes behind it are read inside the buffer. -/
theorem yields_readBodyAt (hfront : front.length = cursor)
    (hend : frameEnd = min ((front ++ tail).length : Int) (cursor - 8 + size)) (id : Int)
    (type : ResponseType) :
    (readBodyAt room (front ++ tail) cursor frameEnd size id type).Yields room
      (ofTail size id type tail) := by
  refine (yields_bodyLengthAt hfront hend).bind
    ((yields_bodyAt hfront (bodyEnd_le size tail)).bind ?_)
  show Traced.Yields room
    (if (front ++ tail).length < cursor + bodyEnd size tail + 2 then _ else _) _
  rw [List.length_append, hfront]
  rcases ofTail_cases size id type tail with ⟨hlt, hwait⟩ | ⟨first, second, _, hdrop, hle, hjudge⟩
  · rw [if_pos (by omega), hwait]
    exact .pure _
  · rw [if_neg (by omega), hjudge]
    have hfirst : (Traced.byte (front ++ tail) (cursor + bodyEnd size tail)).Yields room first := by
      refine Traced.yields_byte ?_
      rw [Bytes.byte?_append_right _ _ _ hfront, ← Nat.add_zero (bodyEnd size tail),
        ← List.getElem?_drop, hdrop]
      rfl
    have hsecond :
        (Traced.byte (front ++ tail) (cursor + bodyEnd size tail + 1)).Yields room second := by
      refine Traced.yields_byte ?_
      rw [Nat.add_assoc, Bytes.byte?_append_right _ _ _ hfront, ← List.getElem?_drop, hdrop]
      rfl
    exact hfirst.bind (hsecond.bind (.pure _))

/-- **The text of a body is made as soon as the body is found**, whatever stands behind it. -/
theorem text_mem_accesses_readBodyAt (hfront : front.length = cursor)
    (hend : frameEnd = min ((front ++ tail).length : Int) (cursor - 8 + size)) (id : Int)
    (type : ResponseType) (hpos : 0 < bodyEnd size tail) :
    .text (bodyEnd size tail) ∈
      (readBodyAt room (front ++ tail) cursor frameEnd size id type).accesses := by
  have hfound : (bodyLengthAt (front ++ tail) cursor frameEnd).result = .ok (bodyEnd size tail) :=
    (yields_bodyLengthAt hfront hend).ok_of_unlimited
  have hbody : (Traced.range (front ++ tail) cursor (cursor + bodyEnd size tail) :
      Traced Unit Bytes).result = .ok (tail.take (bodyEnd size tail)) :=
    (Traced.yields_range_append hfront (bodyEnd_le size tail)).ok_of_unlimited
  have htext : .text (bodyEnd size tail) ∈
      (bodyAt room (front ++ tail) cursor (bodyEnd size tail)).accesses := by
    rw [bodyAt, if_pos hpos, Traced.bind_of_ok hbody, List.length_take_of_le (bodyEnd_le size tail)]
    exact List.mem_append_right _ (Traced.mem_accesses_bind (List.mem_singleton_self _) _)
  rw [readBodyAt, Traced.bind_of_ok hfound]
  exact List.mem_append_right _ (Traced.mem_accesses_bind htext _)

theorem length_append_header (hfront : front.length = cursor) (size id code : Int) :
    (front ++ header size id code).length = cursor + 12 := by
  rw [List.length_append, hfront, Frame.length_header]

theorem length_append_header_append (hfront : front.length = cursor) (size id code : Int)
    (tail : Bytes) :
    (front ++ (header size id code ++ tail)).length = cursor + (12 + tail.length) := by
  rw [← List.append_assoc, List.length_append, length_append_header hfront, Nat.add_assoc]

/-- A header is read inside the buffer, and so is what it leads to. -/
theorem yields_readAt_header_append {id code : Int} (hsize : Bytes.isInt32 size = true)
    (hid : Bytes.isInt32 id = true) (hcode : Bytes.isInt32 code = true)
    (hfront : front.length = cursor) (htail : 2 ≤ tail.length) :
    (readAt room (front ++ (header size id code ++ tail)) cursor).Yields room
      (ofHeader size id code tail) := by
  obtain ⟨hsize', hid', hcode'⟩ := Frame.int32?_header_append hsize hid hcode tail
  have hint32 {k : Nat} {n : Int} (h : Bytes.int32? (header size id code ++ tail) k = some n) :
      (Traced.int32 (front ++ (header size id code ++ tail)) (cursor + k)).Yields room n :=
    Traced.yields_int32 ((Bytes.int32?_append_right _ _ k hfront).trans h)
  have hmin : Protocol.minFrameBytes = 14 := rfl
  have hfield : Protocol.sizeFieldBytes = 4 := rfl
  have hlength := length_append_header_append hfront size id code tail
  rw [readAt, ofHeader, if_neg (by omega), if_neg (by omega)]
  refine (hint32 hsize').bind ?_
  split
  · next hwait =>
    rw [if_pos (by omega), show (front ++ (header size id code ++ tail)).length -
      (cursor + Protocol.sizeFieldBytes) = tail.length + 8 by omega]
    exact .pure _
  · next hthere =>
    rw [if_neg (by omega)]
    refine (hint32 hid').bind ?_
    split
    · refine (hint32 hcode').bind ?_
      rcases ResponseType.ofCode? code with - | type
      · exact .pure _
      · show Traced.Yields room (readBodyAt room _ (cursor + 12) _ size id type)
          (ofTail size id type tail)
        rw [← List.append_assoc]
        refine yields_readBodyAt (length_append_header hfront size id code) ?_ id type
        omega
    · exact .pure _

/-- A body is looked for behind every header that is good. -/
theorem text_mem_accesses_readAt {id : Int} {type : ResponseType}
    (hsize : Bytes.isInt32 size = true) (hid : Bytes.isInt32 id = true)
    (hfront : front.length = cursor) (htail : 2 ≤ tail.length) (hfits : size ≤ tail.length + 8)
    (haccepted : RequestId.isAccepted id = true) (hpos : 0 < bodyEnd size tail) :
    .text (bodyEnd size tail) ∈
      (readAt room (front ++ (header size id type.code ++ tail)) cursor).accesses := by
  obtain ⟨hsize', hid', hcode'⟩ := Frame.int32?_header_append hsize hid type.isInt32_code tail
  have hint32 {k : Nat} {n : Int}
      (h : Bytes.int32? (header size id type.code ++ tail) k = some n) :
      (Traced.int32 (front ++ (header size id type.code ++ tail)) (cursor + k)).result = .ok n :=
    (Traced.yields_int32 ((Bytes.int32?_append_right _ _ k hfront).trans h)).ok_of_unlimited
  have hsizeAt : (Traced.int32 (front ++ (header size id type.code ++ tail)) cursor).result =
      .ok size := hint32 hsize'
  have hmin : Protocol.minFrameBytes = 14 := rfl
  have hfield : Protocol.sizeFieldBytes = 4 := rfl
  have hheader := length_append_header hfront size id type.code
  have hlength := length_append_header_append hfront size id type.code tail
  rw [readAt, if_neg (by omega), Traced.bind_of_ok hsizeAt]
  refine List.mem_append_right _ ?_
  rw [if_neg (by omega), Traced.bind_of_ok (hint32 hid')]
  refine List.mem_append_right _ ?_
  rw [if_pos haccepted, Traced.bind_of_ok (hint32 hcode')]
  refine List.mem_append_right _ ?_
  rw [ResponseType.ofCode?_eq_some_iff.2 rfl]
  show _ ∈ (readBodyAt room _ (cursor + 12) _ size id type).accesses
  rw [← List.append_assoc]
  exact text_mem_accesses_readBodyAt hheader (by omega) id type hpos

end Behind

/-- **No attempt asks for anything that is not there**, and it finds what stands first behind its
place. -/
theorem yields_readAt (room : Room) (buffer : Bytes) (start : Nat) :
    (readAt room buffer start).Yields room (read (buffer.drop start)) := by
  rcases Nat.lt_or_ge (buffer.length - start) Protocol.minFrameBytes with hshort | hlong
  · rw [readAt, if_pos hshort, read_eq_short (by rwa [List.length_drop])]
    exact .pure _
  · -- Behind the place there is a header, and behind that two bytes or more.
    rw [Protocol.minFrameBytes] at hlong
    have hstart : (buffer.take start).length = start := List.length_take_of_le (by omega)
    have hback : 14 ≤ (buffer.drop start).length := by
      rwa [List.length_drop]
    obtain ⟨size, id, code, tail, hsize, hid, hcode, htail⟩ :=
      Frame.exists_header_append (Nat.le_trans (by decide) hback)
    rw [htail, List.length_append, Frame.length_header] at hback
    have hreads := @yields_readAt_header_append room _ _ _ _ _ _ hsize hid hcode hstart
      (show 2 ≤ tail.length by omega)
    rwa [← read_header_append hsize hid hcode, ← htail, List.take_append_drop] at hreads

end Head

end Rcon
