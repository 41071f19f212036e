import Rcon.Proofs.Decoder.Run
import Rcon.Proofs.Frame.Reply

/-!
# Frames that end in other bytes than zeros

A frame of the proper size ends in two bytes that are not both zero. What becomes of it, however the
stream is cut and whatever follows, turns on where its body is found to end (`feedAll_endingIn`):

* Unless a zero comes second behind another byte, the verdict falls with the last byte of the frame.
  With the reserved id everything buffered is dropped then; with any other the decoder waits for
  good.
* **A zero behind another byte is taken for the first of the two**, and that byte for the last of
  the body. The byte that follows the frame decides: it completes a response, or the verdict is as
  above, one byte later.

Everything before the byte that decides is silent, and all of it is kept.
-/

namespace Rcon

namespace Decoder

variable {decoder : Decoder} {handler : DiscardHandler} {chunks : List Bytes} {n : Nat}

/-- The feed that the `n`-th byte arrives with drops all bytes so far for a malformed packet, and
returns nothing; the feeds before it are silent. -/
def DropsAt (decoder : Decoder) (handler : DiscardHandler) (chunks : List Bytes) (n : Nat) : Prop :=
  ∃ k fed, decoder.Awaits handler chunks n k fed ∧ fed.outcome = .ok [] ∧
    fed.discards = [⟨.malformedTerminator, (chunks.take (k + 1)).flatten.length⟩] ∧
    fed.decoder.pending = []

/-- The feed that the `n`-th byte arrives with returns this response first; the feeds before it are
silent. -/
def CompletesAt (decoder : Decoder) (handler : DiscardHandler) (chunks : List Bytes) (n : Nat)
    (response : Response) : Prop :=
  ∃ k fed, decoder.Awaits handler chunks n k fed ∧
    ∃ others, fed.outcome = .ok (response :: others)

/-! ### What the byte that decides does -/

/-- What is fed by the time the first `n` bytes are there begins with them. -/
theorem exists_flatten_take_eq_append {start following : Bytes} {k : Nat}
    (hcut : chunks.flatten = start ++ following)
    (hwithin : start.length ≤ (chunks.take k).flatten.length) :
    ∃ more, (chunks.take k).flatten = start ++ more := by
  have hstart : start <+: chunks.flatten := hcut ▸ List.prefix_append start following
  obtain ⟨more, hmore⟩ :=
    List.prefix_of_prefix_length_le hstart (isPrefix_flatten_take k chunks) hwithin
  exact ⟨more, hmore.symm⟩

/-- A frame that the `n`-th byte completes is the first response of its feed. -/
theorem completesAt_of_read (hquiet : handler.raised? = none) (hempty : decoder.pending = [])
    (hstall : ∀ fed ∈ decoder.feedAll handler chunks, fed.stalls = false)
    {start following : Bytes} (hcut : chunks.flatten = start ++ following) (hpos : 0 < start.length)
    (hwait : ∀ front, front <+: start ++ following → front.length < start.length →
      (Head.read front).isWait = true)
    {frame : Frame} (hread : ∀ more, Head.read (start ++ more) = .frame frame) :
    decoder.CompletesAt handler chunks start.length frame.response := by
  rw [← hcut] at hwait
  obtain ⟨k, fed, hawaits, hfollows⟩ := exists_awaits hquiet hempty hstall hpos
    (by rw [hcut, List.length_append]; omega) hwait
  obtain ⟨more, hmore⟩ := exists_flatten_take_eq_append hcut hawaits.within
  refine ⟨k, fed, hawaits, ?_⟩
  rw [hfollows.outcome, hmore, drain_of_frame (hread more), Drain.frames_after_frame, List.map_cons]
  exact ⟨_, rfl⟩

/-- **Two bytes that are not both zero**: with the reserved id the feed drops everything, with any
other the decoder waits for good. -/
theorem dropsAt_and_keeps_of_read (hquiet : handler.raised? = none) (hempty : decoder.pending = [])
    (hstall : ∀ fed ∈ decoder.feedAll handler chunks, fed.stalls = false)
    {start following : Bytes} (hcut : chunks.flatten = start ++ following) (hpos : 0 < start.length)
    (hwait : ∀ front, front <+: start ++ following → front.length < start.length →
      (Head.read front).isWait = true)
    {size id : Int} {type : ResponseType} {body : Bytes} {a b : UInt8} (hbad : ¬(a = 0 ∧ b = 0))
    (hread : ∀ more, Head.read (start ++ more) = Head.judge size id type body a b) :
    (id = RequestId.terminator → decoder.DropsAt handler chunks start.length) ∧
      (id ≠ RequestId.terminator → decoder.Keeps handler chunks) := by
  rw [← hcut] at hwait
  constructor
  · intro hid
    obtain ⟨k, fed, hawaits, hfollows⟩ := exists_awaits hquiet hempty hstall hpos
      (by rw [hcut, List.length_append]; omega) hwait
    obtain ⟨more, hmore⟩ := exists_flatten_take_eq_append hcut hawaits.within
    have hmalformed : Head.read (chunks.take (k + 1)).flatten = .malformed a b := by
      rw [hmore, hread, Head.judge, if_neg hbad, if_pos hid]
    have hdrain := drain_of_malformed hquiet hmalformed
    refine ⟨k, fed, hawaits, ?_, ?_, ?_⟩
    · rw [hfollows.outcome, hdrain]
      rfl
    · rw [hfollows.discards, hdrain]
      rfl
    · rw [hfollows.pending, hdrain]
  · intro hid
    refine keeps_of_isWait hstall fun front hfront ↦ ?_
    rw [hempty, List.nil_append]
    by_cases hlt : front.length < start.length
    · exact hwait front hfront hlt
    · obtain ⟨more, rfl⟩ := List.prefix_of_prefix_length_le
        (hcut ▸ List.prefix_append start following) hfront (Nat.le_of_not_lt hlt)
      rw [hread, Head.judge, if_neg hbad, if_neg hid]
      rfl

/-! ### Replies -/

/-- **A reply that ends in two bytes that are not both zero.** -/
theorem feedAll_endingIn (config : Config) {handler : DiscardHandler}
    (hquiet : handler.raised? = none) {reply : Reply} {first second : UInt8}
    (hbad : ¬(first = 0 ∧ second = 0)) {bytes following : Bytes} {chunks : List Bytes}
    (hencode : (reply.endingIn first second).encode? = some bytes)
    (hcut : chunks.flatten = bytes ++ following)
    (hstall : ∀ fed ∈ (fresh config).feedAll handler chunks, fed.stalls = false) :
    (first = 0 ∨ second ≠ 0 →
        (reply.id = RequestId.terminator →
            (fresh config).DropsAt handler chunks bytes.length) ∧
          (reply.id ≠ RequestId.terminator → (fresh config).Keeps handler chunks)) ∧
      (first ≠ 0 → second = 0 →
        (following = [] → (fresh config).Keeps handler chunks) ∧
          (∀ next more, following = next :: more → next ≠ 0 →
            (reply.id = RequestId.terminator →
                (fresh config).DropsAt handler chunks (bytes.length + 1)) ∧
              (reply.id ≠ RequestId.terminator → (fresh config).Keeps handler chunks)) ∧
          (∀ more, following = 0 :: more →
            (fresh config).CompletesAt handler chunks (bytes.length + 1)
              (reply.responseWith first))) := by
  -- What is written for the reply is its bytes, and its size fits.
  obtain ⟨hsize, rfl⟩ := Reply.eq_bytesEndingIn_of_encode? hencode
  have hlength := reply.length_bytesEndingIn first second
  have hpos : 0 < (reply.bytesEndingIn first second).length := by
    rw [hlength, Reply.length, Protocol.minFrameBytes]
    omega
  have hwait : ∀ front, front <+: reply.bytesEndingIn first second ++ following →
      front.length < (reply.bytesEndingIn first second).length →
      (Head.read front).isWait = true := by
    rw [hlength]
    exact fun front hfront hlt ↦ reply.isWait_of_length_lt hsize hfront hlt
  refine ⟨fun hends ↦ ?_, fun hfirst hsecond ↦ ?_⟩
  · obtain ⟨body, a, b, hbad', hread⟩ := reply.exists_read_eq_judge hsize hbad hends
    exact dropsAt_and_keeps_of_read hquiet rfl hstall hcut hpos hwait hbad' hread
  · subst hsecond
    have hlate : ∀ front, front <+: reply.bytesEndingIn first 0 ++ following →
        front.length < (reply.bytesEndingIn first 0).length + 1 →
        (Head.read front).isWait = true := by
      rw [hlength]
      exact fun front hfront hlt ↦ reply.isWait_of_length_le hsize hfirst hfront (by omega)
    have hread := (reply.read_of_second_eq_zero hsize hfirst).2
    -- The byte behind the frame takes the place of its last.
    have hlonger : ∀ next, (reply.bytesEndingIn first 0 ++ [next]).length =
        (reply.bytesEndingIn first 0).length + 1 := fun _ ↦ List.length_append
    refine ⟨?_, ?_, ?_⟩
    · rintro rfl
      refine keeps_of_isWait hstall fun front hfront ↦ hlate front (hcut ▸ hfront) ?_
      have hle := hfront.length_le
      rw [hcut, List.append_nil] at hle
      omega
    · rintro next more rfl hne
      rw [List.append_cons] at hcut hlate
      rw [← hlonger next] at hlate ⊢
      exact dropsAt_and_keeps_of_read hquiet rfl hstall hcut (by rw [hlonger]; omega) hlate
        (fun h ↦ hne h.2) (hread next)
    · rintro more rfl
      rw [List.append_cons] at hcut hlate
      rw [← hlonger 0] at hlate ⊢
      rw [← reply.response_frame_append first]
      refine completesAt_of_read hquiet rfl hstall hcut (by rw [hlonger]; omega) hlate fun more ↦ ?_
      rw [hread 0 more, Head.judge, if_pos ⟨rfl, rfl⟩]
      rfl

/-- The end of a split response with two bytes that are no zeros, cut within its id and between
them, is dropped with what is fed along with its last byte. -/
theorem feedAll_endingIn_of_terminator :
    (fresh .default).DropsAt .returns
      [[10, 0, 0, 0, 0xE7], [], [3, 0, 0, 0, 0, 0, 0, 0x41], [0x42, 12, 0]] 14 :=
  ((@feedAll_endingIn .default .returns (by decide) { id := 999 } 0x41 0x42 (by decide)
    [10, 0, 0, 0, 0xE7, 3, 0, 0, 0, 0, 0, 0, 0x41, 0x42] [12, 0] _ (by decide +kernel) rfl
    (by decide +kernel)).1 (.inr (by decide))).1 rfl

/-- With a zero second and another zero behind it, the end of a split response is not dropped: it is
returned as a frame with one letter in its body. -/
theorem not_forall_endingIn_dropsAt :
    ¬∀ (config : Config) (handler : DiscardHandler) (reply : Reply) (first second : UInt8)
        (bytes following : Bytes) (chunks : List Bytes),
      handler.raised? = none → ¬(first = 0 ∧ second = 0) →
      (reply.endingIn first second).encode? = some bytes → chunks.flatten = bytes ++ following →
      (∀ fed ∈ (fresh config).feedAll handler chunks, fed.stalls = false) →
      (reply.id = RequestId.terminator →
          (fresh config).DropsAt handler chunks bytes.length) ∧
        (reply.id ≠ RequestId.terminator → (fresh config).Keeps handler chunks) := by
  intro h
  obtain ⟨k, fed, hawaits, -, hdrop, -⟩ :=
    (h .default .returns { id := 999 } 0x41 0 [10, 0, 0, 0, 0xE7, 3, 0, 0, 0, 0, 0, 0, 0x41, 0] [0]
      [[10, 0, 0, 0, 0xE7, 3, 0, 0, 0, 0, 0, 0, 0x41, 0, 0]] (by decide) (by decide)
      (by decide +kernel) rfl (by decide +kernel)).1 rfl
  have hnone : ∀ fed ∈ (fresh .default).feedAll .returns
      [[10, 0, 0, 0, 0xE7, 3, 0, 0, 0, 0, 0, 0, 0x41, 0, 0]], fed.discards = [] := by
    decide +kernel
  rw [hnone fed (List.mem_of_getElem? hawaits.feed)] at hdrop
  cases hdrop

end Decoder

end Rcon
