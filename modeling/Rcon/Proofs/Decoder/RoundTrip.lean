import Mathlib.Data.List.Forall2
import Rcon.Proofs.Decoder.Chunking
import Rcon.Proofs.Frame.Reply

/-!
# Frames that are written and fed come back

The frames of replies are written one behind the other and fed in any chunks: in the middle of a
number, of a character, between the two last bytes. After each chunk the responses so far are those
of the replies that have arrived whole, and what is pending is the front of the next
(`feedAll_encoded`).

The statement is one about a front of the written bytes (`drain_take_encoded`): a run of attempts on
it completes the frames that are whole in it and waits in the next. A front of a frame is shorter
than the frame, so a limit one below its length is never passed, and no feed stalls.
-/

namespace Rcon

namespace Reply

variable {reply : Reply} (handler : DiscardHandler)

/-- A run on a reply that is written goes on behind it. -/
theorem drain_bytesEndingIn_append (hsize : Bytes.isInt32 reply.size = true) (more : Bytes) :
    drain handler (reply.bytesEndingIn 0 0 ++ more) =
      (drain handler more).after
        ⟨(reply.bytesEndingIn 0 0 ++ more).length, .frame reply.frame⟩ := by
  rw [drain_of_frame (reply.read_append hsize more), length_frame,
    List.drop_left' (reply.length_bytesEndingIn 0 0)]

/-- A run on a front of a reply that is written leaves the front as it is. -/
theorem drain_take_of_lt (hsize : Bytes.isInt32 reply.size = true) (more : Bytes) {n : Nat}
    (hn : n < reply.length) :
    (drain handler ((reply.bytesEndingIn 0 0 ++ more).take n)).frames = [] ∧
      (drain handler ((reply.bytesEndingIn 0 0 ++ more).take n)).discards = [] ∧
      (drain handler ((reply.bytesEndingIn 0 0 ++ more).take n)).rest =
        (reply.bytesEndingIn 0 0 ++ more).take n := by
  have hwait : (Head.read ((reply.bytesEndingIn 0 0 ++ more).take n)).isWait = true := by
    refine reply.isWait_of_length_lt hsize (List.take_prefix n _) ?_
    exact Nat.lt_of_le_of_lt (List.length_take_le n _) hn
  exact ⟨frames_drain_of_isWait hwait, discards_drain_of_isWait hwait, rest_drain_of_isWait hwait⟩

end Reply

/-- **A front of written frames** gives those that are whole in it, drops nothing, and waits in the
next. -/
theorem drain_take_encoded (handler : DiscardHandler) {limit : Nat} {replies : List Reply}
    {encodings : List Bytes}
    (hencode : List.Forall₂ (fun reply bytes ↦ reply.spec.encode? = some bytes) replies encodings)
    (hlimit : ∀ bytes ∈ encodings, bytes.length ≤ limit + 1) (n : Nat) :
    (drain handler (encodings.flatten.take n)).frames = (Reply.arrived n replies).map Reply.frame ∧
      (drain handler (encodings.flatten.take n)).discards = [] ∧
      (drain handler (encodings.flatten.take n)).rest.length +
          Reply.totalLength (Reply.arrived n replies) = (encodings.flatten.take n).length ∧
      (drain handler (encodings.flatten.take n)).rest.length ≤ limit := by
  induction hencode generalizing n with
  | nil =>
    rw [List.flatten_nil, List.take_nil, drain_nil]
    exact ⟨rfl, rfl, rfl, Nat.zero_le limit⟩
  | @cons reply bytes replies encodings hreply hreplies ih =>
    obtain ⟨hsize, rfl⟩ := @Reply.eq_bytesEndingIn_of_encode? reply 0 0 bytes hreply
    have hlength := reply.length_bytesEndingIn 0 0
    rw [List.flatten_cons]
    by_cases hwhole : reply.length ≤ n
    · obtain ⟨hframes, hdiscards, hrest, hle⟩ := ih
        (fun bytes hbytes ↦ hlimit bytes (List.mem_cons_of_mem _ hbytes)) (n - reply.length)
      have htake : (reply.bytesEndingIn 0 0 ++ encodings.flatten).take n =
          reply.bytesEndingIn 0 0 ++ encodings.flatten.take (n - reply.length) := by
        rw [List.take_append, List.take_of_length_le (by omega), hlength]
      rw [htake, Reply.drain_bytesEndingIn_append handler hsize, Reply.arrived, if_pos hwhole]
      refine ⟨?_, hdiscards, ?_, hle⟩
      · rw [Drain.frames_after_frame, hframes, List.map_cons]
      · rw [Drain.rest_after, Reply.totalLength, List.length_append, hlength]
        omega
    · -- The front ends before the reply does.
      obtain ⟨hframes, hdiscards, hrest⟩ :=
        Reply.drain_take_of_lt handler hsize encodings.flatten (Nat.lt_of_not_le hwhole)
      rw [hframes, hdiscards, hrest, Reply.arrived, if_neg hwhole]
      refine ⟨rfl, rfl, rfl, Nat.le_trans (List.length_take_le n _) ?_⟩
      have hle := hlimit _ List.mem_cons_self
      omega

theorem drain_front_encoded (handler : DiscardHandler) {limit : Nat} {replies : List Reply}
    {encodings : List Bytes} {front : Bytes}
    (hencode : List.Forall₂ (fun reply bytes ↦ reply.spec.encode? = some bytes) replies encodings)
    (hlimit : ∀ bytes ∈ encodings, bytes.length ≤ limit + 1)
    (hfront : front <+: encodings.flatten) :
    (drain handler front).frames = (Reply.arrived front.length replies).map Reply.frame ∧
      (drain handler front).discards = [] ∧
      (drain handler front).rest.length +
          Reply.totalLength (Reply.arrived front.length replies) = front.length ∧
      (drain handler front).rest.length ≤ limit := by
  have htake := drain_take_encoded handler hencode hlimit front.length
  rwa [← List.prefix_iff_eq_take.1 hfront] at htake

namespace Decoder

/-- **Frames that are written and fed in any chunks come back.** No feed drops bytes or fails, and
after each the responses so far are those of the replies that have arrived whole; what is pending
are the bytes fed behind these. -/
theorem feedAll_encoded (config : Config) (handler : DiscardHandler) {replies : List Reply}
    {encodings chunks : List Bytes}
    (hencode : List.Forall₂ (fun reply bytes ↦ reply.spec.encode? = some bytes) replies encodings)
    (hlimit : ∀ bytes ∈ encodings, bytes.length ≤ config.maxPendingBytes + 1)
    (hcut : chunks.flatten = encodings.flatten) :
    (∀ fed ∈ (fresh config).feedAll handler chunks,
        fed.discards = [] ∧ fed.outcome = .ok fed.responses) ∧
      ∀ k : Nat,
        let run := ((fresh config).feedAll handler chunks).take k
        let arrived := Reply.arrived (chunks.take k).flatten.length replies
        run.flatMap Feed.responses = arrived.map Reply.response ∧
          ((fresh config).atEnd run).pending.length + Reply.totalLength arrived =
            (chunks.take k).flatten.length := by
  have hwait := isWait_fresh config
  -- Every front of the chunks is a front of the written frames.
  have hfront : ∀ front, front <+: chunks.flatten → front <+: encodings.flatten :=
    fun front hfront ↦ hcut ▸ hfront
  have hcalm : ∀ fed ∈ (fresh config).feedAll handler chunks, fed.stalls = false := by
    refine stalls_eq_false_of_rest_le hwait fun front hprefix ↦ ?_
    obtain ⟨-, hdiscards, -, hle⟩ :=
      drain_front_encoded handler hencode hlimit (hfront front hprefix)
    exact ⟨hdiscards, hle⟩
  -- What holds after the first chunks holds of a run of all of them.
  have hafter : ∀ k : Nat,
      (∀ fed ∈ (fresh config).feedAll handler (chunks.take k),
          fed.discards = [] ∧ fed.outcome = .ok fed.responses) ∧
        ((fresh config).feedAll handler (chunks.take k)).flatMap Feed.responses =
          (Reply.arrived (chunks.take k).flatten.length replies).map Reply.response ∧
        ((fresh config).atEnd ((fresh config).feedAll handler (chunks.take k))).pending.length +
            Reply.totalLength (Reply.arrived (chunks.take k).flatten.length replies) =
          (chunks.take k).flatten.length := by
    intro k
    obtain ⟨hframes, hdiscards, hrest, -⟩ :=
      drain_front_encoded handler hencode hlimit (hfront _ (isPrefix_flatten_take k chunks))
    obtain ⟨hquiet, hresponses, hpending⟩ :=
      feedAll_of_discards_eq_nil hwait (forall_mem_feedAll_take hcalm k) hdiscards
    refine ⟨hquiet, ?_, ?_⟩
    · rw [hresponses, show (fresh config).pending = [] from rfl, List.nil_append, hframes,
        List.map_map]
      exact List.map_congr_left fun reply _ ↦ reply.response_frame
    · rw [hpending]
      exact hrest
  refine ⟨?_, fun k ↦ ?_⟩
  · have hall := (hafter chunks.length).1
    rwa [List.take_length] at hall
  · rw [← feedAll_take]
    exact (hafter k).2

/-- Two frames, the longer of them one byte beyond the limit, cut within the size, within a
character and between the last two bytes. -/
theorem feedAll_encoded_of_limit :
    let config : Config := ⟨16, .throw, 30, by decide⟩
    let replies : List Reply :=
      [{ id := 100000001, body := "hé" }, { id := 999, type := .authentication, body := " " }]
    let first : Bytes := [13, 0, 0, 0, 1, 0xE1, 0xF5, 5, 0, 0, 0, 0, 0x68, 0xC3, 0xA9, 0, 0]
    let second : Bytes := [11, 0, 0, 0, 0xE7, 3, 0, 0, 2, 0, 0, 0, 0x20, 0, 0]
    let chunks : List Bytes :=
      [first.take 2, [], (first.drop 2).take 12, first.drop 14 ++ second.take 14, second.drop 14]
    (∀ fed ∈ (fresh config).feedAll .returns chunks,
        fed.discards = [] ∧ fed.outcome = .ok fed.responses) ∧
      ∀ k : Nat,
        let run := ((fresh config).feedAll .returns chunks).take k
        let arrived := Reply.arrived (chunks.take k).flatten.length replies
        run.flatMap Feed.responses = arrived.map Reply.response ∧
          ((fresh config).atEnd run).pending.length + Reply.totalLength arrived =
            (chunks.take k).flatten.length :=
  @feedAll_encoded ⟨16, .throw, 30, by decide⟩ .returns _
    [[13, 0, 0, 0, 1, 0xE1, 0xF5, 5, 0, 0, 0, 0, 0x68, 0xC3, 0xA9, 0, 0],
      [11, 0, 0, 0, 0xE7, 3, 0, 0, 2, 0, 0, 0, 0x20, 0, 0]] _
    (.cons (by decide +kernel) (.cons (by decide +kernel) .nil)) (by decide) (by decide)

end Decoder

end Rcon
