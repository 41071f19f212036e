import Mathlib.Algebra.GroupWithZero.Nat
import Rcon.Proofs.Decoder.Partition

/-!
# When bytes are dropped

A feed drops bytes for one reason at most, and what it drops is all that is left. `Feed.Settles`
says which reason applies when, by the number of bytes that are buffered with the chunk:

* a malformed packet drops what the frames in front of it leave, and they are returned;
* a stall, be it a discard or an error, comes of a feed that **completes no frame and drops no
  malformed packet** while more is buffered than allowed (`Feed.Overruns`), and of no other.

The second is the question that decides a feed (`Decoder.Overflows`), asked of what the feed shows
(`Feeds.overruns_iff`).
-/

namespace Rcon

/-! ### Lengths -/

theorem Segment.total_eq_sum (segments : List Segment) :
    total segments = (segments.map Segment.length).sum := by
  induction segments with
  | nil => rfl
  | cons segment rest ih => rw [total, ih, List.map_cons, List.sum_cons]

theorem Segment.total_ofTaken (frames : List Frame) (discards : List Discard) :
    total (ofTaken frames discards) =
      (frames.map Frame.length).sum + (discards.map Discard.bytes).sum := by
  rw [total_eq_sum, ofTaken, List.map_append, List.sum_append, List.map_map, List.map_map]
  rfl

/-! ### Runs of attempts -/

/-- **A run that drops something ends with it**, where a whole frame could stand. -/
theorem exists_attempts_of_discards_ne_nil {handler : DiscardHandler} {bytes : Bytes}
    (hquiet : handler.raised? = none) (hdrop : (drain handler bytes).discards ≠ []) :
    ∃ earlier n first second,
      (drain handler bytes).attempts = earlier ++ [⟨n, .malformed first second⟩, ⟨0, .short⟩] ∧
        (drain handler bytes).discards = [⟨.malformedTerminator, n⟩] ∧ 14 ≤ n := by
  fun_induction drain handler bytes with
  | case1 bytes frame hread ih =>
    obtain ⟨earlier, n, first, second, hattempts, hdiscards, hle⟩ := ih hdrop
    refine ⟨⟨bytes.length, .frame frame⟩ :: earlier, n, first, second, ?_, hdiscards, hle⟩
    rw [Drain.after, hattempts]
    rfl
  | case2 bytes first second hread what hraised =>
    rw [hquiet] at hraised
    cases hraised
  | case3 bytes first second hread hraised ih =>
    rw [drain_nil]
    exact ⟨[], bytes.length, first, second, rfl, rfl, Head.minFrameBytes_le_of_read hread⟩
  | case4 bytes why hread => exact absurd rfl hdrop
  | case5 bytes hread => exact absurd rfl hdrop

/-! ### One feed -/

namespace Feed

/-- Does a feed complete no frame and drop no malformed packet, with more than the limit
buffered? -/
def Overruns (config : Config) (n : Nat) (fed : Feed) : Prop :=
  fed.frames = [] ∧ fed.dropsMalformed = false ∧ config.maxPendingBytes < n

/-- What a feed drops and how it ends, when `n` bytes are buffered with the chunk. -/
structure Settles (config : Config) (n : Nat) (fed : Feed) : Prop where
  /-- There is one discard at most. -/
  length_discards_le : fed.discards.length ≤ 1
  /-- A malformed packet drops what the frames in front of it leave, which is as much as any frame
  has. They are returned, and nothing stalls. -/
  malformed : ∀ bytes, ⟨.malformedTerminator, bytes⟩ ∈ fed.discards →
    14 ≤ bytes ∧ (fed.frames.map Frame.length).sum + bytes = n ∧
      (∃ earlier first second,
        fed.attempts = earlier ++ [⟨bytes, .malformed first second⟩, ⟨0, .short⟩]) ∧
      fed.outcome = .ok (fed.frames.map Frame.response) ∧ fed.stalls = false
  /-- All bytes are dropped for having stalled just if that is the policy and they overrun. -/
  stalled_iff : ∀ bytes, ⟨.stalled, bytes⟩ ∈ fed.discards ↔
    config.stallPolicy = .discard ∧ fed.Overruns config n ∧ bytes = n
  /-- The feed ends in a stall, which tells of all bytes, just if that is the policy and they
  overrun. -/
  raises_iff : ∀ stall, fed.outcome = .error (.stall stall) ↔
    config.stallPolicy = .throw ∧ fed.Overruns config n ∧ stall = ⟨n, config.maxPendingBytes⟩
  /-- A feed that returns without a frame leaves no more than the limit. -/
  length_pending_le : ∀ responses, fed.outcome = .ok responses → fed.frames = [] →
    fed.decoder.pending.length ≤ config.maxPendingBytes

end Feed

namespace Decoder

variable {decoder : Decoder} {handler : DiscardHandler} {chunk : Bytes} {fed : Feed}

/-- **A feed overruns just if its run overflows.** -/
theorem Feeds.overruns_iff (h : Feeds decoder handler chunk fed) (hchunk : chunk ≠ []) :
    fed.Overruns decoder.config (decoder.pending ++ chunk).length ↔
      decoder.Overflows handler chunk := by
  -- A run drops malformed packets only.
  have hrun : (decoder.runOn handler chunk).discards.any
      (fun discard ↦ discard.reason = .malformedTerminator) = false ↔
        (decoder.runOn handler chunk).discards = [] := by
    rcases discards_drain_cases handler (decoder.pending ++ chunk) with ⟨hnone, -⟩ | ⟨n, hone, -⟩
    · rw [runOn, hnone]
      exact iff_of_true rfl rfl
    · rw [runOn, hone]
      exact iff_of_false (by simp) (List.cons_ne_nil _ _)
  cases h with
  | idle hempty => exact absurd hempty hchunk
  | calm _ hcalm =>
    rw [overflows_iff, ← hrun]
    exact Iff.rfl
  | stalling _ hpolicy hover =>
    rw [overflows_iff, ← hrun]
    exact Iff.rfl
  | dropping _ hpolicy hover => exact iff_of_true ⟨hover.1, rfl, hover.lt_length⟩ hover

/-- What is dropped for a malformed packet the run has dropped, and nothing is done about it after
the run. -/
theorem Feeds.eq_feedEnding_of_mem {bytes : Nat} (h : Feeds decoder handler chunk fed)
    (hmem : ⟨.malformedTerminator, bytes⟩ ∈ fed.discards) :
    fed = decoder.feedEnding handler chunk (decoder.runOn handler chunk).outcome := by
  cases h with
  | idle hempty => exact absurd hmem List.not_mem_nil
  | calm _ hcalm => rfl
  | stalling _ hpolicy hover =>
    rw [feedEnding, hover.discards_eq] at hmem
    exact absurd hmem List.not_mem_nil
  | dropping _ hpolicy hover => cases List.eq_of_mem_singleton hmem

/-- **A malformed packet drops what the frames in front of it leave.** -/
theorem Feeds.bytes_of_mem {bytes : Nat} (h : Feeds decoder handler chunk fed)
    (hquiet : handler.raised? = none) (hmem : ⟨.malformedTerminator, bytes⟩ ∈ fed.discards) :
    14 ≤ bytes ∧
      (fed.frames.map Frame.length).sum + bytes = (decoder.pending ++ chunk).length ∧
      ∃ earlier first second,
        fed.attempts = earlier ++ [⟨bytes, .malformed first second⟩, ⟨0, .short⟩] := by
  obtain ⟨hreset, -⟩ := h.eq_of_discards_ne_nil (List.ne_nil_of_mem hmem)
  obtain rfl := h.eq_feedEnding_of_mem hmem
  obtain ⟨earlier, n, first, second, hattempts, hdiscards, hle⟩ :=
    exists_attempts_of_discards_ne_nil hquiet (List.ne_nil_of_mem hmem)
  rw [feedEnding, runOn, hdiscards] at hmem
  obtain rfl : bytes = n := congrArg Discard.bytes (List.eq_of_mem_singleton hmem)
  refine ⟨hle, ?_, earlier, first, second, hattempts⟩
  -- The frames and the one discard are all the bytes, for none is left.
  have hrest : (drain handler (decoder.pending ++ chunk)).rest = [] := congrArg pending hreset
  have hlen := (cuts_drain handler (decoder.pending ++ chunk)).length_eq
  rw [Segment.total_ofTaken, hdiscards, hrest] at hlen
  exact hlen.symm

/-- What is dropped for having stalled is dropped by no run. -/
theorem Feeds.mem_stalled_iff {bytes : Nat} (h : Feeds decoder handler chunk fed)
    (hchunk : chunk ≠ []) :
    ⟨.stalled, bytes⟩ ∈ fed.discards ↔
      decoder.config.stallPolicy = .discard ∧ decoder.Overflows handler chunk ∧
        bytes = (decoder.pending ++ chunk).length := by
  have hrun : ⟨.stalled, bytes⟩ ∉ (decoder.runOn handler chunk).discards := by
    rcases discards_drain_cases handler (decoder.pending ++ chunk) with ⟨hnone, -⟩ | ⟨n, hone, -⟩
    · rw [runOn, hnone]
      exact List.not_mem_nil
    · intro hmem
      rw [runOn, hone] at hmem
      cases List.eq_of_mem_singleton hmem
  cases h with
  | idle hempty => exact absurd hempty hchunk
  | calm _ hcalm => exact iff_of_false hrun fun hstalled ↦ hcalm hstalled.2.1
  | stalling _ hpolicy hover =>
    refine iff_of_false hrun fun hstalled ↦ ?_
    cases hpolicy.symm.trans hstalled.1
  | dropping _ hpolicy hover =>
    constructor
    · exact fun hmem ↦ ⟨hpolicy, hover, congrArg Discard.bytes (List.mem_singleton.1 hmem)⟩
    · rintro ⟨-, -, rfl⟩
      exact List.mem_singleton_self _

/-- **A feed ends in a stall just if it overflows and that is an error.** -/
theorem Feeds.outcome_eq_stall_iff {stall : Stall} (h : Feeds decoder handler chunk fed)
    (hchunk : chunk ≠ []) :
    fed.outcome = .error (.stall stall) ↔
      decoder.config.stallPolicy = .throw ∧ decoder.Overflows handler chunk ∧
        stall = ⟨(decoder.pending ++ chunk).length, decoder.config.maxPendingBytes⟩ := by
  cases h with
  | idle hempty => exact absurd hempty hchunk
  | calm _ hcalm =>
    exact iff_of_false (Drain.outcome_ne_stall _ stall) fun hstalled ↦ hcalm hstalled.2.1
  | stalling _ hpolicy hover =>
    constructor
    · intro hraises
      cases hraises
      exact ⟨hpolicy, hover, rfl⟩
    · rintro ⟨-, -, rfl⟩
      rfl
  | dropping _ hpolicy hover =>
    exact iff_of_false (handler.outcome_ne_stall stall) fun hstalled ↦
      nomatch hpolicy.symm.trans hstalled.1

/-- A feed that returns without a frame leaves no more than the limit. -/
theorem Feeds.length_pending_le {responses : List Response}
    (h : Feeds decoder handler chunk fed) (hchunk : chunk ≠ [])
    (hreturns : fed.outcome = .ok responses) (hframes : fed.frames = []) :
    fed.decoder.pending.length ≤ decoder.config.maxPendingBytes := by
  cases h with
  | idle hempty => exact absurd hempty hchunk
  | calm _ hcalm => exact Nat.not_lt.1 fun hlimit ↦ hcalm ⟨hframes, hlimit⟩
  | stalling _ hpolicy hover => exact nomatch hreturns
  | dropping _ hpolicy hover => exact Nat.zero_le _

/-- **A feed settles what it was fed.** -/
theorem Feeds.settles (h : Feeds decoder handler chunk fed) (hquiet : handler.raised? = none)
    (hchunk : chunk ≠ []) :
    fed.Settles decoder.config (decoder.pending.length + chunk.length) := by
  rw [← List.length_append]
  refine
    { length_discards_le := ?_
      malformed := fun bytes hmem ↦ ?_
      stalled_iff := fun bytes ↦ ?_
      raises_iff := fun stall ↦ ?_
      length_pending_le := fun responses ↦ h.length_pending_le hchunk }
  · rcases h.discards_cases with ⟨hnone, -⟩ | ⟨discard, hone⟩
    · rw [hnone]
      exact Nat.zero_le 1
    · rw [hone]
      exact Nat.le_refl 1
  · obtain ⟨hle, hsum, hattempts⟩ := h.bytes_of_mem hquiet hmem
    have houtcome := (h.eq_of_discards_ne_nil (List.ne_nil_of_mem hmem)).2
    rw [hquiet] at houtcome
    refine ⟨hle, hsum, hattempts, houtcome, ?_⟩
    -- The one discard there is tells of the packet.
    have hone : fed.discards = [⟨.malformedTerminator, bytes⟩] := by
      rcases h.discards_cases with ⟨hnone, -⟩ | ⟨discard, hone⟩
      · rw [hnone] at hmem
        exact absurd hmem List.not_mem_nil
      · rw [hone] at hmem
        rw [hone, List.eq_of_mem_singleton hmem]
    rw [Feed.stalls, hone, houtcome]
    rfl
  · rw [h.mem_stalled_iff hchunk, h.overruns_iff hchunk]
  · rw [h.outcome_eq_stall_iff hchunk, h.overruns_iff hchunk]

/-- **Discards and stalls happen just when they should**, whatever the decoder has done before. -/
theorem settles_feed (config : Config) (turns : List Turn)
    (hquiet : handler.raised? = none) (hchunk : chunk ≠ []) :
    let decoder := (fresh config).after turns
    (decoder.feed handler chunk).Settles config (decoder.pending.length + chunk.length) := by
  intro decoder
  have hsettles := (feeds decoder handler chunk).settles hquiet hchunk
  rwa [config_after] at hsettles

/-- A frame that was cut in two, and behind it the malformed end of a split response and one more
byte. -/
theorem settles_feed_behind_frame :
    let packet := Packet.bytes ⟨10, -1, 2, [], 0, 0⟩
    let decoder := (fresh .default).after [⟨.feed (packet.take 5), .absent⟩]
    let chunk := packet.drop 5 ++ Packet.bytes ⟨10, 999, 0, [], 0, 1⟩ ++ [7]
    DiscardHandler.returns.raised? = none ∧ chunk ≠ [] ∧
      (decoder.feed .returns chunk).frames = [⟨10, -1, .authentication, []⟩] ∧
      (decoder.feed .returns chunk).discards = [⟨.malformedTerminator, 15⟩] ∧
      (decoder.feed .returns chunk).Settles .default (decoder.pending.length + chunk.length) := by
  intro packet decoder chunk
  have hchunk : chunk ≠ [] := by decide
  exact ⟨rfl, hchunk, by decide +kernel, by decide +kernel,
    settles_feed .default [⟨.feed (packet.take 5), .absent⟩] rfl hchunk⟩

end Decoder

end Rcon
