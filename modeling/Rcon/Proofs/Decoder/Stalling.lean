import Rcon.Proofs.Decoder.Partition

/-!
# A stall that is an error

With the policy that makes an error of it, a stall changes nothing: the error says how many bytes
are pending and how many are allowed, and the decoder goes on as if there were no limit.

`Observes` compares two feeds, of a decoder with a limit and of one that has room for all that it
is fed. **The two decoders agree turn by turn** (`Agrees.after`), since the one with room never
overflows, and for the other an overflow only means that the feed ends otherwise
(`feed_of_overflows_of_throw`). So a frame that has stalled is completed by the same chunk that
completes it without a limit.
-/

namespace Rcon.Decoder

/-- What a turn does to a decoder with a limit, beside what it does to one that has room. -/
structure Observes (limit : Nat) (turn : Turn) (limited free : Feed) : Prop where
  /-- The decoders agree afterwards. -/
  agrees : limited.decoder.Agrees free.decoder
  /-- The same bytes are dropped. -/
  discards : limited.discards = free.discards
  /-- The first stalls just if something was fed that completed no frame, nothing was raised, and
  more bytes are pending than allowed. -/
  stalls_iff : (∃ stall, limited.outcome = .error (.stall stall)) ↔
    turn.operation.bytes ≠ [] ∧ limited.frames = [] ∧
      (∀ what, limited.outcome ≠ .error (.raised what)) ∧
      limit < limited.decoder.pending.length
  /-- The error of a stall says how much is pending, and the second returns no response then. -/
  stall_eq : ∀ stall, limited.outcome = .error (.stall stall) →
    stall = ⟨limited.decoder.pending.length, limit⟩ ∧ free.outcome = .ok []
  /-- Without a stall both end alike. -/
  outcome_eq : (∀ stall, limited.outcome ≠ .error (.stall stall)) → limited.outcome = free.outcome

theorem Observes.of_outcome_eq {limit : Nat} {turn : Turn} {limited free : Feed}
    (hagrees : limited.decoder.Agrees free.decoder) (hdiscards : limited.discards = free.discards)
    (houtcome : limited.outcome = free.outcome)
    (hcalm : ∀ stall, limited.outcome ≠ .error (.stall stall))
    (hwithin : turn.operation.bytes ≠ [] → limited.frames = [] →
      limited.decoder.pending.length ≤ limit) :
    Observes limit turn limited free where
  agrees := hagrees
  discards := hdiscards
  stalls_iff := by
    constructor
    · rintro ⟨stall, hstall⟩
      exact absurd hstall (hcalm stall)
    · rintro ⟨hbytes, hframes, -, hlimit⟩
      exact absurd (hwithin hbytes hframes) (Nat.not_le.2 hlimit)
  stall_eq stall hstall := absurd hstall (hcalm stall)
  outcome_eq _ := houtcome

variable {limited free : Decoder}

/-- **A feed does what it does to a decoder that has room**, but for the error of a stall. -/
theorem observes_feed (h : limited.Agrees free) (hpolicy : limited.config.stallPolicy = .throw)
    (handler : DiscardHandler) (chunk : Bytes)
    (hroom : (free.pending ++ chunk).length ≤ free.config.maxPendingBytes) :
    Observes limited.config.maxPendingBytes ⟨.feed chunk, handler⟩ (limited.feed handler chunk)
      (free.feed handler chunk) := by
  have hcalm : ¬free.Overflows handler chunk := not_overflows_of_length_le hroom
  have hdiscards := congrArg Drain.discards (h.runOn_eq handler chunk)
  have houtcome := congrArg Drain.outcome (h.runOn_eq handler chunk)
  have hfeeds := feeds limited handler chunk
  generalize limited.feed handler chunk = fed at hfeeds ⊢
  cases hfeeds with
  | idle hchunk =>
    subst hchunk
    exact .of_outcome_eq h rfl rfl (fun stall hstall ↦ nomatch hstall)
      (fun hbytes ↦ absurd rfl hbytes)
  | calm hchunk hwithin =>
    rw [feed_of_not_overflows hchunk hcalm]
    refine .of_outcome_eq (h.feedEnding handler chunk _ _) hdiscards houtcome
      (Drain.outcome_ne_stall _) fun _ hnone ↦ ?_
    exact Nat.le_of_not_lt fun hlimit ↦ hwithin ⟨hnone, hlimit⟩
  | stalling hchunk _ hover =>
    -- The feed ends in the error, and but for that it is the other.
    rw [feed_of_not_overflows hchunk hcalm]
    refine ⟨h.feedEnding handler chunk _ _, hdiscards, ⟨fun _ ↦ ⟨hchunk, hover.1, ?_, hover.2⟩, ?_⟩,
      ?_, ?_⟩
    · exact fun what hwhat ↦ nomatch hwhat
    · exact fun _ ↦ ⟨_, rfl⟩
    · rintro stall ⟨⟩
      refine ⟨?_, houtcome.symm.trans hover.outcome_eq⟩
      rw [← hover.rest_eq]
      rfl
    · exact fun hnone ↦ absurd rfl (hnone _)
  | dropping hchunk hdrops hover =>
    rw [hpolicy] at hdrops
    cases hdrops

theorem observes_perform (h : limited.Agrees free)
    (hpolicy : limited.config.stallPolicy = .throw) (turn : Turn)
    (hroom : (free.pending ++ turn.operation.bytes).length ≤ free.config.maxPendingBytes) :
    Observes limited.config.maxPendingBytes turn (limited.perform turn) (free.perform turn) := by
  obtain ⟨operation, handler⟩ := turn
  cases operation with
  | feed chunk => exact observes_feed h hpolicy handler chunk hroom
  | reset =>
    exact .of_outcome_eq ⟨rfl, rfl⟩ rfl rfl (fun stall hstall ↦ nomatch hstall)
      (fun hbytes ↦ absurd rfl hbytes)

/-- **A limit that is an error leaves the decoder as no limit does**, after any turns. -/
theorem Agrees.after (h : limited.Agrees free) (hpolicy : limited.config.stallPolicy = .throw)
    (turns : List Turn)
    (hroom : (free.pending ++ Turn.allBytes turns).length ≤ free.config.maxPendingBytes) :
    (limited.after turns).Agrees (free.after turns) := by
  induction turns generalizing limited free with
  | nil => exact h
  | cons turn rest ih =>
    rw [show Turn.allBytes (turn :: rest) = turn.operation.bytes ++ Turn.allBytes rest from rfl,
      ← List.append_assoc, List.length_append] at hroom
    have hperform := observes_perform h hpolicy turn (Nat.le_of_add_right_le hroom)
    -- What is pending afterwards is part of what there was before.
    have hpart := (cuts_perform free turn).suffix.length_le
    refine ih hperform.agrees ?_ ?_
    · rw [perform, config_step]
      exact hpolicy
    · rw [perform, config_step, List.length_append]
      exact Nat.le_trans (Nat.add_le_add_right hpart _) hroom

/-- **A stall that is an error is only observed**: whatever turns a decoder has taken, the next one
does to it what it does to a decoder that has room for all the bytes, but for the error. -/
theorem observes_perform_after {limited roomy : Config} (hpolicy : limited.stallPolicy = .throw)
    (turns : List Turn) (turn : Turn)
    (hroom : (Turn.allBytes (turns ++ [turn])).length ≤ roomy.maxPendingBytes) :
    Observes limited.maxPendingBytes turn (((fresh limited).after turns).perform turn)
      (((fresh roomy).after turns).perform turn) := by
  have hsplit : Turn.allBytes (turns ++ [turn]) = Turn.allBytes turns ++ turn.operation.bytes := by
    rw [Turn.allBytes, List.flatMap_append, List.flatMap_singleton, ← Turn.allBytes]
  rw [hsplit, List.length_append] at hroom
  have hfresh : (fresh limited).Agrees (fresh roomy) := ⟨rfl, rfl⟩
  have hagrees := hfresh.after hpolicy turns (Nat.le_of_add_right_le hroom)
  have hpart := (cuts_after (fresh roomy) turns).suffix.length_le
  have hnext := observes_perform hagrees
    (by rw [config_after]; exact hpolicy) turn
    (by
      rw [config_after, List.length_append]
      exact Nat.le_trans (Nat.add_le_add_right hpart _) hroom)
  rwa [config_after] at hnext

/-- A frame of twenty bytes that stalls at eighteen, where sixteen are allowed, and is completed by
the next chunk. -/
theorem observes_perform_after_stall :
    let limited : Config := ⟨16, .throw, 30, by decide⟩
    let roomy : Config := ⟨20, .throw, 30, by decide⟩
    let first : Turn :=
      ⟨.feed [16, 0, 0, 0, 1, 0xE1, 0xF5, 5, 0, 0, 0, 0, 115, 116, 97, 108, 108, 115], .absent⟩
    let last : Turn := ⟨.feed [0, 0], .absent⟩
    limited.stallPolicy = .throw ∧
      (Turn.allBytes ([first] ++ [last])).length ≤ roomy.maxPendingBytes ∧
      ((fresh limited).perform first).outcome = .error (.stall ⟨18, 16⟩) ∧
      Observes limited.maxPendingBytes last (((fresh limited).after [first]).perform last)
        (((fresh roomy).after [first]).perform last) ∧
      (((fresh limited).after [first]).perform last).frames =
        [⟨16, 100000001, .value, [115, 116, 97, 108, 108, 115]⟩] := by
  intro limited roomy first last
  have hover : (fresh limited).Overflows first.handler first.operation.bytes := by
    decide +kernel
  have hstall := congrArg Feed.outcome (feed_of_overflows_of_throw (by decide) rfl hover)
  exact ⟨rfl, by decide, hstall, observes_perform_after rfl [first] last (by decide),
    by decide +kernel⟩

end Rcon.Decoder
