import Rcon.Frame.Packet
import Rcon.Proofs.Decoder.Reader

/-!
# What the caller does about a discard

The decoder has let go of what it drops before it tells the caller. So what the caller then does
leaves no trace: **two callers leave the same decoder, with the same discards**, and without a
discard the feed ends alike for both (`Feed.Alike`, `alike_feed`).

What is raised is how a feed with a discard ends, and no other (`RaisesOnly`). Behind a discard the
decoder is a new one (`Feeds.eq_of_discards_ne_nil`), also where frames were completed in front of
it and are lost with what is raised.
-/

namespace Rcon

/-! ### Runs of attempts -/

/-- Two runs that take the same off and leave the same. -/
structure Drain.Alike (first second : Drain) : Prop where
  /-- The same frames are completed. -/
  frames : first.frames = second.frames
  /-- The same bytes are dropped. -/
  discards : first.discards = second.discards
  /-- The same bytes are left. -/
  rest : first.rest = second.rest

theorem Drain.Alike.after {first second : Drain} (h : first.Alike second) (attempt : Attempt) :
    (first.after attempt).Alike (second.after attempt) := by
  constructor
  · rw [frames_after, frames_after, h.frames]
  · rw [discards_after, discards_after, h.discards]
  · exact h.rest

/-- A malformed packet is dropped whoever is told. -/
theorem alike_of_malformed {bytes : Bytes} {first second : UInt8}
    (hread : Head.read bytes = .malformed first second) (handler : DiscardHandler) :
    Drain.Alike ⟨[⟨bytes.length, .malformed first second⟩], [], none⟩ (drain handler bytes) := by
  rcases hraised : handler.raised? with - | what
  · rw [drain_of_malformed hraised hread]
    exact ⟨rfl, rfl, rfl⟩
  · rw [drain_of_malformed_of_raised hraised hread]
    exact ⟨rfl, rfl, rfl⟩

/-- **A run is alike for any two callers.** -/
theorem alike_drain (first second : DiscardHandler) (bytes : Bytes) :
    (drain first bytes).Alike (drain second bytes) := by
  fun_induction drain first bytes with
  | case1 bytes frame hread ih =>
    rw [drain_of_frame hread]
    exact ih.after _
  | case2 bytes a b hread what hraised =>
    obtain ⟨hframes, hdiscards, hrest⟩ := alike_of_malformed hread second
    exact ⟨hframes, hdiscards, hrest⟩
  | case3 bytes a b hread hraised ih =>
    obtain ⟨hframes, hdiscards, hrest⟩ := alike_of_malformed hread second
    rw [drain_nil]
    exact ⟨hframes, hdiscards, hrest⟩
  | case4 bytes why hread =>
    rw [drain_of_isWait (by rw [hread]; rfl), hread]
    exact ⟨rfl, rfl, rfl⟩
  | case5 bytes hread =>
    rw [drain_of_isWait (by rw [hread]; rfl), hread]
    exact ⟨rfl, rfl, rfl⟩

theorem Drain.Alike.drained_eq {first second : Drain} (h : first.Alike second)
    (decoder : Decoder) : decoder.drained first = decoder.drained second := by
  have hconsumes : first.attempts.any Attempt.consumes = second.attempts.any Attempt.consumes := by
    rw [Bool.eq_iff_iff, any_consumes_iff, any_consumes_iff, h.frames, h.discards]
  rw [Decoder.drained, Decoder.drained, h.rest, hconsumes]

/-! ### Feeds -/

/-- Two feeds that differ in nothing but what a caller raises about a discard. -/
structure Feed.Alike (first second : Feed) : Prop where
  /-- The decoders are the same afterwards. -/
  decoder : first.decoder = second.decoder
  /-- The same bytes are dropped. -/
  discards : first.discards = second.discards
  /-- Feeds that drop nothing end alike. -/
  outcome : first.discards = [] → first.outcome = second.outcome

namespace Decoder

/-- **A feed is alike for any two callers.** -/
theorem alike_feed (decoder : Decoder) (first second : DiscardHandler) (chunk : Bytes) :
    (decoder.feed first chunk).Alike (decoder.feed second chunk) := by
  have hrun : (decoder.runOn first chunk).Alike (decoder.runOn second chunk) :=
    alike_drain first second _
  have hover : decoder.Overflows first chunk ↔ decoder.Overflows second chunk := by
    rw [Overflows, Overflows, hrun.frames, hrun.rest]
  have hfeeds := feeds decoder first chunk
  generalize decoder.feed first chunk = fed at hfeeds ⊢
  cases hfeeds with
  | idle hchunk =>
    subst hchunk
    exact ⟨rfl, rfl, fun _ ↦ rfl⟩
  | calm hchunk hcalm =>
    rw [feed_of_not_overflows hchunk (mt hover.2 hcalm)]
    refine ⟨hrun.drained_eq decoder, hrun.discards, fun hdrop ↦ ?_⟩
    -- Nothing is raised in a run that drops nothing, so both return their responses.
    have hdrop' : (decoder.runOn second chunk).discards = [] := hrun.discards.symm.trans hdrop
    show (decoder.runOn first chunk).outcome = (decoder.runOn second chunk).outcome
    rw [Drain.outcome, Drain.outcome, hrun.frames]
    rw [show (decoder.runOn first chunk).raised = none from raised_of_discards_eq_nil hdrop,
      show (decoder.runOn second chunk).raised = none from raised_of_discards_eq_nil hdrop']
  | stalling hchunk hpolicy hover' =>
    rw [feed_of_overflows_of_throw hchunk hpolicy (hover.1 hover')]
    exact ⟨hrun.drained_eq decoder, hrun.discards, fun _ ↦ rfl⟩
  | dropping hchunk hpolicy hover' =>
    rw [feed_of_overflows_of_discard hchunk hpolicy (hover.1 hover')]
    exact ⟨rfl, rfl, fun hdrop ↦ absurd hdrop (List.cons_ne_nil _ _)⟩

theorem alike_perform (decoder : Decoder) (operation : Operation) (first second : DiscardHandler) :
    (decoder.perform ⟨operation, first⟩).Alike (decoder.perform ⟨operation, second⟩) := by
  cases operation with
  | feed chunk => exact alike_feed decoder first second chunk
  | reset => exact ⟨rfl, rfl, fun _ ↦ rfl⟩

/-- **Behind a discard the decoder is a new one**, and the turn has ended as the caller has it. -/
theorem eq_of_discards_perform_ne_nil {decoder : Decoder} {turn : Turn}
    (hdrop : (decoder.perform turn).discards ≠ []) :
    (decoder.perform turn).decoder = fresh decoder.config ∧
      (decoder.perform turn).outcome =
        match turn.handler.raised? with
        | some what => .error (.raised what)
        | none => .ok ((decoder.perform turn).frames.map Frame.response) := by
  obtain ⟨operation, handler⟩ := turn
  cases operation with
  | feed chunk => exact (feeds decoder handler chunk).eq_of_discards_ne_nil hdrop
  | reset => exact absurd rfl hdrop

/-- A turn without a discard ends with responses or in a stall. -/
theorem outcome_of_discards_perform_eq_nil {decoder : Decoder} {turn : Turn}
    (hdrop : (decoder.perform turn).discards = []) :
    (∃ responses, (decoder.perform turn).outcome = .ok responses) ∨
      ∃ stall, (decoder.perform turn).outcome = .error (.stall stall) := by
  have hnone : ∀ what, (decoder.perform turn).outcome ≠ .error (.raised what) := by
    obtain ⟨operation, handler⟩ := turn
    cases operation with
    | feed chunk =>
      rcases (feeds decoder handler chunk).discards_cases with ⟨-, hnone⟩ | ⟨discard, hone⟩
      · exact hnone
      · exact absurd (hone.symm.trans hdrop) (List.cons_ne_nil _ _)
    | reset => exact fun what hwhat ↦ nomatch hwhat
  rcases houtcome : (decoder.perform turn).outcome with (stall | what) | responses
  · exact .inr ⟨stall, rfl⟩
  · exact absurd houtcome (hnone what)
  · exact .inl ⟨responses, rfl⟩

end Decoder

/-! ### Turns -/

/-- The operation of a turn, for a caller who takes notice of a discard and raises nothing. -/
def Turn.returning (turn : Turn) : Turn :=
  { turn with handler := .returns }

namespace Decoder

/-- What the callers did leaves no trace in the decoder. -/
theorem after_returning (decoder : Decoder) (turns : List Turn) :
    decoder.after (turns.map Turn.returning) = decoder.after turns := by
  induction turns generalizing decoder with
  | nil => rfl
  | cons turn rest ih =>
    show (decoder.perform turn.returning).decoder.after (rest.map Turn.returning) = _
    have hperform : decoder.perform turn.returning =
      decoder.perform ⟨turn.operation, .returns⟩ := rfl
    rw [ih, hperform, ← (alike_perform decoder turn.operation turn.handler .returns).decoder]
    rfl

/-- What a turn does for a caller who raises something, beside what it does for one who returns. -/
structure RaisesOnly (what : Raised) (raising returning : Feed) : Prop where
  /-- The decoders are the same afterwards. -/
  decoder : raising.decoder = returning.decoder
  /-- The same bytes are dropped. -/
  discards : raising.discards = returning.discards
  /-- What the caller raises leaves the turn just if there is a discard to tell of. -/
  raises_iff : raising.outcome = .error (.raised what) ↔ raising.discards ≠ []
  /-- Without a discard both end alike, with responses or in a stall. -/
  outcome_eq : raising.discards = [] → raising.outcome = returning.outcome ∧
    ((∃ responses, raising.outcome = .ok responses) ∨
      ∃ stall, raising.outcome = .error (.stall stall))

/-- **What the caller raises is how a turn with a discard ends**, and changes nothing else. -/
theorem raisesOnly_perform (decoder : Decoder) (operation : Operation) (what : Raised) :
    RaisesOnly what (decoder.perform ⟨operation, .raises what⟩)
      (decoder.perform ⟨operation, .returns⟩) := by
  have halike := alike_perform decoder operation (.raises what) .returns
  refine ⟨halike.decoder, halike.discards, ⟨fun hraises hdrop ↦ ?_, fun hdrop ↦ ?_⟩,
    fun hdrop ↦ ⟨halike.outcome hdrop, outcome_of_discards_perform_eq_nil hdrop⟩⟩
  · rcases outcome_of_discards_perform_eq_nil hdrop with ⟨responses, hends⟩ | ⟨stall, hends⟩
    · exact nomatch hraises.symm.trans hends
    · exact nomatch hraises.symm.trans hends
  · exact (eq_of_discards_perform_ne_nil hdrop).2

/-- **A caller who raises leaves the decoder consistent**, whatever the callers of the turns before
did. The turn differs from that of a caller who returns in nothing but that it ends with what is
raised, and this just if there is a discard; a buffer that is read at an offset, cleared in the
middle of a run or not, ends in the same place. Behind a discard, whoever is told of it, the decoder
is a new one and does what a new one does. -/
theorem perform_raising (config : Config) (turns : List Turn) (operation : Operation)
    (what : Raised) :
    let decoder := (fresh config).after turns
    let raising := decoder.perform ⟨operation, .raises what⟩
    RaisesOnly what raising
        (((fresh config).after (turns.map Turn.returning)).perform ⟨operation, .returns⟩) ∧
      (Reader.ofDecoder decoder).perform ⟨operation, .raises what⟩ =
        (Reader.ofDecoder raising.decoder, raising.outcome, raising.discards) ∧
      ∀ handler rest, (decoder.perform ⟨operation, handler⟩).discards ≠ [] →
        (decoder.perform ⟨operation, handler⟩).decoder = fresh config ∧
          (fresh config).play (turns ++ ⟨operation, handler⟩ :: rest) =
            (fresh config).play (turns ++ [⟨operation, handler⟩]) ++ (fresh config).play rest := by
  intro decoder raising
  refine ⟨?_, Reader.perform_ofDecoder decoder _, fun handler rest hdrop ↦ ?_⟩
  · rw [after_returning]
    exact raisesOnly_perform decoder operation what
  · have hfresh : (decoder.perform ⟨operation, handler⟩).decoder = fresh config := by
      rw [(eq_of_discards_perform_ne_nil hdrop).1, config_after]
      rfl
    refine ⟨hfresh, ?_⟩
    rw [play_append, play_append, List.append_assoc]
    show _ ++ (_ :: (decoder.perform ⟨operation, handler⟩).decoder.play rest) = _
    rw [hfresh]
    rfl

/-- A frame that was cut in two, and behind it the malformed end of a split response: the frame is
lost with what the caller raises, and the decoder is a new one. -/
theorem perform_raising_behind_frame :
    let packet := Packet.bytes ⟨10, -1, 2, [], 0, 0⟩
    let turns : List Turn := [⟨.feed (packet.take 5), .raises (.error "no")⟩]
    let operation : Operation := .feed (packet.drop 5 ++ Packet.bytes ⟨10, 999, 0, [], 0, 1⟩)
    let raising := ((fresh .default).after turns).perform ⟨operation, .raises (.text "no")⟩
    raising.discards = [⟨.malformedTerminator, 14⟩] ∧
      raising.frames = [⟨10, -1, .authentication, []⟩] ∧
      raising.outcome = .error (.raised (.text "no")) ∧ raising.decoder = fresh .default := by
  intro packet turns operation raising
  obtain ⟨hraises, -, hfresh⟩ := perform_raising .default turns operation (.text "no")
  have hdrop : raising.discards = [⟨.malformedTerminator, 14⟩] := by decide +kernel
  have hsome : raising.discards ≠ [] := by
    rw [hdrop]
    exact List.cons_ne_nil _ _
  exact ⟨hdrop, by decide +kernel, hraises.raises_iff.2 hsome, (hfresh _ [] hsome).1⟩

end Decoder

end Rcon
