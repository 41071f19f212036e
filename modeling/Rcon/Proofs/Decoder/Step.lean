import Rcon.Proofs.Decoder.Run

/-!
# One step

Feeding a chunk is a run of attempts on the pending bytes and the chunk (`Decoder.runOn`), and what
comes of it turns on one question: does the run complete no frame and leave more than the limit
(`Decoder.Overflows`)?

* If not, the feed does what the run does and no more (`feed_of_not_overflows`).
* If so, the run took nothing off the bytes at all (`Overflows.isWait`), and the policy decides.
  **With an error the feed still does what the run does, but for how it ends**
  (`feed_of_overflows_of_throw`); with a discard it lets go of everything
  (`feed_of_overflows_of_discard`).

`Decoder.Feeds` says this at once, and what holds of every feed is read off there: it makes one
discard at most (`Feeds.discards_cases`), it returns the responses of its frames or fails
(`Feeds.outcome_cases`), and what it leaves has to wait (`Feeds.isWait_pending`).
-/

namespace Rcon

/-! ### Runs of attempts -/

namespace Drain

/-- How a feed ends that does what a run of attempts does. -/
def outcome (run : Drain) : Outcome :=
  match run.raised with
  | some what => .error (.raised what)
  | none => .ok (run.frames.map Frame.response)

theorem outcome_ne_stall (run : Drain) (stall : Stall) : run.outcome ≠ .error (.stall stall) := by
  rw [outcome]
  rcases run.raised with - | what
  · exact fun h ↦ nomatch h
  · exact fun h ↦ nomatch h

end Drain

/-- How a feed ends that tells the caller of a discard and completes nothing. -/
def DiscardHandler.outcome (handler : DiscardHandler) : Outcome :=
  match handler.raised? with
  | some what => .error (.raised what)
  | none => .ok []

theorem DiscardHandler.outcome_ne_stall (handler : DiscardHandler) (stall : Stall) :
    handler.outcome ≠ .error (.stall stall) := by
  intro h
  rw [outcome] at h
  rcases hraised : handler.raised? with - | what
  · rw [hraised] at h
    cases h
  · rw [hraised] at h
    cases h

section Drain

variable {handler : DiscardHandler} {bytes : Bytes}

/-- A run that completes no frame and drops nothing has found bytes that wait. -/
theorem isWait_of_discards_eq_nil (hframes : (drain handler bytes).frames = [])
    (hdrop : (drain handler bytes).discards = []) : (Head.read bytes).isWait = true := by
  rcases hread : Head.read bytes with frame | ⟨first, second⟩ | why | -
  · rw [drain_of_frame hread] at hframes
    cases hframes
  · rcases hraised : handler.raised? with - | what
    · rw [drain_of_malformed hraised hread] at hdrop
      cases hdrop
    · rw [drain_of_malformed_of_raised hraised hread] at hdrop
      cases hdrop
  · rfl
  · rfl

/-- **A run drops nothing, or all that is left** for one malformed packet; only then is the caller
told. -/
theorem discards_drain_cases (handler : DiscardHandler) (bytes : Bytes) :
    ((drain handler bytes).discards = [] ∧ (drain handler bytes).raised = none) ∨
      ∃ n, (drain handler bytes).discards = [⟨.malformedTerminator, n⟩] ∧
        (drain handler bytes).rest = [] ∧ (drain handler bytes).raised = handler.raised? := by
  fun_induction drain handler bytes with
  | case1 bytes frame hread ih => exact ih
  | case2 bytes first second hread what hraised => exact .inr ⟨bytes.length, rfl, rfl, hraised.symm⟩
  | case3 bytes first second hread hraised ih =>
    rw [drain_nil]
    exact .inr ⟨bytes.length, rfl, rfl, hraised.symm⟩
  | case4 bytes why hread => exact .inl ⟨rfl, rfl⟩
  | case5 bytes hread => exact .inl ⟨rfl, rfl⟩

theorem isWait_of_rest_ne_nil (hframes : (drain handler bytes).frames = [])
    (hrest : (drain handler bytes).rest ≠ []) : (Head.read bytes).isWait = true := by
  rcases discards_drain_cases handler bytes with ⟨hdrop, -⟩ | ⟨n, -, hnone, -⟩
  · exact isWait_of_discards_eq_nil hframes hdrop
  · exact absurd hnone hrest

theorem outcome_drain_of_isWait (h : (Head.read bytes).isWait = true) :
    (drain handler bytes).outcome = .ok [] := by
  rw [Drain.outcome, frames_drain_of_isWait h, drain_of_isWait h]
  rfl

end Drain

/-! ### Feeding a chunk -/

/-- The frames that a feed completes. -/
def Feed.frames (fed : Feed) : List Frame :=
  fed.attempts.filterMap Attempt.frame?

namespace Decoder

section Feed

variable (decoder : Decoder) (handler : DiscardHandler) (chunk : Bytes)

/-- The run of attempts that feeding a chunk makes. -/
def runOn : Drain :=
  drain handler (decoder.pending ++ chunk)

/-- Does the run on a chunk complete no frame and leave more bytes than allowed? -/
def Overflows : Prop :=
  (decoder.runOn handler chunk).frames = [] ∧
    decoder.config.maxPendingBytes < (decoder.runOn handler chunk).rest.length

instance : Decidable (decoder.Overflows handler chunk) :=
  inferInstanceAs (Decidable (_ ∧ _))

/-- The feed that does what the run on a chunk does, and ends so. -/
def feedEnding (outcome : Outcome) : Feed where
  decoder := decoder.drained (decoder.runOn handler chunk)
  outcome := outcome
  attempts := (decoder.runOn handler chunk).attempts
  discards := (decoder.runOn handler chunk).discards
  notes :=
    .received chunk.length (decoder.pending ++ chunk).length (0 < decoder.continuations) ::
      (decoder.runOn handler chunk).notes

/-- The feed that lets go of everything for an overflow. -/
def feedDropping : Feed :=
  { decoder.feedEnding handler chunk handler.outcome with
    decoder := decoder.reset
    discards := [⟨.stalled, (decoder.pending ++ chunk).length⟩]
    notes := (decoder.feedEnding handler chunk handler.outcome).notes ++
      [.stalled (decoder.pending ++ chunk).length decoder.config.maxPendingBytes] }

end Feed

variable {decoder : Decoder} {handler : DiscardHandler} {chunk : Bytes}

/-- An overflow takes nothing off the bytes. -/
theorem Overflows.isWait (h : decoder.Overflows handler chunk) :
    (Head.read (decoder.pending ++ chunk)).isWait = true :=
  isWait_of_rest_ne_nil h.1 (List.ne_nil_of_length_pos (Nat.zero_lt_of_lt h.2))

theorem Overflows.rest_eq (h : decoder.Overflows handler chunk) :
    (decoder.runOn handler chunk).rest = decoder.pending ++ chunk :=
  rest_drain_of_isWait h.isWait

theorem Overflows.discards_eq (h : decoder.Overflows handler chunk) :
    (decoder.runOn handler chunk).discards = [] :=
  discards_drain_of_isWait h.isWait

theorem Overflows.raised_eq (h : decoder.Overflows handler chunk) :
    (decoder.runOn handler chunk).raised = none :=
  raised_of_discards_eq_nil h.discards_eq

theorem Overflows.lt_length (h : decoder.Overflows handler chunk) :
    decoder.config.maxPendingBytes < (decoder.pending ++ chunk).length :=
  h.rest_eq ▸ h.2

theorem Overflows.outcome_eq (h : decoder.Overflows handler chunk) :
    (decoder.runOn handler chunk).outcome = .ok [] :=
  outcome_drain_of_isWait h.isWait

/-- **When a run overflows**: no frame is completed, nothing is dropped, and there are more bytes
than allowed. -/
theorem overflows_iff :
    decoder.Overflows handler chunk ↔
      (decoder.runOn handler chunk).frames = [] ∧ (decoder.runOn handler chunk).discards = [] ∧
        decoder.config.maxPendingBytes < (decoder.pending ++ chunk).length := by
  constructor
  · exact fun h ↦ ⟨h.1, h.discards_eq, h.lt_length⟩
  · rintro ⟨hframes, hdrop, hlimit⟩
    refine ⟨hframes, ?_⟩
    rwa [runOn, rest_drain_of_isWait (isWait_of_discards_eq_nil hframes hdrop)]

/-- **Bytes within the limit do not overflow.** -/
theorem not_overflows_of_length_le
    (hle : (decoder.pending ++ chunk).length ≤ decoder.config.maxPendingBytes) :
    ¬decoder.Overflows handler chunk :=
  fun h ↦ Nat.not_lt.2 hle h.lt_length

/-- A feed is the run on the chunk and what is done after it. -/
theorem feed_of_settle {ended : Feed} (hchunk : chunk ≠ [])
    (h : (decoder.drained (decoder.runOn handler chunk)).settle handler
      (decoder.runOn handler chunk) = ended) :
    decoder.feed handler chunk =
      { decoder.feedEnding handler chunk ended.outcome with
        decoder := ended.decoder
        discards := (decoder.runOn handler chunk).discards ++ ended.discards
        notes := (decoder.feedEnding handler chunk ended.outcome).notes ++ ended.notes } := by
  rw [← h, feed, if_neg hchunk]
  rfl

/-- **Without an overflow a feed does what the run of attempts does.** -/
theorem feed_of_not_overflows (hchunk : chunk ≠ []) (h : ¬decoder.Overflows handler chunk) :
    decoder.feed handler chunk =
      decoder.feedEnding handler chunk (decoder.runOn handler chunk).outcome := by
  have hsettle : (decoder.drained (decoder.runOn handler chunk)).settle handler
      (decoder.runOn handler chunk) =
        { decoder := decoder.drained (decoder.runOn handler chunk)
          outcome := (decoder.runOn handler chunk).outcome } := by
    rw [settle, Drain.outcome]
    rcases (decoder.runOn handler chunk).raised with - | what
    · exact if_neg h
    · rfl
  rw [feed_of_settle hchunk hsettle]
  simp only [List.append_nil]
  rfl

/-- What is done about an overflow is for the policy to say. -/
theorem settle_of_overflows (h : decoder.Overflows handler chunk) :
    (decoder.drained (decoder.runOn handler chunk)).settle handler (decoder.runOn handler chunk) =
      (decoder.drained (decoder.runOn handler chunk)).stall handler :=
  settle_of_not_calm (by rw [runOn, drain_of_isWait h.isWait]) h.1 h.2

/-- **An overflow that is an error changes nothing but how the feed ends.** -/
theorem feed_of_overflows_of_throw (hchunk : chunk ≠ [])
    (hpolicy : decoder.config.stallPolicy = .throw) (h : decoder.Overflows handler chunk) :
    decoder.feed handler chunk =
      decoder.feedEnding handler chunk
        (.error (.stall
          ⟨(decoder.pending ++ chunk).length, decoder.config.maxPendingBytes⟩)) := by
  have hsettle := settle_of_overflows h
  rw [stall, show (decoder.drained (decoder.runOn handler chunk)).config.stallPolicy = .throw
    from hpolicy] at hsettle
  rw [feed_of_settle hchunk hsettle, ← h.rest_eq]
  simp only [List.append_nil]
  rfl

/-- **An overflow that is a discard lets go of everything.** -/
theorem feed_of_overflows_of_discard (hchunk : chunk ≠ [])
    (hpolicy : decoder.config.stallPolicy = .discard) (h : decoder.Overflows handler chunk) :
    decoder.feed handler chunk = decoder.feedDropping handler chunk := by
  have hsettle := settle_of_overflows h
  rw [stall, show (decoder.drained (decoder.runOn handler chunk)).config.stallPolicy = .discard
    from hpolicy] at hsettle
  rw [feed_of_settle hchunk hsettle, h.discards_eq, feedDropping, ← h.rest_eq]
  rfl

/-- All that a feed can be. -/
inductive Feeds (decoder : Decoder) (handler : DiscardHandler) (chunk : Bytes) : Feed → Prop
  /-- An empty chunk does nothing. -/
  | idle (hchunk : chunk = []) : Feeds decoder handler chunk { decoder, outcome := .ok [] }
  /-- Without an overflow the run says how it ends. -/
  | calm (hchunk : chunk ≠ []) (hcalm : ¬decoder.Overflows handler chunk) :
      Feeds decoder handler chunk
        (decoder.feedEnding handler chunk (decoder.runOn handler chunk).outcome)
  /-- An overflow is an error. -/
  | stalling (hchunk : chunk ≠ []) (hpolicy : decoder.config.stallPolicy = .throw)
      (hover : decoder.Overflows handler chunk) :
      Feeds decoder handler chunk
        (decoder.feedEnding handler chunk
          (.error (.stall ⟨(decoder.pending ++ chunk).length, decoder.config.maxPendingBytes⟩)))
  /-- An overflow is a discard. -/
  | dropping (hchunk : chunk ≠ []) (hpolicy : decoder.config.stallPolicy = .discard)
      (hover : decoder.Overflows handler chunk) :
      Feeds decoder handler chunk (decoder.feedDropping handler chunk)

/-- **`Feeds` covers every feed.** -/
theorem feeds (decoder : Decoder) (handler : DiscardHandler) (chunk : Bytes) :
    Feeds decoder handler chunk (decoder.feed handler chunk) := by
  by_cases hchunk : chunk = []
  · rw [feed, if_pos hchunk]
    exact .idle hchunk
  by_cases hover : decoder.Overflows handler chunk
  · rcases hpolicy : decoder.config.stallPolicy with - | -
    · rw [feed_of_overflows_of_discard hchunk hpolicy hover]
      exact .dropping hchunk hpolicy hover
    · rw [feed_of_overflows_of_throw hchunk hpolicy hover]
      exact .stalling hchunk hpolicy hover
  · rw [feed_of_not_overflows hchunk hover]
    exact .calm hchunk hover

namespace Feeds

variable {fed : Feed} (h : Feeds decoder handler chunk fed)

include h

/-- **What a feed returns are the responses of its frames**, all of them. -/
theorem outcome_cases :
    fed.outcome = .ok (fed.frames.map Frame.response) ∨
      ∃ failure, fed.outcome = .error failure := by
  cases h with
  | idle hchunk => exact .inl rfl
  | calm hchunk hcalm =>
    show (decoder.runOn handler chunk).outcome =
        .ok ((decoder.runOn handler chunk).frames.map Frame.response) ∨
      ∃ failure, (decoder.runOn handler chunk).outcome = .error failure
    rw [Drain.outcome]
    rcases (decoder.runOn handler chunk).raised with - | what
    · exact .inl rfl
    · exact .inr ⟨_, rfl⟩
  | stalling hchunk hpolicy hover => exact .inr ⟨_, rfl⟩
  | dropping hchunk hpolicy hover =>
    show handler.outcome = .ok ((decoder.runOn handler chunk).frames.map Frame.response) ∨
      ∃ failure, handler.outcome = .error failure
    rw [hover.1, DiscardHandler.outcome]
    rcases handler.raised? with - | what
    · exact .inl rfl
    · exact .inr ⟨_, rfl⟩

/-- **Where the caller raises nothing, a feed returns**, or ends in a stall if that is the
policy. -/
theorem outcome_of_quiet (hquiet : handler.raised? = none) :
    fed.outcome = .ok (fed.frames.map Frame.response) ∨
      decoder.config.stallPolicy = .throw ∧ ∃ stall, fed.outcome = .error (.stall stall) := by
  cases h with
  | idle hchunk => exact .inl rfl
  | calm hchunk hcalm =>
    left
    show (decoder.runOn handler chunk).outcome =
      .ok ((decoder.runOn handler chunk).frames.map Frame.response)
    rw [Drain.outcome, runOn, raised_drain hquiet]
  | stalling hchunk hpolicy hover => exact .inr ⟨hpolicy, _, rfl⟩
  | dropping hchunk hpolicy hover =>
    left
    show handler.outcome = .ok ((decoder.runOn handler chunk).frames.map Frame.response)
    rw [hover.1, DiscardHandler.outcome, hquiet]
    rfl

/-- **A feed makes one discard at most**, and nothing is raised in a feed that makes none. -/
theorem discards_cases :
    (fed.discards = [] ∧ ∀ what, fed.outcome ≠ .error (.raised what)) ∨
      ∃ discard, fed.discards = [discard] := by
  cases h with
  | idle hchunk => exact .inl ⟨rfl, fun what hwhat ↦ nomatch hwhat⟩
  | calm hchunk hcalm =>
    rcases discards_drain_cases handler (decoder.pending ++ chunk) with
      ⟨hdiscards, hraised⟩ | ⟨n, hdiscards, -⟩
    · refine .inl ⟨hdiscards, fun what hwhat ↦ ?_⟩
      rw [feedEnding, runOn, Drain.outcome, hraised] at hwhat
      cases hwhat
    · exact .inr ⟨_, hdiscards⟩
  | stalling hchunk hpolicy hover =>
    exact .inl ⟨hover.discards_eq, fun what hwhat ↦ nomatch hwhat⟩
  | dropping hchunk hpolicy hover => exact .inr ⟨_, rfl⟩

/-- **A feed that drops something lets go of everything.** It ends with what the caller raises, or
else with the responses of its frames. -/
theorem eq_of_discards_ne_nil (hdrop : fed.discards ≠ []) :
    fed.decoder = decoder.reset ∧
      fed.outcome =
        match handler.raised? with
        | some what => .error (.raised what)
        | none => .ok (fed.frames.map Frame.response) := by
  cases h with
  | idle hchunk => exact absurd rfl hdrop
  | calm hchunk hcalm =>
    rcases discards_drain_cases handler (decoder.pending ++ chunk) with
      ⟨hnone, -⟩ | ⟨n, -, hrest, hraised⟩
    · exact absurd hnone hdrop
    · constructor
      · show decoder.drained (decoder.runOn handler chunk) = _
        rw [drained, if_pos ((Drain.any_consumes_iff _).2 (.inr hdrop)), runOn, hrest]
        rfl
      · show (decoder.runOn handler chunk).outcome = _
        rw [Drain.outcome, runOn, hraised]
        rfl
  | stalling hchunk hpolicy hover => exact absurd hover.discards_eq hdrop
  | dropping hchunk hpolicy hover =>
    refine ⟨rfl, ?_⟩
    show handler.outcome =
      match handler.raised? with
      | some what => .error (.raised what)
      | none => .ok ((decoder.runOn handler chunk).frames.map Frame.response)
    rw [hover.1]
    rfl

/-- **What is pending after a feed has to wait**, if what was pending had to. -/
theorem isWait_pending (hwait : (Head.read decoder.pending).isWait = true) :
    (Head.read fed.decoder.pending).isWait = true := by
  cases h with
  | idle hchunk => exact hwait
  | calm hchunk hcalm => exact isWait_read_rest handler _
  | stalling hchunk hpolicy hover => exact isWait_read_rest handler _
  | dropping hchunk hpolicy hover => exact isWait_fresh decoder.config

end Feeds

end Decoder

/-! ### Decoders that agree -/

/-- Two decoders at the same place of the same stream. Their settings may differ. -/
structure Decoder.Agrees (first second : Decoder) : Prop where
  /-- The same bytes are pending. -/
  pending : first.pending = second.pending
  /-- The bytes have come in as many chunks. -/
  continuations : first.continuations = second.continuations

namespace Decoder.Agrees

variable {first second : Decoder} (h : first.Agrees second) (handler : DiscardHandler)
  (chunk : Bytes)

include h

theorem runOn_eq : first.runOn handler chunk = second.runOn handler chunk := by
  rw [runOn, runOn, h.pending]

/-- Two feeds that do what the run does leave the decoders at the same place, however they end. -/
theorem feedEnding (outcome outcome' : Outcome) :
    (first.feedEnding handler chunk outcome).decoder.Agrees
      (second.feedEnding handler chunk outcome').decoder := by
  constructor
  · show (first.runOn handler chunk).rest = _
    rw [h.runOn_eq]
    rfl
  · show (if (first.runOn handler chunk).attempts.any Attempt.consumes then 0 else _) = _
    rw [h.runOn_eq, h.continuations]
    rfl

end Decoder.Agrees

/-! ### Feeds and resets -/

/-- The bytes that an operation brings. -/
def Operation.bytes : Operation → Bytes
  | .feed chunk => chunk
  | .reset => []

namespace Decoder

/-- An operation returns the responses of its frames, or fails. -/
theorem outcome_step_cases (decoder : Decoder) (handler : DiscardHandler) (operation : Operation) :
    (decoder.step handler operation).outcome =
        .ok ((decoder.step handler operation).frames.map Frame.response) ∨
      ∃ failure, (decoder.step handler operation).outcome = .error failure := by
  cases operation with
  | feed chunk => exact (feeds decoder handler chunk).outcome_cases
  | reset => exact .inl rfl

@[simp] theorem config_step (decoder : Decoder) (handler : DiscardHandler) (operation : Operation) :
    (decoder.step handler operation).decoder.config = decoder.config := by
  cases operation with
  | feed chunk => exact config_feed decoder handler chunk
  | reset => rfl

theorem isWait_step {decoder : Decoder} (handler : DiscardHandler) (operation : Operation)
    (hwait : (Head.read decoder.pending).isWait = true) :
    (Head.read (decoder.step handler operation).decoder.pending).isWait = true := by
  cases operation with
  | feed chunk => exact (feeds decoder handler chunk).isWait_pending hwait
  | reset => exact isWait_fresh decoder.config

end Decoder

end Rcon
