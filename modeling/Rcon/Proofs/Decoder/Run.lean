import Rcon.Decoder.Session
import Rcon.Proofs.Decoder.Drain

/-!
# Runs of feeds

A decoder at work, seen as the list of what each operation does (`Decoder.run`); for a run of feeds
alone this is `Decoder.feedAll`. A step of a session is a step of its decoder, whoever listens
(`Session.step_fst`, `Session.step_snd`).

The invariant of a run is that what is pending has to wait. It makes a feed that does not stall do
what the run of attempts on the longer bytes does, and nothing else (`follows_of_stalls_eq_false`),
and so it makes a run of feeds do what **one** run of attempts on all the bytes does:

* as long as no byte is dropped, feed by feed and down to what is pending
  (`feedAll_of_discards_eq_nil`);
* up to and including the first feed that drops bytes in any case (`responses_throughDiscard`).
-/

namespace Rcon

/-! ### What a feed shows -/

namespace Feed

/-- The responses that a feed returns; a feed that fails returns none. -/
def responses (fed : Feed) : List Response :=
  match fed.outcome with
  | .ok responses => responses
  | .error _ => []

/-- Does a feed find that the stream does not recover, by a discard or by an error? -/
def stalls (fed : Feed) : Bool :=
  fed.discards.any (fun discard ↦ discard.reason = .stalled) ||
    match fed.outcome with
    | .error (.stall _) => true
    | _ => false

/-- Does a feed drop what is buffered for a malformed packet? -/
def dropsMalformed (fed : Feed) : Bool :=
  fed.discards.any fun discard ↦ discard.reason = .malformedTerminator

/-- Does a feed drop what is buffered for having stalled? -/
def dropsStalled (fed : Feed) : Bool :=
  fed.discards.any fun discard ↦ discard.reason = .stalled

/-- The feeds up to and including the first that drops bytes. -/
def throughDiscard : List Feed → List Feed
  | [] => []
  | fed :: rest => if fed.discards = [] then fed :: throughDiscard rest else [fed]

/-- A feed that does what a run of attempts on the pending bytes and the chunk does, and no more. -/
structure Follows (fed : Feed) (run : Drain) : Prop where
  /-- What the run leaves is pending. -/
  pending : fed.decoder.pending = run.rest
  /-- The responses of the frames of the run are returned. -/
  outcome : fed.outcome = .ok (run.frames.map Frame.response)
  /-- What the run drops is all that is dropped. -/
  discards : fed.discards = run.discards

theorem Follows.responses_eq {fed : Feed} {run : Drain} (h : fed.Follows run) :
    fed.responses = run.frames.map Frame.response := by
  rw [responses, h.outcome]

end Feed

namespace Decoder

/-! ### Runs -/

/-- A decoder with these settings and nothing buffered. -/
def fresh (config : Config) : Decoder :=
  { config }

/-- Does one thing to a decoder. A reset ends as a feed without responses does. -/
def step (decoder : Decoder) (handler : DiscardHandler) : Operation → Feed
  | .feed chunk => decoder.feed handler chunk
  | .reset => { decoder := decoder.reset, outcome := .ok [] }

/-- Does one thing after the other. -/
def run (decoder : Decoder) (handler : DiscardHandler) : List Operation → List Feed
  | [] => []
  | operation :: rest =>
    let fed := decoder.step handler operation
    fed :: fed.decoder.run handler rest

/-- Feeds one chunk after the other. -/
def feedAll (decoder : Decoder) (handler : DiscardHandler) (chunks : List Bytes) : List Feed :=
  decoder.run handler (chunks.map .feed)

/-- The decoder as a run leaves it. -/
def atEnd (decoder : Decoder) : List Feed → Decoder
  | [] => decoder
  | fed :: rest => fed.decoder.atEnd rest

variable (decoder : Decoder) (handler : DiscardHandler)

@[simp] theorem feedAll_nil : decoder.feedAll handler [] = [] := rfl

@[simp] theorem feedAll_cons (chunk : Bytes) (chunks : List Bytes) :
    decoder.feedAll handler (chunk :: chunks) =
      decoder.feed handler chunk ::
        (decoder.feed handler chunk).decoder.feedAll handler chunks := rfl

@[simp] theorem atEnd_nil : decoder.atEnd [] = decoder := rfl

@[simp] theorem atEnd_cons (fed : Feed) (rest : List Feed) :
    decoder.atEnd (fed :: rest) = fed.decoder.atEnd rest := rfl

/-- The first feeds of a run are those of its first chunks. -/
theorem feedAll_take (k : Nat) (chunks : List Bytes) :
    decoder.feedAll handler (chunks.take k) = (decoder.feedAll handler chunks).take k := by
  induction chunks generalizing decoder k with
  | nil => simp
  | cons chunk chunks ih =>
    match k with
    | 0 => rfl
    | k + 1 =>
      rw [List.take_succ_cons, feedAll_cons, feedAll_cons, List.take_succ_cons, ih]

theorem forall_mem_feedAll_take {decoder : Decoder} {handler : DiscardHandler} {chunks : List Bytes}
    {p : Feed → Prop} (h : ∀ fed ∈ decoder.feedAll handler chunks, p fed) (k : Nat) :
    ∀ fed ∈ decoder.feedAll handler (chunks.take k), p fed := by
  intro fed hfed
  rw [feedAll_take] at hfed
  exact h fed (List.mem_of_mem_take hfed)

end Decoder

/-! ### Sessions -/

namespace Session

variable (session : Session)

/-- Telling the log changes nothing but the log. -/
theorem handler_log (records : List Log.Record) :
    (session.log records).1.handler = session.handler := by
  unfold log
  split <;> rfl

/-- A step of a session leaves its decoder as a step of the decoder does. -/
theorem step_fst (operation : Operation) :
    (session.step operation).1.decoder =
        (session.decoder.step session.handler operation).decoder ∧
      (session.step operation).1.handler = session.handler := by
  match operation with
  | .feed chunk => exact ⟨rfl, handler_log session _⟩
  | .reset => exact ⟨rfl, rfl⟩

/-- A step of a session reports the outcome and the discards of the step of its decoder. -/
theorem step_snd (operation : Operation) :
    (session.step operation).2.outcome.getD (.ok []) =
        (session.decoder.step session.handler operation).outcome ∧
      (session.step operation).2.discards =
        session.handler.told (session.decoder.step session.handler operation).discards := by
  match operation with
  | .feed chunk => exact ⟨rfl, rfl⟩
  | .reset =>
    refine ⟨rfl, ?_⟩
    rcases session.handler with - | - | what <;> rfl

end Session

/-! ### A feed that does not stall -/

namespace Decoder

variable {decoder : Decoder} {handler : DiscardHandler} {chunk : Bytes}

theorem isWait_fresh (config : Config) : (Head.read (fresh config).pending).isWait = true := by
  rw [show (fresh config).pending = [] from rfl, Head.read_eq_short (by decide)]
  rfl

@[simp] theorem feed_nil : decoder.feed handler [] = { decoder, outcome := .ok [] } := rfl

/-- What an empty chunk follows is the run on bytes that have to wait. -/
theorem follows_feed_nil (hwait : (Head.read decoder.pending).isWait = true) :
    (decoder.feed handler []).Follows (drain handler (decoder.pending ++ [])) := by
  rw [List.append_nil]
  constructor
  · rw [rest_drain_of_isWait hwait]
    rfl
  · rw [frames_drain_of_isWait hwait]
    rfl
  · rw [discards_drain_of_isWait hwait]
    rfl

section Parts

variable (decoder handler)

theorem decoder_feed (hchunk : chunk ≠ []) :
    (decoder.feed handler chunk).decoder =
      ((decoder.drained (drain handler (decoder.pending ++ chunk))).settle handler
        (drain handler (decoder.pending ++ chunk))).decoder := by
  rw [feed, if_neg hchunk]

theorem outcome_feed (hchunk : chunk ≠ []) :
    (decoder.feed handler chunk).outcome =
      ((decoder.drained (drain handler (decoder.pending ++ chunk))).settle handler
        (drain handler (decoder.pending ++ chunk))).outcome := by
  rw [feed, if_neg hchunk]

theorem discards_feed (hchunk : chunk ≠ []) :
    (decoder.feed handler chunk).discards =
      (drain handler (decoder.pending ++ chunk)).discards ++
        ((decoder.drained (drain handler (decoder.pending ++ chunk))).settle handler
          (drain handler (decoder.pending ++ chunk))).discards := by
  rw [feed, if_neg hchunk]

end Parts

/-- After a run that completes a frame, or leaves no more than the limit, the responses are
returned. -/
theorem settle_of_calm {run : Drain} (hraised : run.raised = none)
    (hcalm : run.frames = [] → run.rest.length ≤ decoder.config.maxPendingBytes) :
    (decoder.drained run).settle handler run =
      { decoder := decoder.drained run, outcome := .ok (run.frames.map Frame.response) } := by
  rw [settle, hraised]
  exact if_neg fun h ↦ Nat.not_lt.2 (hcalm h.1) h.2

/-- After a run that completes no frame and leaves more than the limit, the policy decides. -/
theorem settle_of_not_calm {run : Drain} (hraised : run.raised = none) (hframes : run.frames = [])
    (hlimit : decoder.config.maxPendingBytes < run.rest.length) :
    (decoder.drained run).settle handler run = (decoder.drained run).stall handler := by
  rw [settle, hraised]
  exact if_pos ⟨hframes, hlimit⟩

/-- A run that completes a frame, or leaves no more than the limit, is followed. -/
theorem follows_of_calm (hchunk : chunk ≠ [])
    (hraised : (drain handler (decoder.pending ++ chunk)).raised = none)
    (hcalm : (drain handler (decoder.pending ++ chunk)).frames = [] →
      (drain handler (decoder.pending ++ chunk)).rest.length ≤ decoder.config.maxPendingBytes) :
    (decoder.feed handler chunk).Follows (drain handler (decoder.pending ++ chunk)) := by
  refine ⟨?_, ?_, ?_⟩
  · rw [decoder_feed decoder handler hchunk, settle_of_calm hraised hcalm]
    rfl
  · rw [outcome_feed decoder handler hchunk, settle_of_calm hraised hcalm]
  · rw [discards_feed decoder handler hchunk, settle_of_calm hraised hcalm, List.append_nil]

/-- A run that completes no frame and leaves more than the limit stalls. -/
theorem stalls_of_not_calm (hchunk : chunk ≠ [])
    (hraised : (drain handler (decoder.pending ++ chunk)).raised = none)
    (hframes : (drain handler (decoder.pending ++ chunk)).frames = [])
    (hlimit : decoder.config.maxPendingBytes <
      (drain handler (decoder.pending ++ chunk)).rest.length) :
    (decoder.feed handler chunk).stalls = true := by
  rw [Feed.stalls, outcome_feed decoder handler hchunk, discards_feed decoder handler hchunk,
    settle_of_not_calm hraised hframes hlimit, stall]
  rcases (decoder.drained _).config.stallPolicy with - | -
  · simp
  · simp

/-- **A feed that does not stall follows the run of attempts.** -/
theorem follows_of_stalls_eq_false (hwait : (Head.read decoder.pending).isWait = true)
    (hraised : (drain handler (decoder.pending ++ chunk)).raised = none)
    (hstall : (decoder.feed handler chunk).stalls = false) :
    (decoder.feed handler chunk).Follows (drain handler (decoder.pending ++ chunk)) := by
  by_cases hchunk : chunk = []
  · subst hchunk
    exact follows_feed_nil hwait
  · refine follows_of_calm hchunk hraised fun hframes ↦ Nat.not_lt.1 fun hlt ↦ ?_
    rw [stalls_of_not_calm hchunk hraised hframes hlt] at hstall
    exact absurd hstall (by simp)

@[simp] theorem config_feed (decoder : Decoder) (handler : DiscardHandler) (chunk : Bytes) :
    (decoder.feed handler chunk).decoder.config = decoder.config := by
  by_cases hchunk : chunk = []
  · subst hchunk
    rfl
  · rw [decoder_feed decoder handler hchunk, settle]
    split
    · rfl
    · split
      · unfold stall
        split <;> rfl
      · rfl

end Decoder

/-! ### Runs of feeds and one run of attempts -/

/-- What a feed that follows a run leaves pending has to wait. -/
theorem Feed.Follows.isWait_pending {fed : Feed} {handler : DiscardHandler} {bytes : Bytes}
    (h : fed.Follows (drain handler bytes)) : (Head.read fed.decoder.pending).isWait = true := by
  rw [h.pending]
  exact isWait_read_rest handler bytes

/-- A feed that follows a run without discards does not stall. -/
theorem Feed.Follows.stalls_eq_false {fed : Feed} {run : Drain} (h : fed.Follows run)
    (hdrop : run.discards = []) : fed.stalls = false := by
  rw [Feed.stalls, h.outcome, h.discards, hdrop]
  rfl

namespace Decoder

variable {decoder : Decoder} {handler : DiscardHandler} {chunks : List Bytes}

/-- **A run of feeds that drops nothing does what one run of attempts does**: it returns the
responses of its frames, and what that run leaves is pending. -/
theorem feedAll_of_discards_eq_nil (hwait : (Head.read decoder.pending).isWait = true)
    (hstall : ∀ fed ∈ decoder.feedAll handler chunks, fed.stalls = false)
    (hdrop : (drain handler (decoder.pending ++ chunks.flatten)).discards = []) :
    (∀ fed ∈ decoder.feedAll handler chunks,
        fed.discards = [] ∧ fed.outcome = .ok fed.responses) ∧
      (decoder.feedAll handler chunks).flatMap Feed.responses =
        (drain handler (decoder.pending ++ chunks.flatten)).frames.map Frame.response ∧
      (decoder.atEnd (decoder.feedAll handler chunks)).pending =
        (drain handler (decoder.pending ++ chunks.flatten)).rest := by
  induction chunks generalizing decoder with
  | nil =>
    rw [List.flatten_nil, List.append_nil, frames_drain_of_isWait hwait,
      rest_drain_of_isWait hwait]
    exact ⟨fun fed hfed ↦ absurd hfed (List.not_mem_nil), rfl, rfl⟩
  | cons chunk chunks ih =>
    rw [List.flatten_cons, ← List.append_assoc] at hdrop ⊢
    rw [feedAll_cons] at hstall ⊢
    -- What the first chunk completes drops nothing, for it would not be taken back.
    have hfirst : (drain handler (decoder.pending ++ chunk)).discards = [] := by
      by_cases h : (drain handler (decoder.pending ++ chunk)).discards = []
      · exact h
      · exact absurd hdrop (drain_append_of_discards h chunks.flatten).2
    have hfollows := follows_of_stalls_eq_false hwait (raised_of_discards_eq_nil hfirst)
      (hstall _ List.mem_cons_self)
    obtain ⟨hframes, hdiscards, hrest⟩ := drain_append hfirst chunks.flatten
    rw [← hfollows.pending] at hframes hdiscards hrest
    obtain ⟨hquiet, hresponses, hpending⟩ := ih hfollows.isWait_pending
      (fun fed hfed ↦ hstall fed (List.mem_cons_of_mem _ hfed)) (hdiscards.symm.trans hdrop)
    refine ⟨?_, ?_, ?_⟩
    · intro fed hfed
      rcases List.mem_cons.1 hfed with rfl | hfed
      · exact ⟨hfollows.discards.trans hfirst, by rw [hfollows.responses_eq, hfollows.outcome]⟩
      · exact hquiet fed hfed
    · rw [List.flatMap_cons, hfollows.responses_eq, hresponses, hframes, List.map_append]
    · rw [atEnd_cons, hpending, hrest]

/-- Where no front of the bytes leaves more than the limit, and none drops any, no feed stalls. -/
theorem stalls_eq_false_of_rest_le (hwait : (Head.read decoder.pending).isWait = true)
    (hcalm : ∀ front, front <+: chunks.flatten →
      (drain handler (decoder.pending ++ front)).discards = [] ∧
        (drain handler (decoder.pending ++ front)).rest.length ≤ decoder.config.maxPendingBytes) :
    ∀ fed ∈ decoder.feedAll handler chunks, fed.stalls = false := by
  induction chunks generalizing decoder with
  | nil => exact fun fed hfed ↦ absurd hfed (List.not_mem_nil)
  | cons chunk chunks ih =>
    obtain ⟨hdrop, hlimit⟩ := hcalm chunk (List.prefix_append chunk chunks.flatten)
    have hfollows : (decoder.feed handler chunk).Follows
        (drain handler (decoder.pending ++ chunk)) := by
      by_cases hchunk : chunk = []
      · subst hchunk
        exact follows_feed_nil hwait
      · exact follows_of_calm hchunk (raised_of_discards_eq_nil hdrop) fun _ ↦ hlimit
    intro fed hfed
    rcases List.mem_cons.1 hfed with rfl | hfed
    · exact hfollows.stalls_eq_false hdrop
    · refine ih hfollows.isWait_pending (fun front hfront ↦ ?_) fed hfed
      -- The bytes behind the chunk are behind what it left.
      obtain ⟨hdrop', hlimit'⟩ :=
        hcalm (chunk ++ front) ((List.prefix_append_right_inj chunk).2 hfront)
      obtain ⟨-, hdiscards, hrest⟩ := drain_append hdrop front
      rw [← List.append_assoc] at hdrop' hlimit'
      rw [hfollows.pending, config_feed, ← hdiscards, ← hrest]
      exact ⟨hdrop', hlimit'⟩

/-- **A run of feeds returns what one run of attempts returns, down to the first feed that drops
bytes**, and it drops bytes exactly if that run does. -/
theorem responses_throughDiscard (hwait : (Head.read decoder.pending).isWait = true)
    (hquiet : handler.raised? = none)
    (hstall : ∀ fed ∈ decoder.feedAll handler chunks, fed.stalls = false) :
    (Feed.throughDiscard (decoder.feedAll handler chunks)).flatMap Feed.responses =
        (drain handler (decoder.pending ++ chunks.flatten)).frames.map Frame.response ∧
      ((∀ fed ∈ decoder.feedAll handler chunks, fed.discards = []) ↔
        (drain handler (decoder.pending ++ chunks.flatten)).discards = []) := by
  induction chunks generalizing decoder with
  | nil =>
    rw [List.flatten_nil, List.append_nil, frames_drain_of_isWait hwait,
      discards_drain_of_isWait hwait]
    exact ⟨rfl, fun _ ↦ rfl, fun _ fed hfed ↦ absurd hfed (List.not_mem_nil)⟩
  | cons chunk chunks ih =>
    rw [List.flatten_cons, ← List.append_assoc]
    rw [feedAll_cons] at hstall ⊢
    have hfollows := follows_of_stalls_eq_false hwait (raised_drain hquiet _)
      (hstall _ List.mem_cons_self)
    by_cases hfirst : (drain handler (decoder.pending ++ chunk)).discards = []
    · obtain ⟨hframes, hdiscards, -⟩ := drain_append hfirst chunks.flatten
      rw [← hfollows.pending] at hframes hdiscards
      obtain ⟨hresponses, hiff⟩ := ih hfollows.isWait_pending
        fun fed hfed ↦ hstall fed (List.mem_cons_of_mem _ hfed)
      refine ⟨?_, ?_⟩
      · rw [Feed.throughDiscard, if_pos (hfollows.discards.trans hfirst), List.flatMap_cons,
          hfollows.responses_eq, hresponses, hframes, List.map_append]
      · rw [List.forall_mem_cons, hdiscards, hiff]
        exact and_iff_right (hfollows.discards.trans hfirst)
    · -- The first chunk drops bytes, and no frame comes of what follows.
      obtain ⟨hframes, hdiscards⟩ := drain_append_of_discards hfirst chunks.flatten
      refine ⟨?_, ?_⟩
      · rw [Feed.throughDiscard, if_neg (hfollows.discards ▸ hfirst), List.flatMap_singleton,
          hfollows.responses_eq, hframes]
      · rw [List.forall_mem_cons, hfollows.discards]
        exact ⟨fun h ↦ absurd h.1 hfirst, fun h ↦ absurd h hdiscards⟩

end Decoder

/-! ### Waiting for a byte -/

/-- A feed that returns no response and drops nothing. -/
structure Feed.IsSilent (fed : Feed) : Prop where
  /-- No response is returned. -/
  outcome : fed.outcome = .ok []
  /-- Nothing is dropped. -/
  discards : fed.discards = []

/-- A run of feeds that are all silent, and so keep every byte. -/
structure Decoder.Keeps (decoder : Decoder) (handler : DiscardHandler) (chunks : List Bytes) :
    Prop where
  /-- Every feed is silent. -/
  silent : ∀ fed ∈ decoder.feedAll handler chunks, fed.IsSilent
  /-- After each, all bytes so far are pending. -/
  pending : ∀ k : Nat,
    (decoder.atEnd ((decoder.feedAll handler chunks).take k)).pending =
      decoder.pending ++ (chunks.take k).flatten

/-- The feed that the `n`-th byte arrives with, all feeds before it being silent. -/
structure Decoder.Awaits (decoder : Decoder) (handler : DiscardHandler) (chunks : List Bytes)
    (n k : Nat) (fed : Feed) : Prop where
  /-- The byte is not among those of the chunks before. -/
  before : (chunks.take k).flatten.length < n
  /-- The byte is among those of the chunk. -/
  within : n ≤ (chunks.take (k + 1)).flatten.length
  /-- The feed is that of the chunk. -/
  feed : (decoder.feedAll handler chunks)[k]? = some fed
  /-- The feeds of the chunks before are silent. -/
  silent : ∀ earlier ∈ (decoder.feedAll handler chunks).take k, earlier.IsSilent

theorem isPrefix_flatten_take (k : Nat) (chunks : List Bytes) :
    (chunks.take k).flatten <+: chunks.flatten :=
  ⟨(chunks.drop k).flatten, by rw [← List.flatten_append, List.take_append_drop]⟩

/-- Every byte arrives with a chunk. -/
theorem exists_take_flatten {chunks : List Bytes} {n : Nat} (hpos : 0 < n)
    (hn : n ≤ chunks.flatten.length) :
    ∃ k chunk, chunks[k]? = some chunk ∧ (chunks.take k).flatten.length < n ∧
      n ≤ (chunks.take k).flatten.length + chunk.length := by
  induction chunks generalizing n with
  | nil => exact absurd hn (Nat.not_le.2 hpos)
  | cons first chunks ih =>
    rw [List.flatten_cons, List.length_append] at hn
    by_cases hfirst : n ≤ first.length
    · exact ⟨0, first, rfl, hpos, by simpa using hfirst⟩
    · obtain ⟨k, chunk, hchunk, hbefore, hwithin⟩ :=
        ih (n := n - first.length) (by omega) (by omega)
      refine ⟨k + 1, chunk, hchunk, ?_, ?_⟩
      · rw [List.take_succ_cons, List.flatten_cons, List.length_append]
        omega
      · rw [List.take_succ_cons, List.flatten_cons, List.length_append]
        omega

namespace Decoder

variable {decoder : Decoder} {handler : DiscardHandler} {chunks : List Bytes}

/-- Every feed of a run is one on what the feeds before it left. -/
theorem getElem?_feedAll {k : Nat} {chunk : Bytes} (hchunk : chunks[k]? = some chunk) :
    (decoder.feedAll handler chunks)[k]? =
      some ((decoder.atEnd ((decoder.feedAll handler chunks).take k)).feed handler chunk) := by
  induction chunks generalizing decoder k with
  | nil => cases hchunk
  | cons first chunks ih =>
    match k with
    | 0 =>
      cases hchunk
      rfl
    | k + 1 => exact ih hchunk

/-- **A run on bytes no front of which is complete keeps them.** -/
theorem keeps_of_isWait (hstall : ∀ fed ∈ decoder.feedAll handler chunks, fed.stalls = false)
    (hwait : ∀ front, front <+: chunks.flatten →
      (Head.read (decoder.pending ++ front)).isWait = true) :
    decoder.Keeps handler chunks := by
  have hpending : (Head.read decoder.pending).isWait = true := by
    simpa using hwait [] List.nil_prefix
  -- One run of attempts on the bytes of the first chunks makes a single one.
  have hafter : ∀ k : Nat,
      (∀ fed ∈ decoder.feedAll handler (chunks.take k), fed.IsSilent) ∧
        (decoder.atEnd (decoder.feedAll handler (chunks.take k))).pending =
          decoder.pending ++ (chunks.take k).flatten := by
    intro k
    have hfront := hwait _ (isPrefix_flatten_take k chunks)
    obtain ⟨hquiet, hresponses, hrest⟩ := feedAll_of_discards_eq_nil hpending
      (forall_mem_feedAll_take hstall k) (discards_drain_of_isWait hfront)
    rw [frames_drain_of_isWait hfront] at hresponses
    refine ⟨fun fed hfed ↦ ?_, by rw [hrest, rest_drain_of_isWait hfront]⟩
    obtain ⟨hdiscards, houtcome⟩ := hquiet fed hfed
    rw [List.flatMap_eq_nil_iff.1 hresponses fed hfed] at houtcome
    exact ⟨houtcome, hdiscards⟩
  refine ⟨?_, fun k ↦ ?_⟩
  · have hall := (hafter chunks.length).1
    rwa [List.take_length] at hall
  · rw [← feedAll_take]
    exact (hafter k).2

/-- **A run on bytes that wait for the `n`-th** is silent until it arrives, and then does what a run
of attempts on all bytes so far does. -/
theorem exists_awaits {n : Nat} (hquiet : handler.raised? = none) (hempty : decoder.pending = [])
    (hstall : ∀ fed ∈ decoder.feedAll handler chunks, fed.stalls = false) (hpos : 0 < n)
    (hn : n ≤ chunks.flatten.length)
    (hwait : ∀ front, front <+: chunks.flatten → front.length < n →
      (Head.read front).isWait = true) :
    ∃ k fed, decoder.Awaits handler chunks n k fed ∧
      fed.Follows (drain handler (chunks.take (k + 1)).flatten) := by
  obtain ⟨k, chunk, hchunk, hbefore, hwithin⟩ := exists_take_flatten hpos hn
  have hnext : (chunks.take (k + 1)).flatten = (chunks.take k).flatten ++ chunk := by
    rw [List.take_add_one, hchunk, List.flatten_append, Option.toList_some, List.flatten_singleton]
  have hprefix := isPrefix_flatten_take k chunks
  have hkeeps : decoder.Keeps handler (chunks.take k) := by
    refine keeps_of_isWait (forall_mem_feedAll_take hstall k) fun front hfront ↦ ?_
    rw [hempty, List.nil_append]
    exact hwait front (hfront.trans hprefix) (Nat.lt_of_le_of_lt hfront.length_le hbefore)
  have hfed := @getElem?_feedAll decoder handler _ _ _ hchunk
  have hpending := hkeeps.pending k
  rw [hempty, List.nil_append, List.take_take, Nat.min_self, feedAll_take, List.take_take,
    Nat.min_self] at hpending
  refine ⟨k, _, ⟨hbefore, ?_, hfed, ?_⟩, ?_⟩
  · rw [hnext, List.length_append]
    exact hwithin
  · rw [← feedAll_take]
    exact hkeeps.silent
  · rw [hnext, ← hpending]
    refine follows_of_stalls_eq_false ?_ (raised_drain hquiet _)
      (hstall _ (List.mem_of_getElem? hfed))
    rw [hpending]
    exact hwait _ hprefix hbefore

end Decoder

end Rcon
