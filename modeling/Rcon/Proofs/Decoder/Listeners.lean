import Rcon.Log.Logger
import Rcon.Proofs.Decoder.Telling

/-!
# Who listens

A session in a changing environment (`Session.play`), and what of it a caller sees who does not look
at the log (`Seen`).

Two things are needed for the log to have no say. What a session shows that tells when a feed is
over must be what a reader shows that tells as it goes (`Session.performTelling_eq`): then nothing
that a log answers or remembers comes back. And of the settings of a decoder only the length of
previews may differ: **a decoder with another length of previews is otherwise the same after every
feed** (`Decoder.feed_previewing`).

Together: two sessions that are fed and reset alike show the same, whoever listens to them and
whatever the environment says about logging at each step (`Session.seen_play_eq`).
-/

namespace Rcon

/-! ### Sessions in a changing environment -/

/-- A turn, and the environment that it finds. -/
structure Session.Moment where
  /-- What is done, and what the caller does about a discard. -/
  turn : Turn
  /-- What the process is told from outside. -/
  environment : Environment

namespace Session

/-- A session at a moment. -/
def facing (session : Session) (moment : Moment) : Session :=
  { session with
    handler := moment.turn.handler
    settings := Log.Settings.ofEnvironment moment.environment }

/-- What a session does at a moment. -/
def perform (session : Session) (moment : Moment) : Session × Report :=
  (session.facing moment).step moment.turn.operation

/-- What a session does at one moment after the other, each report with the decoder that is left. -/
def play (session : Session) : List Moment → List (Decoder × Report)
  | [] => []
  | moment :: rest =>
    ((session.perform moment).1.decoder, (session.perform moment).2) ::
      (session.perform moment).1.play rest

end Session

/-! ### A session tells as it goes -/

/-- What a log has got so far. -/
structure Heard where
  /-- What it remembers. -/
  journal : Log.Journal
  /-- The records that a caller was handed. -/
  records : List Log.Record := []
  /-- What became of the others. -/
  effects : List Log.Effect := []

namespace Listener

/-- A listener as a log. -/
def recorder (listener : Listener) (settings : Log.Settings) : Log.Recorder Heard where
  debugEnabled _ :=
    match listener with
    | .caller debug => debug
    | .component => settings.admits .debug
  write record heard :=
    match listener with
    | .caller _ => { heard with records := heard.records ++ [record] }
    | .component =>
      let written := heard.journal.log settings Session.component record
      { heard with journal := written.2, effects := heard.effects ++ written.1 }

theorem foldl_write_caller (debug : Bool) (settings : Log.Settings) (records : List Log.Record)
    (heard : Heard) :
    records.foldl (fun heard record ↦ ((caller debug).recorder settings).write record heard) heard =
      { heard with records := heard.records ++ records } := by
  induction records generalizing heard with
  | nil => rw [List.append_nil]; rfl
  | cons record rest ih =>
    rw [List.foldl_cons, ih, recorder]
    simp only [List.append_assoc, List.singleton_append]

theorem foldl_write_component (settings : Log.Settings) (records : List Log.Record)
    (heard : Heard) :
    records.foldl (fun heard record ↦ (component.recorder settings).write record heard) heard =
      { heard with
        journal := (heard.journal.logAll settings Session.component records).2
        effects :=
          heard.effects ++ (heard.journal.logAll settings Session.component records).1 } := by
  induction records generalizing heard with
  | nil => rw [Log.Journal.logAll, List.append_nil]; rfl
  | cons record rest ih =>
    rw [List.foldl_cons, ih, recorder, Log.Journal.logAll]
    simp only [List.append_assoc]

end Listener

/-- **No note raises in the log of a component**: each has a line, so to write it is no misuse. -/
theorem Log.Logger.step_write_note (logger : Log.Logger) (environment : Environment) (limit : Nat)
    (note : Note) :
    let settings := Log.Settings.ofEnvironment environment
    let written := logger.journal.log settings logger.component (note.record limit)
    logger.step ⟨environment, some (.write (note.record limit))⟩ =
      .ok ({ logger with journal := written.2 }, { effects := written.1 }) := by
  have hline := note.isSome_line?_record (Log.Settings.ofEnvironment environment).format
    logger.journal.time logger.component limit
  refine if_neg fun h ↦ ?_
  rw [show Log.Entry.line? _ _ = none from h.2] at hline
  cases hline

/-- **A log that gives the same answer all along** is told the notes that are made for it. -/
theorem Log.Recorder.hearAll_of_steady {σ : Type} {recorder : Log.Recorder σ} {debug : Bool}
    (hsteady : ∀ state, recorder.debugEnabled state = debug) (limit : Nat) (state : σ)
    (notes : List Note) :
    recorder.hearAll limit state notes =
      ((notes.filter (Note.isMade debug)).map (Note.record limit)).foldl
        (fun state record ↦ recorder.write record state) state := by
  induction notes generalizing state with
  | nil => rfl
  | cons note rest ih =>
    rw [hearAll, List.foldl_cons, hear, hsteady]
    by_cases hmade : note.isMade debug = true
    · rw [if_pos hmade, List.filter_cons_of_pos hmade]
      exact ih _
    · rw [if_neg hmade, List.filter_cons_of_neg hmade]
      exact ih _

namespace Session

/-- What a session hands to its log, the log has heard at the end of the feed. -/
theorem hearAll_recorder (session : Session) (notes : List Note) :
    (session.listener.recorder session.settings).hearAll session.decoder.config.bodyPreviewChars
        ⟨session.journal, [], []⟩ notes =
      ⟨(session.log (session.recordsOf notes)).1.journal,
        (session.log (session.recordsOf notes)).2.records,
        (session.log (session.recordsOf notes)).2.effects⟩ := by
  have hsteady (heard : Heard) : (session.listener.recorder session.settings).debugEnabled heard =
      session.debugEnabled := rfl
  rw [Log.Recorder.hearAll_of_steady hsteady, log]
  rcases hlistener : session.listener with debug | -
  · rw [Listener.foldl_write_caller]
    rfl
  · rw [Listener.foldl_write_component]
    rfl

/-- **A session shows what a reader shows that tells as it goes**, and its log has heard the
same. -/
theorem performTelling_eq (session : Session) (moment : Moment) :
    let recorder := session.listener.recorder (session.facing moment).settings
    let told := ((Reader.ofDecoder session.decoder).performTelling recorder moment.turn).run
      ⟨session.journal, [], []⟩
    let performed := session.perform moment
    told.1.1 = Reader.ofDecoder performed.1.decoder ∧
      told.1.2.1 = performed.2.outcome.getD (.ok []) ∧
      moment.turn.handler.told told.1.2.2 = performed.2.discards ∧
      told.2 = ⟨performed.1.journal, performed.2.records, performed.2.effects⟩ := by
  intro recorder told performed
  have htold : told = _ :=
    Reader.run_performTelling_ofDecoder recorder ⟨session.journal, [], []⟩ session.decoder
      moment.turn
  obtain ⟨hdecoder, -⟩ := (session.facing moment).step_fst moment.turn.operation
  obtain ⟨houtcome, hdiscards⟩ := (session.facing moment).step_snd moment.turn.operation
  rw [htold, Reader.perform_ofDecoder]
  refine ⟨congrArg Reader.ofDecoder hdecoder.symm, houtcome.symm, hdiscards.symm, ?_⟩
  obtain ⟨⟨operation, handler⟩, environment⟩ := moment
  cases operation with
  | feed chunk =>
    exact (session.facing ⟨⟨.feed chunk, handler⟩, environment⟩).hearAll_recorder
      (session.decoder.feed handler chunk).notes
  | reset => rfl

end Session

/-! ### Previews -/

namespace Decoder

/-- A decoder with previews of another length. -/
def previewing (decoder : Decoder) (limit : Nat) : Decoder :=
  { decoder with config := { decoder.config with bodyPreviewChars := limit } }

/-- Two decoders at the same place of the same stream whose settings say the same about stalls
differ in nothing but their previews. -/
theorem Agrees.eq_previewing {first second : Decoder} (h : first.Agrees second)
    (hlimit : first.config.maxPendingBytes = second.config.maxPendingBytes)
    (hpolicy : first.config.stallPolicy = second.config.stallPolicy) :
    second = first.previewing second.config.bodyPreviewChars := by
  obtain ⟨⟨limit, policy, preview, hpos⟩, pending, continuations⟩ := first
  obtain ⟨⟨limit', policy', preview', hpos'⟩, pending', continuations'⟩ := second
  obtain ⟨rfl, rfl⟩ := h
  obtain rfl : limit = limit' := hlimit
  obtain rfl : policy = policy' := hpolicy
  rfl

/-- **A feed does the same whatever the length of previews is.** -/
theorem feed_previewing (decoder : Decoder) (limit : Nat) (handler : DiscardHandler)
    (chunk : Bytes) :
    (decoder.previewing limit).feed handler chunk =
      { decoder.feed handler chunk with
        decoder := (decoder.feed handler chunk).decoder.previewing limit } := by
  have hfeeds := decoder.feeds handler chunk
  generalize decoder.feed handler chunk = fed at hfeeds ⊢
  cases hfeeds with
  | idle hchunk =>
    subst hchunk
    rfl
  | calm hchunk hcalm => exact feed_of_not_overflows hchunk hcalm
  | stalling hchunk hpolicy hover => exact feed_of_overflows_of_throw hchunk hpolicy hover
  | dropping hchunk hpolicy hover => exact feed_of_overflows_of_discard hchunk hpolicy hover

theorem play_previewing (decoder : Decoder) (limit : Nat) (turns : List Turn) :
    (decoder.previewing limit).play turns =
      (decoder.play turns).map fun fed ↦ { fed with decoder := fed.decoder.previewing limit } := by
  induction turns generalizing decoder with
  | nil => rfl
  | cons turn rest ih =>
    have hperform : (decoder.previewing limit).perform turn =
        { decoder.perform turn with
          decoder := (decoder.perform turn).decoder.previewing limit } := by
      obtain ⟨operation, handler⟩ := turn
      cases operation with
      | feed chunk => exact feed_previewing decoder limit handler chunk
      | reset => rfl
    rw [play, play, List.map_cons, hperform, ih]

end Decoder

/-! ### What is seen without the log -/

/-- What is seen of a step by who does not look at the log. -/
structure Seen where
  /-- The number of bytes that are pending. -/
  pendingBytes : Nat
  /-- The number of chunks since the last that completed a frame. -/
  continuations : Nat
  /-- How the step ends. -/
  outcome : Outcome
  /-- The discards. -/
  discards : List Discard

namespace Seen

/-- What a decoder shows. -/
def ofFeed (fed : Feed) : Seen :=
  ⟨fed.decoder.pending.length, fed.decoder.continuations, fed.outcome, fed.discards⟩

/-- What a session shows: of its discards, those that the caller is told of. -/
def ofReport (shown : Decoder × Session.Report) : Seen :=
  ⟨shown.1.pending.length, shown.1.continuations, shown.2.outcome.getD (.ok []), shown.2.discards⟩

/-- What a reader shows. -/
def ofReader (shown : Reader × Outcome × List Discard) : Seen :=
  ⟨shown.1.unread.length, shown.1.continuations, shown.2.1, shown.2.2⟩

/-- What is seen by the caller of a turn. -/
def told (shown : Seen) (turn : Turn) : Seen :=
  { shown with discards := turn.handler.told shown.discards }

end Seen

namespace Session

/-- A session shows what its decoder does in each turn. -/
theorem map_play (session : Session) (moments : List Moment) :
    (session.play moments).map Seen.ofReport =
      List.zipWith Seen.told ((session.decoder.play (moments.map Moment.turn)).map Seen.ofFeed)
        (moments.map Moment.turn) := by
  induction moments generalizing session with
  | nil => rfl
  | cons moment rest ih =>
    obtain ⟨hdecoder, -⟩ := (session.facing moment).step_fst moment.turn.operation
    obtain ⟨houtcome, hdiscards⟩ := (session.facing moment).step_snd moment.turn.operation
    have hshown : Seen.ofReport ((session.perform moment).1.decoder, (session.perform moment).2) =
        (Seen.ofFeed (session.decoder.perform moment.turn)).told moment.turn := by
      rw [Seen.ofReport, perform, houtcome, hdiscards, hdecoder]
      rfl
    have hleft : (session.perform moment).1.decoder =
        (session.decoder.perform moment.turn).decoder := hdecoder
    rw [play, List.map_cons, ih, hshown, hleft]
    rfl

/-- **The log has no say.** Two decoders at the same place of the same stream that are to do the
same about stalls show the same at every step, if they are fed and reset alike and their callers do
the same about discards. It makes no difference how long their previews are, who listens to them,
what the environment says about logging at each step, or what was logged before. Nor does it if they
tell their logs as they go, whatever the logs remember, and answer in the middle of a feed. -/
theorem seen_play_eq {first second : Session} (hagree : first.decoder.Agrees second.decoder)
    (hlimit : first.decoder.config.maxPendingBytes = second.decoder.config.maxPendingBytes)
    (hpolicy : first.decoder.config.stallPolicy = second.decoder.config.stallPolicy)
    {moments moments' : List Moment}
    (hturns : moments.map Moment.turn = moments'.map Moment.turn) :
    (first.play moments).map Seen.ofReport = (second.play moments').map Seen.ofReport ∧
      ∀ {σ τ : Type} (logged : List (Turn × Log.Recorder σ))
        (logged' : List (Turn × Log.Recorder τ)) (state : σ) (state' : τ),
        logged.map Prod.fst = logged'.map Prod.fst →
        (((Reader.ofDecoder first.decoder).playTelling logged).run state).1.map Seen.ofReader =
          (((Reader.ofDecoder second.decoder).playTelling logged').run state').1.map
            Seen.ofReader := by
  have hsecond := hagree.eq_previewing hlimit hpolicy
  have hplay (turns : List Turn) : (second.decoder.play turns).map Seen.ofFeed =
      (first.decoder.play turns).map Seen.ofFeed := by
    rw [hsecond, Decoder.play_previewing, List.map_map]
    rfl
  have hreader (turns : List Turn) (decoder : Decoder) :
      ((Reader.ofDecoder decoder).play turns).map Seen.ofReader =
        (decoder.play turns).map Seen.ofFeed := by
    rw [Reader.play_ofDecoder, List.map_map]
    rfl
  constructor
  · rw [map_play, map_play, hturns, hplay]
  · intro σ τ logged logged' state state' hsame
    rw [Reader.fst_run_playTelling_ofDecoder, Reader.fst_run_playTelling_ofDecoder, hsame, hreader,
      hreader, hplay]

/-- One is heard by nobody and cuts its previews to nothing; the other writes to the console, then
into a file, then nothing. A log that counts wants debug output now and then. -/
theorem seen_play_eq_heard_and_unheard :
    let config : Config := { Config.default with bodyPreviewChars := 0 }
    let journal : Log.Journal := ⟨⟨"1970-01-01T00:00:00.000Z", by decide⟩, []⟩
    let first : Session := ⟨Decoder.fresh config, .absent, .caller false, {}, journal⟩
    let second : Session := ⟨Decoder.fresh .default, .absent, .component, {}, journal⟩
    let packet := Packet.bytes ⟨11, 123456789, 0, [65], 0, 0⟩
    let turns : List Turn :=
      [⟨.feed (packet.take 5), .absent⟩, ⟨.feed (packet.drop 5), .returns⟩,
        ⟨.feed (Packet.bytes ⟨10, 999, 0, [], 1, 2⟩), .raises (.error "no")⟩, ⟨.reset, .absent⟩]
    let moments : List Moment := turns.map fun turn ↦ ⟨turn, {}⟩
    let moments' : List Moment :=
      turns.zipWith Moment.mk
        [{ logLevel := some "debug" }, { logLevel := some "DEBUG", logFile := some "logs/a.log" },
          { logLevel := some "error", logJson := some "1" }, {}]
    let listed : Log.Recorder (List Log.Record) :=
      ⟨fun _ ↦ true, fun record heard ↦ record :: heard⟩
    let counted : Log.Recorder Nat := ⟨fun n ↦ n % 2 = 0, fun _ n ↦ n + 1⟩
    (first.play moments).map Seen.ofReport = (second.play moments').map Seen.ofReport ∧
      (((Reader.ofDecoder first.decoder).playTelling (turns.map fun turn ↦ (turn, listed))).run
          []).1.map Seen.ofReader =
        (((Reader.ofDecoder second.decoder).playTelling (turns.map fun turn ↦ (turn, counted))).run
          1).1.map Seen.ofReader ∧
      (first.play moments).map (fun shown ↦ shown.2.effects.length) = [0, 0, 0, 0] ∧
      (second.play moments').map (fun shown ↦ shown.2.effects.length) = [1, 3, 0, 0] := by
  intro config journal first second packet turns moments moments' listed counted
  have hagree : first.decoder.Agrees second.decoder := ⟨rfl, rfl⟩
  obtain ⟨hsessions, hreaders⟩ :=
    seen_play_eq hagree rfl rfl (show moments.map Moment.turn = moments'.map Moment.turn from rfl)
  exact ⟨hsessions, hreaders _ _ _ _ rfl, by decide +kernel, by decide +kernel⟩

end Session

end Rcon
