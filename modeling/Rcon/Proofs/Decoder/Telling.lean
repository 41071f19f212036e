import Rcon.Proofs.Decoder.Accesses

/-!
# Telling the log

A decoder collects what there is to say, and a session tells it when the feed is over. A reader that
tells its log (`Reader.feedTelling`) does so **at the moment at which it happens**: a chunk when it
is in the buffer, a frame when the offset has moved behind it, a malformed packet and a stall while
the bytes that are dropped are still there. It asks the log in the middle of a run whether a
preview is wanted, and goes by the answer of that moment.

The log may be anything that answers and takes records (`Log.Recorder`), and may answer otherwise
after every record. **A reader does what it does without a log, and the log hears the notes of its
decoder, in order** (`Reader.run_feedTelling_ofDecoder`): each field that is read off the buffer at
some moment is the one that the decoder notes down.
-/

namespace Rcon

/-! ### Logs -/

/-- A log, as who writes to it sees it. -/
structure Log.Recorder (σ : Type) where
  /-- Would debug records be written? -/
  debugEnabled : σ → Bool
  /-- A record is written. -/
  write : Log.Record → σ → σ

namespace Log.Recorder

variable {σ : Type} (recorder : Log.Recorder σ) (limit : Nat)

/-- A log behind one more note. What is made only for debug output is made if the log says so. -/
def hear (state : σ) (note : Note) : σ :=
  if note.isMade (recorder.debugEnabled state) then recorder.write (note.record limit) state
  else state

/-- Tells a note. -/
def tell (note : Note) : StateM σ Unit :=
  modify fun state ↦ recorder.hear limit state note

@[simp] theorem run_tell (note : Note) (state : σ) :
    (recorder.tell limit note).run state = ((), recorder.hear limit state note) := rfl

/-- A log behind notes. -/
def hearAll (state : σ) (notes : List Note) : σ :=
  notes.foldl (recorder.hear limit) state

theorem hearAll_append (state : σ) (notes more : List Note) :
    recorder.hearAll limit state (notes ++ more) =
      recorder.hearAll limit (recorder.hearAll limit state notes) more :=
  List.foldl_append

end Log.Recorder

/-! ### A reader that tells -/

namespace Reader

variable {σ : Type}

/-- Attempts at the offset until one stops, each told to the log. -/
def readTelling (recorder : Log.Recorder σ) (handler : DiscardHandler) (reader : Reader) :
    StateM σ Reading :=
  let tell := recorder.tell reader.config.bodyPreviewChars
  match _hread : Head.read reader.unread with
  | .frame frame => do
    let spent := reader.spend frame
    tell (.completed frame spent.unread.length)
    let reading ← spent.readTelling recorder handler
    return reading.after ⟨reader.unread.length, .frame frame⟩
  | .malformed first second => do
    tell (.malformed reader.unread.length first second)
    match handler.raised? with
    | some what =>
      return ⟨reader.clear, [⟨reader.unread.length, .malformed first second⟩], some what⟩
    | none =>
      let reading ← reader.clear.readTelling recorder handler
      return reading.after ⟨reader.unread.length, .malformed first second⟩
  | .waiting why => do
    tell (.waiting why)
    return ⟨reader, [⟨reader.unread.length, .waiting why⟩], none⟩
  | .short => return ⟨reader, [⟨reader.unread.length, .short⟩], none⟩
termination_by reader.unread.length
decreasing_by
  · exact length_unread_spend_lt _hread
  · exact length_unread_clear_lt _hread

/-- What is done behind a run of attempts in which nothing was raised. -/
def settleTelling (recorder : Log.Recorder σ) (left : Reader) (handler : DiscardHandler)
    (reading : Reading) : StateM σ (Reader × Outcome × List Discard) :=
  let pending := left.unread.length
  let limit := left.config.maxPendingBytes
  if reading.frames = [] ∧ limit < pending then
    match left.config.stallPolicy with
    | .throw => return (left, .error (.stall ⟨pending, limit⟩), reading.discards)
    | .discard => do
      recorder.tell left.config.bodyPreviewChars (.stalled pending limit)
      return (left.clear, handler.outcome, reading.discards ++ [⟨.stalled, pending⟩])
  else return (left, .ok (reading.frames.map Frame.response), reading.discards)

/-- Feeds a chunk and tells the log. -/
def feedTelling (recorder : Log.Recorder σ) (reader : Reader) (handler : DiscardHandler)
    (chunk : Bytes) : StateM σ (Reader × Outcome × List Discard) :=
  if chunk = [] then return (reader, .ok [], [])
  else do
    let appended := reader.append chunk
    recorder.tell reader.config.bodyPreviewChars
      (.received chunk.length appended.unread.length (1 < appended.continuations))
    let reading ← appended.readTelling recorder handler
    match reading.raised with
    | some what => return (reading.reader, .error (.raised what), reading.discards)
    | none => reading.reader.compact.settleTelling recorder handler reading

/-- Takes a turn. A reset is not worth a word. -/
def performTelling (recorder : Log.Recorder σ) (reader : Reader) (turn : Turn) :
    StateM σ (Reader × Outcome × List Discard) :=
  match turn.operation with
  | .feed chunk => reader.feedTelling recorder turn.handler chunk
  | .reset => return (reader.clear, .ok [], [])

/-- Takes one turn after the other, each with a log of its own on what they all remember: what the
environment says about logging may change in between. -/
def playTelling (reader : Reader) :
    List (Turn × Log.Recorder σ) → StateM σ (List (Reader × Outcome × List Discard))
  | [] => return []
  | (turn, recorder) :: rest => do
    let shown ← reader.performTelling recorder turn
    return shown :: (← shown.1.playTelling rest)

/-! ### A run of attempts -/

section Read

variable (recorder : Log.Recorder σ) {handler : DiscardHandler} {reader : Reader} (state : σ)

/-- A run that finds a frame tells it when the offset has moved, and goes on. -/
theorem run_readTelling_of_frame {frame : Frame} (hread : Head.read reader.unread = .frame frame) :
    (reader.readTelling recorder handler).run state =
      (((reader.spend frame).readTelling recorder handler).run
        (recorder.hear reader.config.bodyPreviewChars state
          (.completed frame (reader.spend frame).unread.length))).map
        (Reading.after ⟨reader.unread.length, .frame frame⟩) id := by
  rw [readTelling]
  split <;> simp_all
  rfl

/-- A run that finds a malformed packet tells it before the buffer is cleared, and what is then
raised ends the run. -/
theorem run_readTelling_of_malformed_of_raised {first second : UInt8} {what : Raised}
    (hraised : handler.raised? = some what)
    (hread : Head.read reader.unread = .malformed first second) :
    (reader.readTelling recorder handler).run state =
      (⟨reader.clear, [⟨reader.unread.length, .malformed first second⟩], some what⟩,
        recorder.hear reader.config.bodyPreviewChars state
          (.malformed reader.unread.length first second)) := by
  rw [readTelling]
  split <;> simp_all
  rfl

/-- A run that finds a malformed packet tells it and goes on, if nothing is raised. -/
theorem run_readTelling_of_malformed {first second : UInt8} (hquiet : handler.raised? = none)
    (hread : Head.read reader.unread = .malformed first second) :
    (reader.readTelling recorder handler).run state =
      ((reader.clear.readTelling recorder handler).run
        (recorder.hear reader.config.bodyPreviewChars state
          (.malformed reader.unread.length first second))).map
        (Reading.after ⟨reader.unread.length, .malformed first second⟩) id := by
  rw [readTelling]
  split <;> simp_all
  rfl

/-- A run that has to wait says why, if it can. -/
theorem run_readTelling_of_waiting {why : Wait} (hread : Head.read reader.unread = .waiting why) :
    (reader.readTelling recorder handler).run state =
      (⟨reader, [⟨reader.unread.length, .waiting why⟩], none⟩,
        recorder.hear reader.config.bodyPreviewChars state (.waiting why)) := by
  rw [readTelling]
  split <;> simp_all
  rfl

theorem run_readTelling_of_short (hread : Head.read reader.unread = .short) :
    (reader.readTelling recorder handler).run state =
      (⟨reader, [⟨reader.unread.length, .short⟩], none⟩, state) := by
  rw [readTelling]
  split <;> simp_all
  rfl

end Read

variable (recorder : Log.Recorder σ) (handler : DiscardHandler) (reader : Reader) (state : σ)

/-- **A run of attempts is what it is without a log**, and the log hears the notes of the run. -/
theorem run_readTelling :
    (reader.readTelling recorder handler).run state =
      (reader.read handler,
        recorder.hearAll reader.config.bodyPreviewChars state
          (drain handler reader.unread).notes) := by
  fun_induction read handler reader generalizing state with
  | case1 reader frame hread ih =>
    -- What is unread when the offset has moved is what the attempt had, but for the frame.
    have hleft : (reader.spend frame).unread.length = reader.unread.length - frame.length := by
      rw [unread_spend, List.length_drop]
    rw [run_readTelling_of_frame recorder state hread, ih, drain_of_frame hread, hleft,
      unread_spend]
    rfl
  | case2 reader first second hread what hraised =>
    rw [run_readTelling_of_malformed_of_raised recorder state hraised hread,
      drain_of_malformed_of_raised hraised hread]
    rfl
  | case3 reader first second hread hraised ih =>
    rw [show reader.clear.unread = [] from rfl, drain_nil] at ih
    rw [run_readTelling_of_malformed recorder state hraised hread, ih,
      drain_of_malformed hraised hread]
    rfl
  | case4 reader why hread =>
    rw [run_readTelling_of_waiting recorder state hread, drain_of_isWait (by rw [hread]; rfl),
      hread]
    rfl
  | case5 reader hread =>
    rw [run_readTelling_of_short recorder state hread, drain_of_isWait (by rw [hread]; rfl), hread]
    rfl

/-! ### Feeds -/

/-- What is done behind a run is done as without a log. The log hears of a stall that drops bytes,
and of nothing else. -/
theorem run_settleTelling (decoder : Decoder) {reading : Reading} {run : Drain}
    (hframes : reading.frames = run.frames) (hraised : run.raised = none) :
    ((ofDecoder decoder).settleTelling recorder handler reading).run state =
      ((ofDecoder decoder).settle handler reading,
        recorder.hearAll decoder.config.bodyPreviewChars state
          (decoder.settle handler run).notes) := by
  rw [settleTelling, settle, Decoder.settle, hraised, hframes]
  by_cases hover : run.frames = [] ∧ decoder.config.maxPendingBytes < decoder.pending.length
  · simp only [ofDecoder, unread, List.drop_zero, if_pos hover, Decoder.stall]
    rcases decoder.config.stallPolicy with - | - <;> rfl
  · simp only [ofDecoder, unread, List.drop_zero, if_neg hover]
    rfl

/-- A feed tells of the chunk and of the attempts, and then of what is done behind them. -/
theorem run_feedTelling {chunk : Bytes} (hchunk : chunk ≠ []) :
    (reader.feedTelling recorder handler chunk).run state =
      let reading := (reader.append chunk).read handler
      let heard := recorder.hearAll reader.config.bodyPreviewChars state
        (.received chunk.length (reader.append chunk).unread.length (0 < reader.continuations) ::
          (drain handler (reader.append chunk).unread).notes)
      match reading.raised with
      | some what => ((reading.reader, .error (.raised what), reading.discards), heard)
      | none => (reading.reader.compact.settleTelling recorder handler reading).run heard := by
  have hcount : decide (1 < (reader.append chunk).continuations) =
      decide (0 < reader.continuations) := decide_eq_decide.2 Nat.succ_lt_succ_iff
  rw [feedTelling, if_neg hchunk]
  simp only [StateT.run_bind, Log.Recorder.run_tell, run_readTelling, hcount]
  show StateT.run _ _ = _
  rcases ((reader.append chunk).read handler).raised with - | what
  · rfl
  · rfl

/-- **A reader does what it does without a log**, and the log hears what its decoder notes. -/
theorem run_feedTelling_ofDecoder (decoder : Decoder) (chunk : Bytes) :
    ((ofDecoder decoder).feedTelling recorder handler chunk).run state =
      ((ofDecoder decoder).feed handler chunk,
        recorder.hearAll decoder.config.bodyPreviewChars state
          (decoder.feed handler chunk).notes) := by
  by_cases hchunk : chunk = []
  · subst hchunk
    rfl
  obtain ⟨hframes, -, hraised, hcompact, -⟩ := read_append_ofDecoder decoder handler chunk
  rw [run_feedTelling recorder handler _ state hchunk, feed_eq_settle hchunk]
  simp only
  rcases hwhat : (((ofDecoder decoder).append chunk).read handler).raised with - | what
  · rw [hwhat] at hraised
    simp only [hcompact]
    rw [run_settleTelling recorder handler _ _ hframes hraised.symm,
      Decoder.feed_of_settle hchunk rfl]
    exact Prod.ext rfl (recorder.hearAll_append _ _ _ _).symm
  · -- What is raised leaves at once, and the log hears no more.
    have hsettle : (decoder.drained (decoder.runOn handler chunk)).settle handler
        (decoder.runOn handler chunk) =
          { decoder := decoder.drained (decoder.runOn handler chunk)
            outcome := .error (.raised what) } := by
      rw [Decoder.settle, ← hraised, hwhat]
    rw [Decoder.feed_of_settle hchunk hsettle]
    simp only [List.append_nil]
    rfl

/-! ### Turns -/

/-- A turn ends as it does without a log, and the log hears the notes. -/
theorem run_performTelling_ofDecoder (decoder : Decoder) (turn : Turn) :
    ((ofDecoder decoder).performTelling recorder turn).run state =
      ((ofDecoder decoder).perform turn,
        recorder.hearAll decoder.config.bodyPreviewChars state (decoder.perform turn).notes) := by
  obtain ⟨operation, handler⟩ := turn
  cases operation with
  | feed chunk => exact run_feedTelling_ofDecoder recorder handler state decoder chunk
  | reset => rfl

/-- **Turns end as they do without a log**, whichever logs there are. -/
theorem fst_run_playTelling_ofDecoder (decoder : Decoder) (turns : List (Turn × Log.Recorder σ)) :
    (((ofDecoder decoder).playTelling turns).run state).1 =
      (ofDecoder decoder).play (turns.map Prod.fst) := by
  induction turns generalizing decoder state with
  | nil => rfl
  | cons first rest ih =>
    obtain ⟨turn, recorder⟩ := first
    rw [playTelling, List.map_cons, play]
    simp only [StateT.run_bind, run_performTelling_ofDecoder, perform_ofDecoder]
    exact congrArg (List.cons _) (ih _ _)

end Reader

end Rcon
