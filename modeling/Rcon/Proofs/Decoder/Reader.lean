import Rcon.Proofs.Decoder.Turns

/-!
# Reading a buffer at an offset

A decoder says what is pending. A `Reader` says how that is kept: in a buffer that is read at an
offset. A frame moves the offset and leaves the buffer as it is; the bytes in front of the offset
are dropped when a run of attempts is over (`Reader.compact`). What a function of the caller raises
in the middle of a run leaves at once, before anything is dropped.

**A reader is a decoder** (`play_ofDecoder`): fed and reset alike the two end alike and drop the
same, and between two operations the reader has nothing in its buffer but what is pending for the
decoder, and reads it from the start. For whatever raises has cleared the buffer first.
-/

namespace Rcon

/-- A decoder that reads its buffer at an offset. -/
structure Reader where
  /-- The settings of the decoder. -/
  config : Config
  /-- The bytes that are kept. -/
  buffer : Bytes := []
  /-- The number of bytes in front that are spent. -/
  offset : Nat := 0
  /-- The number of chunks since the last that completed a frame. -/
  continuations : Nat := 0
  deriving DecidableEq, Repr

/-- A run of attempts of a reader. -/
structure Reading where
  /-- The reader as the run leaves it. -/
  reader : Reader
  /-- The attempts, in order. -/
  attempts : List Attempt
  /-- What a function of the caller raised, which ended the run. -/
  raised : Option Raised := none

namespace Reading

/-- A run with an attempt in front of it. -/
def after (attempt : Attempt) (reading : Reading) : Reading :=
  { reading with attempts := attempt :: reading.attempts }

/-- The frames that a run completed. -/
def frames (reading : Reading) : List Frame :=
  reading.attempts.filterMap Attempt.frame?

/-- The discards that a run made. -/
def discards (reading : Reading) : List Discard :=
  reading.attempts.filterMap Attempt.discard?

end Reading

namespace Reader

/-! ### What a reader does -/

/-- The bytes that are not spent. -/
def unread (reader : Reader) : Bytes :=
  reader.buffer.drop reader.offset

/-- A reader with nothing in its buffer. -/
def clear (reader : Reader) : Reader :=
  { config := reader.config }

/-- A chunk is put behind the others. -/
def append (reader : Reader) (chunk : Bytes) : Reader :=
  { reader with buffer := reader.buffer ++ chunk, continuations := reader.continuations + 1 }

/-- A frame is spent. -/
def spend (reader : Reader) (frame : Frame) : Reader :=
  { reader with offset := reader.offset + frame.length, continuations := 0 }

/-- The bytes that are spent are dropped. -/
def compact (reader : Reader) : Reader :=
  if reader.offset = 0 then reader else { reader with buffer := reader.unread, offset := 0 }

theorem unread_spend (reader : Reader) (frame : Frame) :
    (reader.spend frame).unread = reader.unread.drop frame.length := by
  rw [unread, spend, ← List.drop_drop, unread]

theorem length_unread_spend_lt {reader : Reader} {frame : Frame}
    (hread : Head.read reader.unread = .frame frame) :
    (reader.spend frame).unread.length < reader.unread.length := by
  have hle := Head.length_le_of_read hread
  have hpos := frame.length_pos
  rw [unread_spend, List.length_drop]
  omega

theorem length_unread_clear_lt {reader : Reader} {first second : UInt8}
    (hread : Head.read reader.unread = .malformed first second) :
    reader.clear.unread.length < reader.unread.length :=
  Nat.lt_of_lt_of_le (show 0 < Protocol.minFrameBytes by decide)
    (Head.minFrameBytes_le_of_read hread)

/-- Attempts at the offset until one stops. -/
def read (handler : DiscardHandler) (reader : Reader) : Reading :=
  match _hread : Head.read reader.unread with
  | .frame frame =>
    (read handler (reader.spend frame)).after ⟨reader.unread.length, .frame frame⟩
  | .malformed first second =>
    match handler.raised? with
    | some what => ⟨reader.clear, [⟨reader.unread.length, .malformed first second⟩], some what⟩
    | none => (read handler reader.clear).after ⟨reader.unread.length, .malformed first second⟩
  | .waiting why => ⟨reader, [⟨reader.unread.length, .waiting why⟩], none⟩
  | .short => ⟨reader, [⟨reader.unread.length, .short⟩], none⟩
termination_by reader.unread.length
decreasing_by
  · exact length_unread_spend_lt _hread
  · exact length_unread_clear_lt _hread

/-- Feeds a chunk: how it ends, and what is dropped. -/
def feed (reader : Reader) (handler : DiscardHandler) (chunk : Bytes) :
    Reader × Outcome × List Discard :=
  if chunk = [] then (reader, .ok [], [])
  else
    let reading := (reader.append chunk).read handler
    match reading.raised with
    | some what => (reading.reader, .error (.raised what), reading.discards)
    | none =>
      let left := reading.reader.compact
      let pending := left.unread.length
      let limit := left.config.maxPendingBytes
      if reading.frames = [] ∧ limit < pending then
        match left.config.stallPolicy with
        | .throw => (left, .error (.stall ⟨pending, limit⟩), reading.discards)
        | .discard => (left.clear, handler.outcome, reading.discards ++ [⟨.stalled, pending⟩])
      else (left, .ok (reading.frames.map Frame.response), reading.discards)

/-- Takes a turn. -/
def perform (reader : Reader) (turn : Turn) : Reader × Outcome × List Discard :=
  match turn.operation with
  | .feed chunk => reader.feed turn.handler chunk
  | .reset => (reader.clear, .ok [], [])

/-- Takes one turn after the other. -/
def play (reader : Reader) : List Turn → List (Reader × Outcome × List Discard)
  | [] => []
  | turn :: rest => reader.perform turn :: (reader.perform turn).1.play rest

/-- The reader as turns leave it. -/
def after (reader : Reader) : List Turn → Reader
  | [] => reader
  | turn :: rest => (reader.perform turn).1.after rest

/-- The reader of a decoder: what is pending, with nothing in front of it. -/
def ofDecoder (decoder : Decoder) : Reader where
  config := decoder.config
  buffer := decoder.pending
  continuations := decoder.continuations

/-! ### A run of attempts -/

/-- Dropping what is spent leaves what is not, at the start. -/
theorem compact_eq (reader : Reader) :
    reader.compact =
      { config := reader.config
        buffer := reader.unread
        continuations := reader.continuations } := by
  rw [compact]
  split
  · next hzero =>
    obtain ⟨config, buffer, offset, continuations⟩ := reader
    obtain rfl : offset = 0 := hzero
    rfl
  · rfl

theorem compact_clear (reader : Reader) : reader.clear.compact = reader.clear := rfl

/-- An attempt that takes bytes off sets the count back, whatever follows it. -/
theorem ite_any_consumes_cons {attempt : Attempt} (h : attempt.consumes = true)
    (attempts : List Attempt) (count : Nat) :
    (if (attempt :: attempts).any Attempt.consumes then 0 else count) = 0 := by
  rw [List.any_cons, h, Bool.true_or, if_pos rfl]

/-- **A reader makes the attempts of a run on what it has not read**, and keeps what the run leaves.
What is raised finds the buffer cleared. -/
theorem read_eq (handler : DiscardHandler) (reader : Reader) :
    (reader.read handler).attempts = (drain handler reader.unread).attempts ∧
      (reader.read handler).raised = (drain handler reader.unread).raised ∧
      (reader.read handler).reader.compact =
        { config := reader.config
          buffer := (drain handler reader.unread).rest
          continuations :=
            if (drain handler reader.unread).attempts.any Attempt.consumes then 0
            else reader.continuations } ∧
      ((reader.read handler).raised ≠ none → (reader.read handler).reader = reader.clear) := by
  fun_induction read handler reader with
  | case1 reader frame hread ih =>
    rw [unread_spend] at ih
    obtain ⟨hattempts, hraised, hcompact, hclear⟩ := ih
    rw [drain_of_frame hread]
    refine ⟨?_, hraised, ?_, hclear⟩
    · rw [Reading.after, hattempts]
      rfl
    · rw [Reading.after, hcompact, Drain.after, ite_any_consumes_cons rfl]
      simp only [spend, ite_self]
  | case2 reader first second hread what hraised =>
    rw [drain_of_malformed_of_raised hraised hread]
    exact ⟨rfl, rfl, rfl, fun _ ↦ rfl⟩
  | case3 reader first second hread hraised ih =>
    rw [show reader.clear.unread = [] from rfl, drain_nil] at ih
    obtain ⟨hattempts, hnone, hcompact, hclear⟩ := ih
    rw [drain_of_malformed hraised hread]
    refine ⟨?_, hnone, hcompact, hclear⟩
    rw [Reading.after, hattempts]
  | case4 reader why hread =>
    rw [drain_of_isWait (by rw [hread]; rfl), hread]
    exact ⟨rfl, rfl, compact_eq reader, fun h ↦ absurd rfl h⟩
  | case5 reader hread =>
    rw [drain_of_isWait (by rw [hread]; rfl), hread]
    exact ⟨rfl, rfl, compact_eq reader, fun h ↦ absurd rfl h⟩

/-! ### A reader and its decoder -/

variable (decoder : Decoder) (handler : DiscardHandler)

section Feed

variable {decoder handler} {chunk : Bytes}

/-- The run of attempts of a reader, beside that of its decoder. -/
theorem read_append_ofDecoder (decoder : Decoder) (handler : DiscardHandler) (chunk : Bytes) :
    let reading := ((ofDecoder decoder).append chunk).read handler
    reading.frames = (decoder.runOn handler chunk).frames ∧
      reading.discards = (decoder.runOn handler chunk).discards ∧
      reading.raised = (decoder.runOn handler chunk).raised ∧
      reading.reader.compact = ofDecoder (decoder.drained (decoder.runOn handler chunk)) ∧
      (reading.raised ≠ none → reading.reader.compact = reading.reader) := by
  intro reading
  obtain ⟨hattempts, hraised, hcompact, hclear⟩ :=
    read_eq handler ((ofDecoder decoder).append chunk)
  refine ⟨?_, ?_, hraised, hcompact, fun hwhat ↦ ?_⟩
  · exact congrArg (List.filterMap Attempt.frame?) hattempts
  · exact congrArg (List.filterMap Attempt.discard?) hattempts
  · rw [show reading.reader = _ from hclear hwhat, compact_clear]

/-- What is raised leaves a reader as the run of attempts leaves the decoder. -/
theorem feed_of_raised {what : Raised} (hchunk : chunk ≠ [])
    (hwhat : (decoder.runOn handler chunk).raised = some what) :
    (ofDecoder decoder).feed handler chunk =
      (ofDecoder (decoder.drained (decoder.runOn handler chunk)), .error (.raised what),
        (decoder.runOn handler chunk).discards) := by
  obtain ⟨-, hdiscards, hraised, hcompact, hclear⟩ := read_append_ofDecoder decoder handler chunk
  rw [hwhat] at hraised
  have hreader := hclear (by rw [hraised]; exact Option.some_ne_none what)
  rw [feed, if_neg hchunk]
  simp only [hraised, hdiscards]
  rw [← hreader, hcompact]

/-- When nothing is raised, a reader looks at the limit. -/
theorem feed_of_not_raised (hchunk : chunk ≠ [])
    (hnone : (decoder.runOn handler chunk).raised = none) :
    let pending := (decoder.runOn handler chunk).rest.length
    let limit := decoder.config.maxPendingBytes
    let left := ofDecoder (decoder.drained (decoder.runOn handler chunk))
    (ofDecoder decoder).feed handler chunk =
      if decoder.Overflows handler chunk then
        match decoder.config.stallPolicy with
        | .throw => (left, .error (.stall ⟨pending, limit⟩), (decoder.runOn handler chunk).discards)
        | .discard =>
          (left.clear, handler.outcome,
            (decoder.runOn handler chunk).discards ++ [⟨.stalled, pending⟩])
      else
        (left, .ok ((decoder.runOn handler chunk).frames.map Frame.response),
          (decoder.runOn handler chunk).discards) := by
  obtain ⟨hframes, hdiscards, hraised, hcompact, -⟩ := read_append_ofDecoder decoder handler chunk
  rw [feed, if_neg hchunk]
  simp only [hraised, hnone, hframes, hdiscards, hcompact]
  rfl

end Feed

/-- **A reader that is fed as its decoder is** ends as the reader of what that becomes. -/
theorem feed_ofDecoder (chunk : Bytes) :
    (ofDecoder decoder).feed handler chunk =
      (ofDecoder (decoder.feed handler chunk).decoder, (decoder.feed handler chunk).outcome,
        (decoder.feed handler chunk).discards) := by
  have hfeeds := decoder.feeds handler chunk
  generalize decoder.feed handler chunk = fed at hfeeds ⊢
  cases hfeeds with
  | idle hchunk =>
    subst hchunk
    rfl
  | calm hchunk hcalm =>
    rcases hraised : (decoder.runOn handler chunk).raised with - | what
    · rw [feed_of_not_raised hchunk hraised, if_neg hcalm, Drain.outcome, hraised]
      rfl
    · rw [feed_of_raised hchunk hraised, Drain.outcome, hraised]
      rfl
  | stalling hchunk hpolicy hover =>
    rw [feed_of_not_raised hchunk hover.raised_eq, if_pos hover, hpolicy, ← hover.rest_eq]
    rfl
  | dropping hchunk hpolicy hover =>
    rw [feed_of_not_raised hchunk hover.raised_eq, if_pos hover, hpolicy, hover.discards_eq,
      Decoder.feedDropping, ← hover.rest_eq]
    rfl

theorem perform_ofDecoder (turn : Turn) :
    (ofDecoder decoder).perform turn =
      (ofDecoder (decoder.perform turn).decoder, (decoder.perform turn).outcome,
        (decoder.perform turn).discards) := by
  obtain ⟨operation, handler⟩ := turn
  cases operation with
  | feed chunk => exact feed_ofDecoder decoder handler chunk
  | reset => rfl

/-- **A reader is its decoder**, whatever is done to them, and never has anything in front of what
is pending. -/
theorem play_ofDecoder (turns : List Turn) :
    (ofDecoder decoder).play turns =
      (decoder.play turns).map fun fed ↦ (ofDecoder fed.decoder, fed.outcome, fed.discards) := by
  induction turns generalizing decoder with
  | nil => rfl
  | cons turn rest ih =>
    rw [play, Decoder.play, List.map_cons, perform_ofDecoder, ih]

/-- Turns leave the reader of a decoder as that of what they leave of the decoder. -/
theorem after_ofDecoder (turns : List Turn) :
    (ofDecoder decoder).after turns = ofDecoder (decoder.after turns) := by
  induction turns generalizing decoder with
  | nil => rfl
  | cons turn rest ih =>
    rw [after, perform_ofDecoder, ih]
    rfl

end Reader

end Rcon
