import Rcon.Config.Basic
import Rcon.Decoder.Note
import Rcon.Error

/-!
# The decoder

A decoder takes the chunks of a stream as they arrive and returns the responses that each completes.
Between chunks it keeps the bytes that are no complete frame yet and counts the chunks since the
last one that was.

Feeding a chunk is a run of **attempts** on the buffered bytes (`drain`). An attempt takes a
complete frame off them, drops them all, or stops the run; nothing else ends it, and it ends because
every other attempt leaves fewer bytes. If the run completes no frame and more bytes are left than
the limit allows, the stall policy decides (`Decoder.settle`): they are dropped, or an error is
raised and they are kept.

Whenever bytes are dropped the caller may be told. The decoder has let go of them by then, so
whatever the caller's function raises leaves it empty and in order.
-/

namespace Rcon

/-! ### Discards -/

/-- Why bytes are dropped. -/
inductive DiscardReason
  /-- The end of a split response is not followed by zeros. -/
  | malformedTerminator
  /-- More bytes are buffered than allowed, and no frame of them is complete. -/
  | stalled
  deriving DecidableEq, Repr

namespace DiscardReason

/-- The name of a reason. -/
def name : DiscardReason → String
  | .malformedTerminator => "malformed-terminator"
  | .stalled => "stalled"

end DiscardReason

/-- Buffered bytes that were dropped without a frame. -/
structure Discard where
  /-- Why they were dropped. -/
  reason : DiscardReason
  /-- How many they were. -/
  bytes : Nat
  deriving DecidableEq, Repr

/-- What the caller does about a discard. -/
inductive DiscardHandler
  /-- Nobody is told. -/
  | absent
  /-- The caller takes notice. -/
  | returns
  /-- The caller takes notice and raises something. -/
  | raises (what : Raised)
  deriving DecidableEq, Repr

namespace DiscardHandler

/-- What the caller raises. -/
def raised? : DiscardHandler → Option Raised
  | .raises what => some what
  | _ => none

/-- The discards that the caller is told of. -/
def told (handler : DiscardHandler) (discards : List Discard) : List Discard :=
  match handler with
  | .absent => []
  | _ => discards

end DiscardHandler

/-! ### Attempts -/

/-- An attempt on the buffered bytes. -/
structure Attempt where
  /-- The number of bytes that were buffered. -/
  pending : Nat
  /-- What stood first in them. -/
  head : Head
  deriving DecidableEq, Repr

namespace Attempt

/-- The frame that an attempt completed. -/
def frame? (attempt : Attempt) : Option Frame :=
  match attempt.head with
  | .frame frame => some frame
  | _ => none

/-- The discard that an attempt made. -/
def discard? (attempt : Attempt) : Option Discard :=
  match attempt.head with
  | .malformed .. => some ⟨.malformedTerminator, attempt.pending⟩
  | _ => none

/-- What there is to say about an attempt. -/
def note? (attempt : Attempt) : Option Note :=
  match attempt.head with
  | .frame frame => some (.completed frame (attempt.pending - frame.length))
  | .malformed first second => some (.malformed attempt.pending first second)
  | .waiting why => some (.waiting why)
  | .short => none

/-- Does an attempt take bytes off the buffer? -/
def consumes (attempt : Attempt) : Bool :=
  attempt.frame?.isSome || attempt.discard?.isSome

end Attempt

/-- A run of attempts. -/
structure Drain where
  /-- The attempts, in order. -/
  attempts : List Attempt
  /-- The bytes left behind them. -/
  rest : Bytes
  /-- What a function of the caller raised, which ended the run. -/
  raised : Option Raised := none
  deriving DecidableEq, Repr

namespace Drain

/-- A run with an attempt in front of it. -/
def after (attempt : Attempt) (run : Drain) : Drain :=
  { run with attempts := attempt :: run.attempts }

/-- The frames that a run completed. -/
def frames (run : Drain) : List Frame :=
  run.attempts.filterMap Attempt.frame?

/-- The discards that a run made. -/
def discards (run : Drain) : List Discard :=
  run.attempts.filterMap Attempt.discard?

/-- What there is to say about a run. -/
def notes (run : Drain) : List Note :=
  run.attempts.filterMap Attempt.note?

end Drain

/-- Attempts on the buffered bytes until one stops. **A frame takes its bytes off and a malformed
packet drops all**, and both go on with what is left. -/
def drain (handler : DiscardHandler) (pending : Bytes) : Drain :=
  match _hread : Head.read pending with
  | .frame frame =>
    (drain handler (pending.drop frame.length)).after ⟨pending.length, .frame frame⟩
  | .malformed first second =>
    match handler.raised? with
    | some what => ⟨[⟨pending.length, .malformed first second⟩], [], some what⟩
    | none => (drain handler []).after ⟨pending.length, .malformed first second⟩
  | .waiting why => ⟨[⟨pending.length, .waiting why⟩], pending, none⟩
  | .short => ⟨[⟨pending.length, .short⟩], pending, none⟩
termination_by pending.length
decreasing_by
  -- A frame takes as many bytes as it is long, and those are there.
  · have hle := Head.length_le_of_read _hread
    have hpos := frame.length_pos
    rw [List.length_drop]
    omega
  -- A packet is dropped only where some bytes are.
  · have hle := Head.minFrameBytes_le_of_read _hread
    simp only [Protocol.minFrameBytes] at hle
    simp only [List.length_nil]
    omega

/-! ### The decoder -/

/-- The error of a stream that does not recover. -/
structure Stall where
  /-- The number of bytes that are buffered. -/
  pending : Nat
  /-- The number that is allowed. -/
  limit : Nat
  deriving DecidableEq, Repr

namespace Stall

/-- A stall as an error of the library. -/
def toError (stall : Stall) : RconError :=
  .frameStall (.ofNat stall.pending) (.ofNat stall.limit)

end Stall

/-- What leaves a feed that does not return. -/
inductive Failure
  /-- The stream does not recover. -/
  | stall (stall : Stall)
  /-- A function of the caller raised something. -/
  | raised (what : Raised)
  deriving DecidableEq, Repr

/-- How a feed ends: with responses, or with a failure. -/
abbrev Outcome := Except Failure (List Response)

/-- A decoder. -/
structure Decoder where
  /-- The settings. -/
  config : Config
  /-- The bytes that are no complete frame yet. -/
  pending : Bytes := []
  /-- The number of chunks since the last that completed a frame. -/
  continuations : Nat := 0
  deriving DecidableEq, Repr

/-- What feeding a chunk does. -/
structure Feed where
  /-- The decoder afterwards. -/
  decoder : Decoder
  /-- How it ends. -/
  outcome : Outcome
  /-- The attempts that were made. -/
  attempts : List Attempt := []
  /-- The discards that were made. -/
  discards : List Discard := []
  /-- What there is to say about it. -/
  notes : List Note := []

namespace Decoder

/-- A decoder with nothing buffered. -/
def reset (decoder : Decoder) : Decoder :=
  { config := decoder.config }

/-- A decoder after a run of attempts on its bytes and one more chunk. -/
def drained (decoder : Decoder) (run : Drain) : Decoder where
  config := decoder.config
  pending := run.rest
  continuations := if run.attempts.any Attempt.consumes then 0 else decoder.continuations + 1

/-- What is done after a run that completed no frame and left more bytes than allowed. -/
def stall (decoder : Decoder) (handler : DiscardHandler) : Feed :=
  let pending := decoder.pending.length
  let limit := decoder.config.maxPendingBytes
  match decoder.config.stallPolicy with
  | .throw => { decoder, outcome := .error (.stall ⟨pending, limit⟩) }
  | .discard =>
    { decoder := decoder.reset
      outcome :=
        match handler.raised? with
        | some what => .error (.raised what)
        | none => .ok []
      discards := [⟨.stalled, pending⟩]
      notes := [.stalled pending limit] }

/-- How a feed ends after a run of attempts that left the decoder as it is here. -/
def settle (decoder : Decoder) (handler : DiscardHandler) (run : Drain) : Feed :=
  match run.raised with
  | some what => { decoder, outcome := .error (.raised what) }
  | none =>
    if run.frames = [] ∧ decoder.config.maxPendingBytes < decoder.pending.length then
      decoder.stall handler
    else { decoder, outcome := .ok (run.frames.map Frame.response) }

/-- Feeds a chunk. An empty chunk does nothing at all. -/
def feed (decoder : Decoder) (handler : DiscardHandler) (chunk : Bytes) : Feed :=
  if chunk = [] then { decoder, outcome := .ok [] }
  else
    let pending := decoder.pending ++ chunk
    let run := drain handler pending
    let ended := (decoder.drained run).settle handler run
    { ended with
      attempts := run.attempts
      discards := run.discards ++ ended.discards
      notes :=
        .received chunk.length pending.length (0 < decoder.continuations) ::
          (run.notes ++ ended.notes) }

end Decoder

end Rcon
