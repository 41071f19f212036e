import Rcon.Decoder.Basic
import Rcon.Log.Journal

/-!
# Sessions

A decoder at work: it is fed and reset, the caller is told of discards, and its notes go to a log.
What a step shows to the outside is its `Report`.

The log is either one that the caller keeps, which takes every record that is made, or the log of a
component, which filters records by level and writes lines. **The log only listens**: nothing that
it is or does enters a decision of the decoder.
-/

namespace Rcon

/-- Where the notes of a decoder go. -/
inductive Listener
  /-- Records are handed to the caller, who may or may not want debug output. -/
  | caller (debug : Bool)
  /-- Records become lines of the decoder's component. -/
  | component
  deriving DecidableEq, Repr

/-- What is done to a decoder. -/
inductive Operation
  /-- A chunk arrives. -/
  | feed (chunk : Bytes)
  /-- What is buffered is let go. -/
  | reset
  deriving DecidableEq, Repr

/-- A decoder at work. -/
structure Session where
  /-- The decoder. -/
  decoder : Decoder
  /-- What the caller does about a discard. -/
  handler : DiscardHandler
  /-- Where its notes go. -/
  listener : Listener
  /-- What the environment says about logging. -/
  settings : Log.Settings
  /-- The state of the log. -/
  journal : Log.Journal

namespace Session

/-- The component that a decoder logs as. -/
def component : String := "decoder"

/-- What a step shows. -/
structure Report where
  /-- How a feed ends; a reset does not say. -/
  outcome : Option Outcome := none
  /-- The discards that the caller is told of. -/
  discards : List Discard := []
  /-- The records that the caller is handed. -/
  records : List Log.Record := []
  /-- The effects of the log. -/
  effects : List Log.Effect := []

/-- Are debug records made at all? -/
def debugEnabled (session : Session) : Bool :=
  match session.listener with
  | .caller debug => debug
  | .component => session.settings.admits .debug

/-- The records that notes are made into. -/
def recordsOf (session : Session) (notes : List Note) : List Log.Record :=
  (notes.filter (Note.isMade session.debugEnabled)).map
    (Note.record session.decoder.config.bodyPreviewChars)

/-- Hands records to where they go. -/
def log (session : Session) (records : List Log.Record) : Session × Report :=
  match session.listener with
  | .caller _ => (session, { records })
  | .component =>
    let written := session.journal.logAll session.settings component records
    ({ session with journal := written.2 }, { effects := written.1 })

/-- Does one thing to the decoder. -/
def step (session : Session) : Operation → Session × Report
  | .feed chunk =>
    let fed := session.decoder.feed session.handler chunk
    let logged := session.log (session.recordsOf fed.notes)
    ({ logged.1 with decoder := fed.decoder },
      { logged.2 with
        outcome := some fed.outcome
        discards := session.handler.told fed.discards })
  | .reset => ({ session with decoder := session.decoder.reset }, {})

/-- Does one thing after the other. The reports come with the decoder as each step leaves it. -/
def run (session : Session) : List Operation → List (Decoder × Report)
  | [] => []
  | operation :: rest =>
    let stepped := session.step operation
    (stepped.1.decoder, stepped.2) :: stepped.1.run rest

end Session

end Rcon
