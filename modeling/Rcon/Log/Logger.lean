import Rcon.Error
import Rcon.Log.Journal

/-!
# Loggers

The log of a component as a program uses it. Records are written, and the program may ask whether
debug records would be, so that it need not make them. The environment may change at any time; every
use goes by the environment of its moment and by nothing that was asked before, except that a
directory is made once.

`Logger.run` tells what a logger does moment by moment. **A record that is to be written but has no
line is a misuse of the logger**: nothing is written then, and the run ends.
-/

namespace Rcon.Log

/-- What is asked of a logger. -/
inductive Request
  /-- A record is to be written. -/
  | write (record : Record)
  /-- Would debug records be written? -/
  | debugEnabled

/-- A moment in the life of a logger. -/
structure Moment where
  /-- The environment that it finds. -/
  environment : Environment
  /-- What is asked of it, if anything. -/
  request : Option Request := none

/-- What a logger does at a moment. -/
structure Reply where
  /-- What becomes of the record. -/
  effects : List Effect := []
  /-- The answer to the question. -/
  debugEnabled : Option Bool := none
  deriving DecidableEq, Repr

/-- The log of a component. -/
structure Logger where
  /-- The component. -/
  component : String
  /-- What is remembered between lines. -/
  journal : Journal

namespace Logger

/-- What a logger does at one moment. -/
def step (logger : Logger) (moment : Moment) : Except Misuse (Logger × Reply) :=
  let settings := Settings.ofEnvironment moment.environment
  match moment.request with
  | some (.write record) =>
    if settings.admits record.level ∧
        logger.journal.line? settings.format logger.component record = none then
      .error .noText
    else
      let written := logger.journal.log settings logger.component record
      .ok ({ logger with journal := written.2 }, { effects := written.1 })
  | some .debugEnabled => .ok (logger, { debugEnabled := some (settings.admits .debug) })
  | none => .ok (logger, {})

/-- What a logger does at one moment after the other. -/
def run (logger : Logger) : List Moment → Except Misuse (List Reply)
  | [] => .ok []
  | moment :: rest => do
    let stepped ← logger.step moment
    let replies ← stepped.1.run rest
    return stepped.2 :: replies

end Logger

end Rcon.Log
