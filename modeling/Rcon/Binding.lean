import Rcon.Decoder.Session

/-!
# Bound sources

A decoder bound to sources of events, such as connections. Every chunk that a source delivers is fed
to the decoder, and the responses go to the handler of responses one by one. When a source closes,
what is buffered is let go.

* A failure of the decoder goes to the handler of errors as an error, or out of the event when there
  is no such handler. A stalled stream is reset first, so that the next chunk starts anew.
* **What the handler of responses raises leaves the event**: it is no failure of the decoder, and
  the responses behind it are lost.
* All sources feed the one decoder, and which of them an event comes from makes no difference.
-/

namespace Rcon

/-- The kinds of value that are delivered in place of bytes. -/
inductive ChunkType
  | string
  | number
  | bigint
  | boolean
  | symbol
  | function
  | undefined
  | object
  deriving DecidableEq, Repr

namespace ChunkType

/-- The name of a kind. -/
def name : ChunkType → String
  | .string => "string"
  | .number => "number"
  | .bigint => "bigint"
  | .boolean => "boolean"
  | .symbol => "symbol"
  | .function => "function"
  | .undefined => "undefined"
  | .object => "object"

/-- The kinds of value. -/
def all : List ChunkType :=
  [.string, .number, .bigint, .boolean, .symbol, .function, .undefined, .object]

/-- The kind with a name. -/
def ofName? (name : String) : Option ChunkType :=
  all.find? fun t ↦ t.name = name

end ChunkType

/-- What happens on a source. -/
inductive Happening
  /-- Bytes are delivered. -/
  | data (chunk : Bytes)
  /-- Something else is delivered in their place. -/
  | nonBinary (type : ChunkType)
  /-- The source closes. -/
  | close
  deriving DecidableEq, Repr

/-- An event of one of the bound sources. -/
structure SourceEvent where
  /-- The source. -/
  source : Nat
  /-- What happens on it. -/
  happening : Happening
  deriving DecidableEq, Repr

/-- The handlers that responses, errors and closes go to. -/
structure Handlers where
  /-- The number of the response that the handler of responses raises at, counted from one. -/
  responseRaisesAt : Option Nat := none
  /-- What it raises there. -/
  responseRaises : Raised := .error ""
  /-- Is there a handler of errors? -/
  onError : Bool := false
  /-- Is there a handler of closes? -/
  onClose : Bool := false
  deriving DecidableEq, Repr

/-- A call of a handler. -/
inductive Call
  | response (response : Response)
  | error (failure : Failure)
  | close
  deriving DecidableEq, Repr

namespace Failure

/-- A failure as the handler of errors gets it: a bare text becomes the message of an error. -/
def toError : Failure → Failure
  | .stall stalled => .stall stalled
  | .raised what => .raised what.toError

end Failure

/-- A decoder bound to sources. -/
structure Binding where
  /-- The decoder at work. -/
  session : Session
  /-- The handlers. -/
  handlers : Handlers
  /-- The number of responses handled so far. -/
  handled : Nat := 0

namespace Binding

/-- The component that a binding logs as. -/
def component : String := "stream"

/-- What an event shows. -/
structure Report where
  /-- The calls of handlers, in order. -/
  calls : List Call := []
  /-- What leaves the event. -/
  thrown : Option Failure := none
  /-- The discards that the caller is told of. -/
  discards : List Discard := []
  /-- The effects of the log. -/
  effects : List Log.Effect := []

/-! ### The log of a binding -/

/-- The record of a delivery that is no bytes. -/
def nonBinaryRecord (type : ChunkType) : Log.Record :=
  ⟨.warn, "Ignoring non-binary chunk; do not set an encoding on the source",
    [(Units.ofString "chunkType", .ofString type.name)]⟩

/-- The record of a stalled stream. -/
def stallRecord (stall : Stall) : Log.Record :=
  ⟨.warn, "Decoder stalled, resetting", [Note.natField "pending" stall.pending]⟩

/-- The record of a source that closes within a frame. -/
def partialRecord (pending : Nat) : Log.Record :=
  ⟨.debug, "Source closed with a partial frame buffered", [Note.natField "pending" pending]⟩

/-- Writes records to the log of the binding. -/
def log (binding : Binding) (records : List Log.Record) : Binding × List Log.Effect :=
  let session := binding.session
  let written := session.journal.logAll session.settings component records
  ({ binding with session := { session with journal := written.2 } }, written.1)

/-! ### Responses and failures -/

/-- Hands responses to their handler, until it raises. -/
def deliver (binding : Binding) : List Response → Binding × Report
  | [] => (binding, {})
  | response :: rest =>
    let binding := { binding with handled := binding.handled + 1 }
    if binding.handlers.responseRaisesAt = some binding.handled then
      (binding,
        { calls := [.response response], thrown := some (.raised binding.handlers.responseRaises) })
    else
      let delivered := binding.deliver rest
      (delivered.1, { delivered.2 with calls := .response response :: delivered.2.calls })

/-- What a failure does to the binding, and what is logged about it. -/
def recover (binding : Binding) : Failure → Binding × List Log.Effect
  | .stall stalled =>
    let logged := binding.log [stallRecord stalled]
    let session := logged.1.session
    ({ logged.1 with session := { session with decoder := session.decoder.reset } }, logged.2)
  | .raised _ => (binding, [])

/-- Where a failure goes. -/
def fail (binding : Binding) (failure : Failure) : Binding × Report :=
  let recovered := binding.recover failure
  (recovered.1,
    if binding.handlers.onError then
      { calls := [.error failure.toError], effects := recovered.2 }
    else { thrown := some failure, effects := recovered.2 })

/-! ### Events -/

/-- Bytes are delivered. -/
def data (binding : Binding) (chunk : Bytes) : Binding × Report :=
  let fed := binding.session.step (.feed chunk)
  let binding := { binding with session := fed.1 }
  let handled :=
    match fed.2.outcome with
    | some (.error failure) => binding.fail failure
    | some (.ok responses) => binding.deliver responses
    | none => (binding, {})
  (handled.1,
    { handled.2 with
      discards := fed.2.discards
      effects := fed.2.effects ++ handled.2.effects })

/-- Something else is delivered. -/
def nonBinary (binding : Binding) (type : ChunkType) : Binding × Report :=
  let logged := binding.log [nonBinaryRecord type]
  (logged.1, { effects := logged.2 })

/-- A source closes. -/
def close (binding : Binding) : Binding × Report :=
  let pending := binding.session.decoder.pending.length
  let logged := binding.log (if 0 < pending then [partialRecord pending] else [])
  let session := logged.1.session
  ({ logged.1 with session := { session with decoder := session.decoder.reset } },
    { calls := if binding.handlers.onClose then [.close] else [], effects := logged.2 })

/-- What an event does. -/
def step (binding : Binding) (event : SourceEvent) : Binding × Report :=
  match event.happening with
  | .data chunk => binding.data chunk
  | .nonBinary type => binding.nonBinary type
  | .close => binding.close

/-- What events do, one after the other. The reports come with the decoder as each event leaves
it. -/
def run (binding : Binding) : List SourceEvent → List (Decoder × Report)
  | [] => []
  | event :: rest =>
    let stepped := binding.step event
    (stepped.1.session.decoder, stepped.2) :: stepped.1.run rest

end Binding

end Rcon
