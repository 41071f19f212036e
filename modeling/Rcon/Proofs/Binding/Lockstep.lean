import Rcon.Proofs.Binding.Events
import Rcon.Proofs.Decoder.Run

/-!
# Lockstep

A binding adds nothing to its decoder and loses nothing of it. Beside the bound decoder runs a bare
one: what is delivered to the one is fed to the other, a feed that stalls and a close are each
followed by a reset, and all else leaves it alone (`Decoder.follow`). What the bare decoder returns
and fails with says what the handlers are called with (`Decoder.echo`).

* **A turn shows the echo of what happens in it** (`Binding.shown_perform`), so turns show the
  echoes of what happens in them (`Binding.shows_eq_echoes`). This is where the handler of responses
  must raise nothing.
* The source of an event is not asked for (`Binding.perform_congr`).
* Handlers are called last. A handler that looks at the decoder finds it as the event leaves it
  (`Binding.visits_eq`): settled after a feed, empty after a close.

Echoes depend on the decoder and no more, so a close, which leaves a decoder like a new one, parts
turns in two halves that know nothing of each other (`Binding.shows_after_close`).
-/

namespace Rcon

/-! ### A bare decoder -/

/-- The decoder that a feed leaves, reset if the feed stalled. -/
def Feed.settled (fed : Feed) : Decoder :=
  match fed.outcome with
  | .error (.stall _) => fed.decoder.reset
  | _ => fed.decoder

/-- What an event shows, its log apart. -/
structure Shown where
  /-- The decoder as the event leaves it. -/
  decoder : Decoder
  /-- The calls of handlers, in order. -/
  calls : List Call := []
  /-- What leaves the event. -/
  thrown : Option Failure := none
  /-- The discards that the caller is told of. -/
  discards : List Discard := []
  deriving DecidableEq

/-- What a report shows next to a decoder. -/
def Shown.of (decoder : Decoder) (report : Binding.Report) : Shown :=
  ⟨decoder, report.calls, report.thrown, report.discards⟩

namespace Decoder

/-- What is done to a bare decoder for what happens on a source. -/
def follow (decoder : Decoder) (handler : DiscardHandler) : Happening → Decoder
  | .data chunk => (decoder.feed handler chunk).settled
  | .nonBinary _ => decoder
  | .close => decoder.reset

/-- **What handlers make of a bare decoder.** They get the responses that a feed returns, one by
one, or the error that it fails with, which leaves the event where no handler takes it; and they are
told of a close. -/
def echo (decoder : Decoder) (handler : DiscardHandler) (handlers : Handlers)
    (happening : Happening) : Shown :=
  let shown : Shown := { decoder := decoder.follow handler happening }
  match happening with
  | .data chunk =>
    let fed := decoder.feed handler chunk
    let shown := { shown with discards := handler.told fed.discards }
    match fed.outcome, handlers.onError with
    | .ok responses, _ => { shown with calls := responses.map .response }
    | .error failure, true => { shown with calls := [.error failure.toError] }
    | .error failure, false => { shown with thrown := some failure }
  | .nonBinary _ => shown
  | .close => { shown with calls := if handlers.onClose then [.close] else [] }

/-- Handlers leave the decoder where it is. -/
@[simp] theorem decoder_echo (decoder : Decoder) (handler : DiscardHandler) (handlers : Handlers)
    (happening : Happening) :
    (decoder.echo handler handlers happening).decoder = decoder.follow handler happening := by
  cases happening with
  | data chunk =>
    rw [echo]
    dsimp only
    split <;> rfl
  | nonBinary type => rfl
  | close => rfl

theorem config_follow (decoder : Decoder) (handler : DiscardHandler) (happening : Happening) :
    (decoder.follow handler happening).config = decoder.config := by
  cases happening with
  | data chunk =>
    rw [follow, Feed.settled]
    split
    · exact config_feed decoder handler chunk
    · exact config_feed decoder handler chunk
  | nonBinary type => rfl
  | close => rfl

/-- What handlers make of all that happens, where the caller may do something else about a discard
each time. -/
def echoes (decoder : Decoder) (handlers : Handlers) :
    List (Happening × DiscardHandler) → List Shown
  | [] => []
  | (happening, handler) :: rest =>
    decoder.echo handler handlers happening ::
      (decoder.follow handler happening).echoes handlers rest

end Decoder

/-- What happens in a turn and what the caller does about a discard, whichever the source. -/
def SourceTurn.sourceless (turn : SourceTurn) : Happening × DiscardHandler :=
  (turn.event.happening, turn.handler)

namespace Binding

/-! ### Sources -/

/-- **Which source an event comes from makes no difference.** -/
theorem perform_congr (binding : Binding) {turn other : SourceTurn}
    (h : turn.sourceless = other.sourceless) : binding.perform turn = binding.perform other := by
  obtain ⟨hhappening, hhandler⟩ := Prod.ext_iff.1 h
  rw [perform, perform, step, step, show turn.handler = other.handler from hhandler,
    show turn.event.happening = other.event.happening from hhappening]

theorem play_congr (binding : Binding) {turns others : List SourceTurn}
    (h : turns.map SourceTurn.sourceless = others.map SourceTurn.sourceless) :
    binding.play turns = binding.play others := by
  induction turns generalizing binding others with
  | nil => rw [List.map_eq_nil_iff.1 h.symm]
  | cons turn rest ih =>
    obtain ⟨other, others, rfl, hturn, hrest⟩ := List.map_eq_cons_iff.1 h.symm
    rw [play, play, binding.perform_congr hturn.symm, ih _ hrest.symm]

/-! ### What turns show -/

/-- What turns show, one by one. -/
def shows (binding : Binding) (turns : List SourceTurn) : List Shown :=
  (binding.play turns).map fun entry ↦ .of entry.1 entry.2

variable {binding : Binding}

theorem shows_cons (binding : Binding) (turn : SourceTurn) (rest : List SourceTurn) :
    binding.shows (turn :: rest) =
      .of (binding.perform turn).1.session.decoder (binding.perform turn).2 ::
        (binding.perform turn).1.shows rest :=
  rfl

/-- More turns show what they do to the binding as the others leave it. -/
theorem shows_append (binding : Binding) (turns rest : List SourceTurn) :
    binding.shows (turns ++ rest) = binding.shows turns ++ (binding.played turns).shows rest := by
  rw [shows, play_append, List.map_append]
  rfl

/-- **Delivered bytes show the echo of what the bare decoder does with them.** -/
theorem shown_data (hquiet : binding.handlers.responseRaisesAt = none) (chunk : Bytes) :
    .of (binding.data chunk).1.session.decoder (binding.data chunk).2 =
      binding.session.decoder.echo binding.session.handler binding.handlers (.data chunk) := by
  have hhandlers : (binding.fed chunk).handlers = binding.handlers := rfl
  rw [data_eq_handOn, Decoder.echo, Decoder.follow, Feed.settled]
  dsimp only
  rcases (binding.session.decoder.feed binding.session.handler chunk).outcome with
    failure | responses
  · rw [handOn, fail, hhandlers]
    rcases failure with stalled | what
    · rcases binding.handlers.onError with - | - <;> rfl
    · rcases binding.handlers.onError with - | - <;> rfl
  · rw [handOn, deliver_of_quiet _ _ fun n hn ↦ by rw [hhandlers, hquiet] at hn; cases hn]
    rfl

/-- **A turn shows the echo of what happens in it.** -/
theorem shown_perform (hquiet : binding.handlers.responseRaisesAt = none) (turn : SourceTurn) :
    .of (binding.perform turn).1.session.decoder (binding.perform turn).2 =
      binding.session.decoder.echo turn.handler binding.handlers turn.event.happening := by
  obtain ⟨⟨source, happening⟩, handler⟩ := turn
  cases happening with
  | data chunk => exact @shown_data (binding.facing handler) hquiet chunk
  | nonBinary type => rfl
  | close => rfl

/-- A turn leaves the decoder where the bare one is left. -/
theorem decoder_perform (hquiet : binding.handlers.responseRaisesAt = none) (turn : SourceTurn) :
    (binding.perform turn).1.session.decoder =
      binding.session.decoder.follow turn.handler turn.event.happening := by
  have hdecoder := congrArg Shown.decoder (shown_perform hquiet turn)
  rw [Decoder.decoder_echo] at hdecoder
  exact hdecoder

/-- **Turns show the echoes of what happens in them.** -/
theorem shows_eq_echoes (hquiet : binding.handlers.responseRaisesAt = none)
    (turns : List SourceTurn) :
    binding.shows turns =
      binding.session.decoder.echoes binding.handlers (turns.map SourceTurn.sourceless) := by
  induction turns generalizing binding with
  | nil => rfl
  | cons turn rest ih =>
    have hrest := @ih (binding.perform turn).1 (by rw [handlers_perform, hquiet])
    rw [handlers_perform, decoder_perform hquiet] at hrest
    rw [shows_cons, shown_perform hquiet, hrest]
    rfl

/-! ### What handlers find -/

/-- A call of a handler, and the decoder that the handler finds. -/
structure Visit where
  /-- The call. -/
  call : Call
  /-- The decoder at that time. -/
  decoder : Decoder

/-- The visits of the handler of responses, until it raises. -/
def deliveryVisits (binding : Binding) : List Response → List Visit
  | [] => []
  | response :: rest =>
    let binding := { binding with handled := binding.handled + 1 }
    ⟨.response response, binding.session.decoder⟩ ::
      if binding.handlers.responseRaisesAt = some binding.handled then []
      else binding.deliveryVisits rest

/-- The visit of the handler of errors, after the recovery. -/
def failureVisits (binding : Binding) (failure : Failure) : List Visit :=
  if binding.handlers.onError then
    [⟨.error failure.toError, (binding.recover failure).1.session.decoder⟩]
  else []

/-- The visit of the handler of closes, after the reset. -/
def closeVisits (binding : Binding) : List Visit :=
  if binding.handlers.onClose then [⟨.close, binding.session.decoder.reset⟩] else []

/-- The visits that an event makes. -/
def visits (binding : Binding) (event : SourceEvent) : List Visit :=
  match event.happening with
  | .data chunk =>
    match (binding.session.decoder.feed binding.session.handler chunk).outcome with
    | .error failure => (binding.fed chunk).failureVisits failure
    | .ok responses => (binding.fed chunk).deliveryVisits responses
  | .nonBinary _ => []
  | .close => binding.closeVisits

/-- The handler of responses finds the decoder as it was fed. -/
theorem deliveryVisits_eq (binding : Binding) (responses : List Response) :
    binding.deliveryVisits responses =
      (binding.deliver responses).2.calls.map fun call ↦ ⟨call, binding.session.decoder⟩ := by
  induction responses generalizing binding with
  | nil => rfl
  | cons response rest ih =>
    rw [deliveryVisits, deliver]
    dsimp only
    split
    · rfl
    · rw [ih]
      rfl

/-- **Handlers find the decoder as the event leaves it.** -/
theorem visits_eq (binding : Binding) (event : SourceEvent) :
    binding.visits event =
      (binding.step event).2.calls.map fun call ↦
        ⟨call, (binding.step event).1.session.decoder⟩ := by
  obtain ⟨source, happening⟩ := event
  cases happening with
  | data chunk =>
    show binding.visits ⟨source, .data chunk⟩ =
      (binding.data chunk).2.calls.map fun call ↦ ⟨call, (binding.data chunk).1.session.decoder⟩
    rw [visits, data_eq_handOn]
    dsimp only
    rcases (binding.session.decoder.feed binding.session.handler chunk).outcome with
      failure | responses
    · dsimp only
      rw [handOn, failureVisits, fail]
      split <;> rfl
    · dsimp only
      rw [handOn, deliveryVisits_eq, deliver_fst]
  | nonBinary type => rfl
  | close =>
    show binding.closeVisits =
      binding.close.2.calls.map fun call ↦ ⟨call, binding.close.1.session.decoder⟩
    rw [closeVisits, close]
    dsimp only
    split <;> rfl

/-! ### After a close -/

/-- A new decoder with the same settings, bound alike. The log goes on from where it is. -/
def anew (binding : Binding) (journal : Log.Journal) : Binding where
  session := { binding.session with
    decoder := .fresh binding.session.decoder.config
    journal }
  handlers := binding.handlers

theorem config_played (hquiet : binding.handlers.responseRaisesAt = none)
    (turns : List SourceTurn) :
    (binding.played turns).session.decoder.config = binding.session.decoder.config := by
  induction turns generalizing binding with
  | nil => rfl
  | cons turn rest ih =>
    rw [played, ih (by rw [handlers_perform, hquiet]), decoder_perform hquiet,
      Decoder.config_follow]

/-- **A close parts turns in two halves**: what they show afterwards is what a decoder newly bound
shows. -/
theorem shows_after_close (hquiet : binding.handlers.responseRaisesAt = none)
    (turns rest : List SourceTurn) {turn : SourceTurn} (hclose : turn.event.happening = .close)
    (journal : Log.Journal) :
    binding.shows (turns ++ turn :: rest) =
      binding.shows (turns ++ [turn]) ++ (binding.anew journal).shows rest := by
  have hquiet' : (binding.played turns).handlers.responseRaisesAt = none := by
    rw [handlers_played, hquiet]
  have hclosed : ((binding.played turns).perform turn).1.session.decoder =
      .fresh binding.session.decoder.config := by
    rw [decoder_perform hquiet', hclose, ← config_played hquiet turns]
    rfl
  have hrest : ((binding.played turns).perform turn).1.shows rest =
      (binding.anew journal).shows rest := by
    have hanew := @shows_eq_echoes (binding.anew journal) hquiet rest
    rw [shows_eq_echoes (by rw [handlers_perform, hquiet']), hanew, hclosed, handlers_perform,
      handlers_played]
    rfl
  rw [shows_append, shows_append, shows_cons, shows_cons, hrest, List.append_assoc]
  rfl

/-- **A bound decoder is a bare one with handlers**: turns show the echoes of what happens in them,
whatever the sources, handlers find the decoder as the event leaves it, and after a close turns show
what a decoder newly bound shows. -/
theorem shows_lockstep (binding : Binding) (hquiet : binding.handlers.responseRaisesAt = none)
    (turns : List SourceTurn) (turn : SourceTurn) :
    let bound := binding.played turns
    binding.shows turns =
        binding.session.decoder.echoes binding.handlers (turns.map SourceTurn.sourceless) ∧
      (∀ others : List SourceTurn,
        others.map SourceTurn.sourceless = turns.map SourceTurn.sourceless →
          binding.play others = binding.play turns) ∧
      (bound.facing turn.handler).visits turn.event =
        ((bound.perform turn).2.calls.map fun call ↦
          ⟨call, (bound.perform turn).1.session.decoder⟩) ∧
      (turn.event.happening = .close → ∀ rest journal,
        binding.shows (turns ++ turn :: rest) =
          binding.shows (turns ++ [turn]) ++ (binding.anew journal).shows rest) := by
  intro bound
  exact ⟨shows_eq_echoes hquiet turns, fun _ h ↦ binding.play_congr h,
    (bound.facing turn.handler).visits_eq turn.event,
    fun hclose rest journal ↦ shows_after_close hquiet turns rest hclose journal⟩

/-- Two sources of one decoder. The first stalls it, the second brings a response, the first a
malformed packet, about which the caller raises a text, and something that is no bytes; the second
closes within a frame, and the first goes on. -/
theorem shows_lockstep_two_sources :
    let config : Config := ⟨16, .throw, 30, by decide⟩
    let binding : Binding :=
      ⟨⟨.fresh config, .returns, .component, {}, ⟨"00:00", by decide⟩, []⟩,
        { onError := true, onClose := true }, 0⟩
    let stalled : Bytes := List.replicate 17 0
    let reply : Bytes := [10, 0, 0, 0, 0xFF, 0xFF, 0xFF, 0xFF, 2, 0, 0, 0, 0, 0]
    let malformed : Bytes := [10, 0, 0, 0, 0xE7, 3, 0, 0, 0, 0, 0, 0, 0x41, 0x42]
    let turns : List SourceTurn :=
      [⟨⟨0, .data stalled⟩, .returns⟩, ⟨⟨1, .data reply⟩, .returns⟩,
        ⟨⟨0, .data malformed⟩, .raises (.text "odd")⟩, ⟨⟨0, .nonBinary .string⟩, .returns⟩,
        ⟨⟨1, .data (reply.take 5)⟩, .returns⟩]
    let close : SourceTurn := ⟨⟨1, .close⟩, .returns⟩
    let rest : List SourceTurn := [⟨⟨0, .data reply⟩, .returns⟩]
    binding.handlers.responseRaisesAt = none ∧ close.event.happening = .close ∧
      binding.shows turns =
        [{ decoder := .fresh config, calls := [.error (.stall ⟨17, 16⟩)] },
          { decoder := .fresh config, calls := [.response ⟨.auth, 10, -1, 2, ""⟩] },
          { decoder := .fresh config
            calls := [.error (.raised (.error "odd"))]
            discards := [⟨.malformedTerminator, 14⟩] },
          { decoder := .fresh config },
          { decoder := ⟨config, reply.take 5, 1⟩ }] ∧
      binding.shows (turns ++ close :: rest) =
        binding.shows (turns ++ [close]) ++
          (binding.anew binding.session.journal).shows rest := by
  intro config binding stalled reply malformed turns close rest
  have hquiet : binding.handlers.responseRaisesAt = none := rfl
  have hclose : close.event.happening = .close := rfl
  obtain ⟨hshows, -, -, hparts⟩ := shows_lockstep binding hquiet turns close
  exact ⟨hquiet, hclose, hshows.trans (by decide +kernel), hparts hclose rest _⟩

end Binding

end Rcon
