import Rcon.Binding
import Rcon.Proofs.Decoder.Step

/-!
# What events do

An event of a bound source comes down to how a feed ends and to what is done about that
(`Binding.handOn`): the responses are delivered, or the failure goes where failures go. The logs
that are written on the way change the journal and nothing else.

* Delivering leaves the decoder alone (`deliver_fst`), and what it shows depends on the handlers
  and on how many responses they have had (`deliver_eq`).
* A failure resets the decoder or leaves it alone, and delivers nothing. It is reported once: to the
  handler of errors, or else out of the event (`report_fail`).
* An event with bytes shows what is handed on, with the discards and the log of the feed
  (`data_eq_handOn`).

A caller need not do the same about every discard. A `SourceTurn` is an event and what the caller
does about a discard in it, and that is all there is to say about the caller, since a feed makes one
discard at most; a caller who always does the same is a special case (`Binding.play_map`). Turns go
on from where others leave the binding (`Binding.play_append`).
-/

namespace Rcon

/-- An event, and what the caller does about a discard in it. -/
structure SourceTurn where
  /-- The event. -/
  event : SourceEvent
  /-- What the caller does about a discard. -/
  handler : DiscardHandler
  deriving DecidableEq, Repr

/-! ### What a report says -/

/-- The stall that a failure is. -/
def Failure.stall? : Failure → Option Stall
  | .stall stalled => some stalled
  | .raised _ => none

@[simp] theorem DiscardHandler.told_nil (handler : DiscardHandler) : handler.told [] = [] := by
  cases handler with
  | absent => rfl
  | returns => rfl
  | raises what => rfl

namespace Call

/-- Is the handler of errors called? -/
def isError : Call → Bool
  | .error _ => true
  | _ => false

/-- The stall that the handler of errors gets. -/
def stall? : Call → Option Stall
  | .error failure => failure.stall?
  | _ => none

end Call

namespace Binding

namespace Report

variable (report : Report)

/-- The calls of the handlers of responses and of closes, in order. -/
def deliveries : List Call :=
  report.calls.filter fun call ↦ !call.isError

/-- The stalls that the handler of errors gets. -/
def handedStalls : List Stall :=
  report.calls.filterMap Call.stall?

/-- The stalls that leave the event. -/
def thrownStalls : List Stall :=
  report.thrown.toList.filterMap Failure.stall?

end Report

/-! ### Deliveries and failures -/

/-- Delivering changes nothing but the number of responses handled. -/
theorem deliver_fst (binding : Binding) (responses : List Response) :
    (binding.deliver responses).1 =
      { binding with handled := (binding.deliver responses).1.handled } := by
  induction responses generalizing binding with
  | nil => rfl
  | cons response rest ih =>
    rw [deliver]
    dsimp only
    split
    · rfl
    · rw [ih]

/-- **What delivering shows depends on the handlers** and on how many responses they have had. -/
theorem deliver_eq {first second : Binding} (hhandlers : first.handlers = second.handlers)
    (hhandled : first.handled = second.handled) (responses : List Response) :
    (first.deliver responses).2 = (second.deliver responses).2 ∧
      (first.deliver responses).1.handled = (second.deliver responses).1.handled := by
  induction responses generalizing first second with
  | nil => exact ⟨rfl, hhandled⟩
  | cons response rest ih =>
    rw [deliver, deliver]
    dsimp only
    rw [hhandlers, hhandled]
    split
    · exact ⟨rfl, rfl⟩
    · obtain ⟨hreport, hcount⟩ := @ih ⟨first.session, second.handlers, second.handled + 1⟩
        ⟨second.session, second.handlers, second.handled + 1⟩ rfl rfl
      exact ⟨by rw [hreport], hcount⟩

/-- **A handler that raises at none of the responses gets all of them**, in order. -/
theorem deliver_of_quiet (binding : Binding) (responses : List Response)
    (hquiet : ∀ n, binding.handlers.responseRaisesAt = some n →
      ¬(binding.handled < n ∧ n ≤ binding.handled + responses.length)) :
    binding.deliver responses =
      ({ binding with handled := binding.handled + responses.length },
        { calls := responses.map .response }) := by
  induction responses generalizing binding with
  | nil => rfl
  | cons response rest ih =>
    rw [List.length_cons] at hquiet
    have hrest := ih { binding with handled := binding.handled + 1 } fun n hn hwithin ↦ by
      have hlt : binding.handled + 1 < n := hwithin.1
      have hle : n ≤ binding.handled + 1 + rest.length := hwithin.2
      exact hquiet n hn ⟨by omega, by omega⟩
    rw [deliver]
    dsimp only
    rw [if_neg fun hn ↦ hquiet _ hn ⟨by omega, by omega⟩, hrest]
    simp only [List.length_cons, List.map_cons, Nat.add_assoc, Nat.add_comm 1]

/-- **A handler that raises at one of the responses gets those up to it**, and what it raises leaves
the event. -/
theorem deliver_of_raises (binding : Binding) {responses : List Response} {n : Nat}
    (hn : binding.handlers.responseRaisesAt = some n) (hlt : binding.handled < n)
    (hle : n ≤ binding.handled + responses.length) :
    binding.deliver responses =
      ({ binding with handled := n },
        { calls := (responses.take (n - binding.handled)).map .response
          thrown := some (.raised binding.handlers.responseRaises) }) := by
  induction responses generalizing binding with
  | nil => exact absurd hlt (Nat.not_lt.2 hle)
  | cons response rest ih =>
    rw [List.length_cons] at hle
    rw [deliver]
    dsimp only
    by_cases hnow : n = binding.handled + 1
    · rw [if_pos (hn.trans (congrArg some hnow)), hnow, Nat.add_sub_cancel_left]
      rfl
    · have hrest := ih { binding with handled := binding.handled + 1 } hn
        (show binding.handled + 1 < n by omega)
        (show n ≤ binding.handled + 1 + rest.length by omega)
      rw [if_neg fun h ↦ hnow (Option.some.inj (hn.symm.trans h)), hrest,
        show n - binding.handled = n - (binding.handled + 1) + 1 by omega, List.take_succ_cons]
      rfl

theorem stalls_deliver (binding : Binding) (responses : List Response) :
    (binding.deliver responses).2.handedStalls = [] ∧
      (binding.deliver responses).2.thrownStalls = [] := by
  induction responses generalizing binding with
  | nil => exact ⟨rfl, rfl⟩
  | cons response rest ih =>
    rw [deliver]
    dsimp only
    split
    · exact ⟨rfl, rfl⟩
    · exact ih _

/-- **Where a failure goes**: to the handler of errors, or else out of the event. It delivers
nothing. -/
theorem report_fail (binding : Binding) (failure : Failure) :
    (binding.fail failure).2.deliveries = [] ∧
      (binding.fail failure).2.handedStalls =
        (if binding.handlers.onError then failure.stall?.toList else []) ∧
      (binding.fail failure).2.thrownStalls =
        (if binding.handlers.onError then [] else failure.stall?.toList) := by
  rcases honError : binding.handlers.onError with - | -
  · rw [fail, honError]
    cases failure with
    | stall stalled => exact ⟨rfl, rfl, rfl⟩
    | raised what => exact ⟨rfl, rfl, rfl⟩
  · rw [fail, honError]
    cases failure with
    | stall stalled => exact ⟨rfl, rfl, rfl⟩
    | raised what => exact ⟨rfl, rfl, rfl⟩

/-! ### Events -/

/-- What is done about how a feed ended. -/
def handOn (binding : Binding) : Outcome → Binding × Report
  | .error failure => binding.fail failure
  | .ok responses => binding.deliver responses

theorem handlers_handOn (binding : Binding) (outcome : Outcome) :
    (binding.handOn outcome).1.handlers = binding.handlers := by
  rcases outcome with (stalled | what) | responses
  · rfl
  · rfl
  · show (binding.deliver responses).1.handlers = binding.handlers
    rw [deliver_fst]

/-- **How a feed ends that tells the caller of a discard** is handed on without a delivery, and
leaves the binding alone. -/
theorem handOn_outcome (binding : Binding) (handler : DiscardHandler) :
    (binding.handOn handler.outcome).1 = binding ∧
      (binding.handOn handler.outcome).2.deliveries = [] ∧
      (binding.handOn handler.outcome).2.handedStalls = [] ∧
      (binding.handOn handler.outcome).2.thrownStalls = [] := by
  rw [DiscardHandler.outcome]
  rcases handler.raised? with - | what
  · exact ⟨rfl, rfl, rfl, rfl⟩
  · obtain ⟨hdeliveries, hhanded, hthrown⟩ := binding.report_fail (.raised what)
    exact ⟨rfl, hdeliveries, hhanded.trans (ite_self _), hthrown.trans (ite_self _)⟩

/-- The binding as a feed leaves it. -/
def fed (binding : Binding) (chunk : Bytes) : Binding :=
  { binding with session := (binding.session.step (.feed chunk)).1 }

/-- **Bytes that are delivered are fed, and how that ends is handed on.** The discards of the feed
are told besides, and its log comes first. -/
theorem data_eq_handOn (binding : Binding) (chunk : Bytes) :
    let fed := binding.session.decoder.feed binding.session.handler chunk
    let outcome := fed.outcome
    binding.data chunk =
      (((binding.fed chunk).handOn outcome).1,
        { ((binding.fed chunk).handOn outcome).2 with
          discards := binding.session.handler.told fed.discards
          effects := (binding.session.step (.feed chunk)).2.effects ++
            ((binding.fed chunk).handOn outcome).2.effects }) := by
  intro fed outcome
  have hfed : (binding.session.step (.feed chunk)).2.outcome = some outcome := rfl
  rw [data]
  dsimp only
  rw [hfed]
  rcases outcome with failure | responses
  · rfl
  · rfl

/-- Delivered bytes show what is handed on after their feed. -/
theorem data_eq (binding : Binding) (chunk : Bytes) :
    let outcome := (binding.session.decoder.feed binding.session.handler chunk).outcome
    (binding.data chunk).1 = ((binding.fed chunk).handOn outcome).1 ∧
      (binding.data chunk).2.deliveries = ((binding.fed chunk).handOn outcome).2.deliveries ∧
      (binding.data chunk).2.handedStalls = ((binding.fed chunk).handOn outcome).2.handedStalls ∧
      (binding.data chunk).2.thrownStalls =
        ((binding.fed chunk).handOn outcome).2.thrownStalls := by
  rw [data_eq_handOn]
  exact ⟨rfl, rfl, rfl, rfl⟩

/-- A close is told to the handler of closes, and is no stall. -/
theorem report_close (binding : Binding) :
    binding.close.2.deliveries = (if binding.handlers.onClose then [.close] else []) ∧
      binding.close.2.handedStalls = [] ∧ binding.close.2.thrownStalls = [] := by
  rw [close]
  rcases binding.handlers.onClose with - | -
  · exact ⟨rfl, rfl, rfl⟩
  · exact ⟨rfl, rfl, rfl⟩

/-- The discards that an event makes, whether or not the caller is told. -/
def dropped (binding : Binding) (event : SourceEvent) : List Discard :=
  match event.happening with
  | .data chunk => (binding.session.decoder.feed binding.session.handler chunk).discards
  | _ => []

/-- The caller is told of the discards of an event if he is told of any. -/
theorem discards_step (binding : Binding) (event : SourceEvent) :
    (binding.step event).2.discards = binding.session.handler.told (binding.dropped event) := by
  rw [step, dropped]
  rcases event.happening with chunk | type | -
  · rfl
  · exact (DiscardHandler.told_nil _).symm
  · exact (DiscardHandler.told_nil _).symm

theorem handlers_step (binding : Binding) (event : SourceEvent) :
    (binding.step event).1.handlers = binding.handlers := by
  rw [step]
  rcases event.happening with chunk | type | -
  · show (binding.data chunk).1.handlers = binding.handlers
    rw [(binding.data_eq chunk).1, handlers_handOn]
    rfl
  · rfl
  · rfl

theorem handler_step (binding : Binding) (event : SourceEvent) :
    (binding.step event).1.session.handler = binding.session.handler := by
  rw [step]
  rcases event.happening with chunk | type | -
  · show (binding.data chunk).1.session.handler = binding.session.handler
    rw [(binding.data_eq chunk).1]
    have hfed : (binding.fed chunk).session.handler = binding.session.handler :=
      (binding.session.step_fst (.feed chunk)).2
    rcases (binding.session.decoder.feed binding.session.handler chunk).outcome with
      (stalled | what) | responses
    · exact hfed
    · exact hfed
    · show ((binding.fed chunk).deliver responses).1.session.handler = binding.session.handler
      rw [deliver_fst]
      exact hfed
  · rfl
  · rfl

/-! ### Turns -/

/-- The binding of a caller who does this about a discard. -/
def facing (binding : Binding) (handler : DiscardHandler) : Binding :=
  { binding with session := { binding.session with handler } }

/-- What an event does, and what the caller does about a discard in it. -/
def perform (binding : Binding) (turn : SourceTurn) : Binding × Report :=
  (binding.facing turn.handler).step turn.event

/-- What turns do, one after the other. The reports come with the decoder as each turn leaves it. -/
def play (binding : Binding) : List SourceTurn → List (Decoder × Report)
  | [] => []
  | turn :: rest =>
    ((binding.perform turn).1.session.decoder, (binding.perform turn).2) ::
      (binding.perform turn).1.play rest

/-- The binding as turns leave it. -/
def played (binding : Binding) : List SourceTurn → Binding
  | [] => binding
  | turn :: rest => (binding.perform turn).1.played rest

/-- **A caller who always does the same** makes a run. -/
theorem play_map (binding : Binding) (events : List SourceEvent) :
    binding.play (events.map fun event ↦ ⟨event, binding.session.handler⟩) =
      binding.run events := by
  induction events generalizing binding with
  | nil => rfl
  | cons event rest ih =>
    have hrest := ih (binding.step event).1
    rw [handler_step] at hrest
    rw [List.map_cons, play, run, ← hrest]
    rfl

theorem handlers_perform (binding : Binding) (turn : SourceTurn) :
    (binding.perform turn).1.handlers = binding.handlers :=
  (binding.facing turn.handler).handlers_step turn.event

theorem handlers_played (binding : Binding) (turns : List SourceTurn) :
    (binding.played turns).handlers = binding.handlers := by
  induction turns generalizing binding with
  | nil => rfl
  | cons turn rest ih => exact (ih _).trans (binding.handlers_perform turn)

/-- **More turns do what they do to the binding as the others leave it.** -/
theorem play_append (binding : Binding) (turns rest : List SourceTurn) :
    binding.play (turns ++ rest) = binding.play turns ++ (binding.played turns).play rest := by
  induction turns generalizing binding with
  | nil => rfl
  | cons turn turns ih =>
    rw [List.cons_append, play, play, ih]
    rfl

end Binding

end Rcon
