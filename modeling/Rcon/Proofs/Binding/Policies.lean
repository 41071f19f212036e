import Rcon.Frame.Packet
import Rcon.Proofs.Binding.Events
import Rcon.Proofs.Decoder.Callers

/-!
# The two policies, bound

Behind a binding it makes no difference to responses and closes what the policy does about a stall.
A decoder that discards lets go of everything itself; one that raises keeps everything and fails,
and then the binding resets it. **Either way the next chunk starts anew**, nothing is delivered, and
the number of bytes that the one drops is the number that the error of the other says.

`Decoder.Twins` and `Binding.Twins` are two decoders and two bindings that differ in nothing but the
policy. A feed either does the same to twins or stalls them both (`Decoder.Twins.feed`), so an event
leaves twins (`Binding.Twins.answer`), and so do events (`Binding.Twins.answered`).

The caller is asked about a discard when there is one (`Callback`), and may answer by its reason, by
the number of bytes and by the event. **He must not answer by what he was told before**: a decoder
that raises tells him of no stall, so the two callers would have been told different things
(`not_forall_policies_agree`).
-/

namespace Rcon

/-- The error that says of a discard for an overflow how many bytes it dropped. -/
def Discard.stall? (limit : Nat) (discard : Discard) : Option Stall :=
  match discard.reason with
  | .stalled => some ⟨discard.bytes, limit⟩
  | .malformedTerminator => none

/-! ### Callbacks -/

/-- What a caller does about the discard of an event, whatever discard it is. -/
inductive Callback
  /-- Nobody is told. -/
  | absent
  /-- The caller is told of the discard, and may raise something about it. -/
  | told (raises? : Discard → Option Raised)

namespace Callback

/-- What is done in an event that makes these discards. There is one of them at most. -/
def handler : Callback → List Discard → DiscardHandler
  | .absent, _ => .absent
  | .told _, [] => .returns
  | .told raises?, discard :: _ => (raises? discard).elim .returns .raises

/-- The discards that somebody is told of. -/
def hears : Callback → List Discard → List Discard
  | .absent, _ => []
  | .told _, discards => discards

@[simp] theorem told_handler (callback : Callback) (discards : List Discard) :
    (callback.handler discards).told discards = callback.hears discards := by
  cases callback with
  | absent => rfl
  | told raises? =>
    cases discards with
    | nil => rfl
    | cons discard rest =>
      rw [handler]
      cases raises? discard <;> rfl

end Callback

/-! ### Decoders -/

namespace Decoder

/-- Two decoders at the same place that differ in their policy. -/
structure Twins (dropping raising : Decoder) : Prop where
  /-- The decoders are at the same place. -/
  agrees : dropping.Agrees raising
  /-- The limit is the same. -/
  limit : dropping.config.maxPendingBytes = raising.config.maxPendingBytes
  /-- The first discards what has stalled. -/
  drops : dropping.config.stallPolicy = .discard
  /-- The second raises an error. -/
  raises : raising.config.stallPolicy = .throw

/-- How a feed to twins ends, and what the first of them drops. -/
inductive FeedsTwins (limit : Nat) (handler : DiscardHandler) (dropping raising : Feed) : Prop
  /-- Both feeds end alike, and nothing is dropped for having stalled. -/
  | alike (twins : dropping.decoder.Twins raising.decoder)
      (outcome : dropping.outcome = raising.outcome)
      (calm : ∀ stall, raising.outcome ≠ .error (.stall stall))
      (same : dropping.discards = raising.discards)
      (discards : dropping.discards.filterMap (Discard.stall? limit) = [])
  /-- Both feeds stall: the first drops as many bytes as the error of the second says, and the
  second drops nothing. -/
  | stalled (pending : Nat) (twins : dropping.decoder.Twins raising.decoder.reset)
      (outcome : dropping.outcome = handler.outcome)
      (error : raising.outcome = .error (.stall ⟨pending, limit⟩))
      (discards : dropping.discards = [⟨.stalled, pending⟩])
      (keeps : raising.discards = [])

namespace Twins

variable {dropping raising : Decoder} (h : dropping.Twins raising)

include h

theorem reset : dropping.reset.Twins raising.reset :=
  ⟨⟨rfl, rfl⟩, h.limit, h.drops, h.raises⟩

/-- **A feed does the same to twins, or stalls them both.** -/
theorem feed (handler : DiscardHandler) (chunk : Bytes) :
    FeedsTwins raising.config.maxPendingBytes handler (dropping.feed handler chunk)
      (raising.feed handler chunk) := by
  have hrun := h.agrees.runOn_eq handler chunk
  have hover : dropping.Overflows handler chunk ↔ raising.Overflows handler chunk := by
    rw [Overflows, Overflows, hrun, h.limit]
  have hfeeds := feeds raising handler chunk
  generalize raising.feed handler chunk = raised at hfeeds ⊢
  cases hfeeds with
  | idle hchunk =>
    subst hchunk
    exact .alike h rfl (fun stall hstall ↦ by cases hstall) rfl rfl
  | calm hchunk hcalm =>
    rw [feed_of_not_overflows hchunk (mt hover.1 hcalm)]
    refine .alike ⟨h.agrees.feedEnding handler chunk _ _, h.limit, h.drops, h.raises⟩
      (congrArg Drain.outcome hrun) (Drain.outcome_ne_stall _) (congrArg Drain.discards hrun) ?_
    -- A run of attempts drops malformed packets only.
    rcases discards_drain_cases handler (dropping.pending ++ chunk) with ⟨hnone, -⟩ | ⟨n, hone, -⟩
    · exact congrArg (List.filterMap _) hnone
    · exact congrArg (List.filterMap _) hone
  | stalling hchunk hpolicy hraises =>
    rw [feed_of_overflows_of_discard hchunk h.drops (hover.2 hraises)]
    refine .stalled _ ⟨⟨rfl, rfl⟩, h.limit, h.drops, h.raises⟩ rfl rfl ?_ hraises.discards_eq
    rw [feedDropping, h.agrees.pending]
  | dropping hchunk hpolicy hdrops =>
    rw [h.raises] at hpolicy
    cases hpolicy

/-- **A feed with a callback does the same to twins, or stalls them both.** In a stall the two are
asked about different discards, but then the answer of the second is of no account. -/
theorem feed_answering (callback : Callback) (first second : DiscardHandler) (chunk : Bytes) :
    let answer := callback.handler (dropping.feed first chunk).discards
    let answer' := callback.handler (raising.feed second chunk).discards
    FeedsTwins raising.config.maxPendingBytes answer (dropping.feed answer chunk)
      (raising.feed answer' chunk) := by
  intro answer answer'
  have hdropping := (dropping.alike_feed answer first chunk).discards
  have hraising := raising.alike_feed answer answer' chunk
  have hfeed := h.feed answer chunk
  cases hfeed with
  | alike twins outcome calm same discards =>
    have hanswer : answer = answer' := by
      show callback.handler _ = callback.handler _
      rw [← hdropping, same, (raising.alike_feed answer second chunk).discards]
    rw [← hanswer]
    exact .alike twins outcome calm same discards
  | stalled pending twins outcome error discards keeps =>
    rw [hraising.decoder] at twins
    rw [hraising.outcome keeps] at error
    exact .stalled pending twins outcome error discards (hraising.discards.symm.trans keeps)

end Twins

end Decoder

/-! ### Bindings -/

namespace Binding

/-- Two bindings that differ in the policy of their decoders. What their logs have seen is open, and
what their callers did about discards as well. -/
structure Twins (dropping raising : Binding) : Prop where
  /-- The decoders are twins. -/
  decoder : dropping.session.decoder.Twins raising.session.decoder
  /-- The handlers are the same. -/
  handlers : dropping.handlers = raising.handlers
  /-- The handlers have had as many responses. -/
  handled : dropping.handled = raising.handled

/-- What an event drops does not depend on what the caller does about it. -/
theorem dropped_facing (binding : Binding) (handler : DiscardHandler) (event : SourceEvent) :
    (binding.facing handler).dropped event = binding.dropped event := by
  rw [dropped, dropped]
  rcases event.happening with chunk | type | -
  · exact (binding.session.decoder.alike_feed handler binding.session.handler chunk).discards
  · rfl
  · rfl

/-- What an event does if a callback is asked about the discard that it makes. -/
def answer (binding : Binding) (event : SourceEvent) (callback : Callback) : Binding × Report :=
  binding.perform ⟨event, callback.handler (binding.dropped event)⟩

/-- The binding as events leave it, each with the callback that is asked in it. -/
def answered (binding : Binding) : List (SourceEvent × Callback) → Binding
  | [] => binding
  | (event, callback) :: rest => (binding.answer event callback).1.answered rest

theorem discards_answer (binding : Binding) (event : SourceEvent) (callback : Callback) :
    (binding.answer event callback).2.discards = callback.hears (binding.dropped event) := by
  rw [answer, perform, discards_step, dropped_facing]
  exact callback.told_handler _

theorem handlers_answered (binding : Binding) (events : List (SourceEvent × Callback)) :
    (binding.answered events).handlers = binding.handlers := by
  induction events generalizing binding with
  | nil => rfl
  | cons entry rest ih => exact (ih _).trans (binding.handlers_perform _)

/-- The stalls for which an event drops bytes. -/
def stalled (binding : Binding) (event : SourceEvent) : List Stall :=
  (binding.dropped event).filterMap
    (Discard.stall? binding.session.decoder.config.maxPendingBytes)

theorem length_stalled_le (binding : Binding) (event : SourceEvent) :
    (binding.stalled event).length ≤ 1 := by
  have hone : (binding.dropped event).length ≤ 1 := by
    rw [dropped]
    rcases event.happening with chunk | type | -
    · show (binding.session.decoder.feed binding.session.handler chunk).discards.length ≤ 1
      rcases (Decoder.feeds binding.session.decoder binding.session.handler chunk).discards_cases
        with ⟨hnone, -⟩ | ⟨discard, hone⟩
      · rw [hnone]
        exact Nat.zero_le 1
      · rw [hone]
        exact Nat.le_refl 1
    · exact Nat.zero_le 1
    · exact Nat.zero_le 1
  exact Nat.le_trans (List.length_filterMap_le _ _) hone

/-- What an event does to twins. -/
structure StepsTwins (onError : Bool) (stalled : List Stall) (dropping raising : Binding × Report) :
    Prop where
  /-- The bindings are twins afterwards. -/
  twins : dropping.1.Twins raising.1
  /-- The handlers of responses and of closes are called alike. -/
  deliveries : dropping.2.deliveries = raising.2.deliveries
  /-- The first reports no stall. -/
  silent : dropping.2.handedStalls = [] ∧ dropping.2.thrownStalls = []
  /-- If there is a handler of errors, the second reports the stalls to it. -/
  handed : raising.2.handedStalls = if onError then stalled else []
  /-- If there is none, the stalls leave the event. -/
  thrown : raising.2.thrownStalls = if onError then [] else stalled

variable {dropping raising : Binding}

/-- **What a feed did alike is handed on alike.** -/
theorem Twins.handOn (h : dropping.Twins raising) {outcome : Outcome}
    (hcalm : ∀ stall, outcome ≠ .error (.stall stall)) :
    StepsTwins raising.handlers.onError [] (dropping.handOn outcome) (raising.handOn outcome) := by
  rcases outcome with (stalled | what) | responses
  · exact absurd rfl (hcalm stalled)
  · obtain ⟨hdeliveries, hhanded, hthrown⟩ := dropping.report_fail (.raised what)
    obtain ⟨hdeliveries', hhanded', hthrown'⟩ := raising.report_fail (.raised what)
    exact ⟨h, hdeliveries.trans hdeliveries'.symm,
      ⟨hhanded.trans (ite_self _), hthrown.trans (ite_self _)⟩, hhanded', hthrown'⟩
  · obtain ⟨hreport, hhandled⟩ := deliver_eq h.handlers h.handled responses
    obtain ⟨hhanded, hthrown⟩ := raising.stalls_deliver responses
    refine ⟨?_, congrArg Report.deliveries hreport, dropping.stalls_deliver responses, ?_, ?_⟩
    · show (dropping.deliver responses).1.Twins (raising.deliver responses).1
      rw [deliver_fst dropping, deliver_fst raising, hhandled]
      exact ⟨h.decoder, h.handlers, rfl⟩
    · exact hhanded.trans (ite_self _).symm
    · exact hthrown.trans (ite_self _).symm

/-- **What has stalled is reset by the decoder or by the binding.** -/
theorem StepsTwins.of_stall
    (hdecoder : dropping.session.decoder.Twins raising.session.decoder.reset)
    (hhandlers : dropping.handlers = raising.handlers)
    (hhandled : dropping.handled = raising.handled)
    (handler : DiscardHandler) (stall : Stall) :
    StepsTwins raising.handlers.onError [stall] (dropping.handOn handler.outcome)
      (raising.handOn (.error (.stall stall))) := by
  obtain ⟨hbinding, hdeliveries, hsilent⟩ := dropping.handOn_outcome handler
  obtain ⟨hdeliveries', hhanded, hthrown⟩ := raising.report_fail (.stall stall)
  refine ⟨?_, hdeliveries.trans hdeliveries'.symm, hsilent, hhanded, hthrown⟩
  rw [hbinding]
  exact ⟨hdecoder, hhandlers, hhandled⟩

/-- What is handed on after a feed is what the delivered bytes do. -/
theorem StepsTwins.of_handOn {onError : Bool} {stalled : List Stall} {chunk : Bytes}
    (h : StepsTwins onError stalled
      ((dropping.fed chunk).handOn
        (dropping.session.decoder.feed dropping.session.handler chunk).outcome)
      ((raising.fed chunk).handOn
        (raising.session.decoder.feed raising.session.handler chunk).outcome)) :
    StepsTwins onError stalled (dropping.data chunk) (raising.data chunk) := by
  obtain ⟨hfst, hdeliveries, hhanded, hthrown⟩ := dropping.data_eq chunk
  obtain ⟨hfst', hdeliveries', hhanded', hthrown'⟩ := raising.data_eq chunk
  constructor
  · rw [hfst, hfst']
    exact h.twins
  · rw [hdeliveries, hdeliveries']
    exact h.deliveries
  · rw [hhanded, hthrown]
    exact h.silent
  · rw [hhanded']
    exact h.handed
  · rw [hthrown']
    exact h.thrown

/-- **Delivered bytes do to twins what they do**, and what they make the one drop for a stall they
make the other report. -/
theorem Twins.data (h : dropping.Twins raising) (callback : Callback) (source : Nat)
    (chunk : Bytes) :
    StepsTwins raising.handlers.onError (dropping.stalled ⟨source, .data chunk⟩)
      (dropping.answer ⟨source, .data chunk⟩ callback)
      (raising.answer ⟨source, .data chunk⟩ callback) := by
  let drops : List Discard := dropping.dropped ⟨source, .data chunk⟩
  let answer : DiscardHandler := callback.handler drops
  let answer' : DiscardHandler := callback.handler (raising.dropped ⟨source, .data chunk⟩)
  have hfeed : Decoder.FeedsTwins raising.session.decoder.config.maxPendingBytes answer
      (dropping.session.decoder.feed answer chunk) (raising.session.decoder.feed answer' chunk) :=
    h.decoder.feed_answering callback dropping.session.handler raising.session.handler chunk
  have hdrops : (dropping.session.decoder.feed answer chunk).discards = drops :=
    dropping.dropped_facing answer ⟨source, .data chunk⟩
  let fed : Binding := (dropping.facing answer).fed chunk
  let fed' : Binding := (raising.facing answer').fed chunk
  show StepsTwins _ (drops.filterMap _) ((dropping.facing answer).data chunk)
    ((raising.facing answer').data chunk)
  refine .of_handOn ?_
  show StepsTwins fed'.handlers.onError (drops.filterMap _)
    (fed.handOn (dropping.session.decoder.feed answer chunk).outcome)
    (fed'.handOn (raising.session.decoder.feed answer' chunk).outcome)
  rw [← hdrops, h.decoder.limit]
  cases hfeed with
  | alike twins outcome calm same discards =>
    have hfed : fed.Twins fed' := ⟨twins, h.handlers, h.handled⟩
    rw [discards, outcome]
    exact hfed.handOn calm
  | stalled pending twins outcome error discards keeps =>
    have hfed : fed.session.decoder.Twins fed'.session.decoder.reset := twins
    rw [discards, outcome, error]
    exact .of_stall hfed h.handlers h.handled _ _

/-- **An event does to twins what it does.** -/
theorem Twins.answer (h : dropping.Twins raising) (event : SourceEvent) (callback : Callback) :
    StepsTwins raising.handlers.onError (dropping.stalled event) (dropping.answer event callback)
      (raising.answer event callback) := by
  obtain ⟨source, happening⟩ := event
  cases happening with
  | data chunk => exact h.data callback source chunk
  | nonBinary type =>
    exact ⟨⟨h.decoder, h.handlers, h.handled⟩, rfl, ⟨rfl, rfl⟩, (ite_self _).symm,
      (ite_self _).symm⟩
  | close =>
    obtain ⟨hdeliveries, hsilent⟩ := (dropping.facing (callback.handler [])).report_close
    obtain ⟨hdeliveries', hhanded, hthrown⟩ := (raising.facing (callback.handler [])).report_close
    refine ⟨⟨h.decoder.reset, h.handlers, h.handled⟩, ?_, hsilent,
      hhanded.trans (ite_self _).symm, hthrown.trans (ite_self _).symm⟩
    refine (hdeliveries.trans ?_).trans hdeliveries'.symm
    rw [facing, facing, h.handlers]

theorem Twins.answered (h : dropping.Twins raising) (events : List (SourceEvent × Callback)) :
    (dropping.answered events).Twins (raising.answered events) := by
  induction events generalizing dropping raising with
  | nil => exact h
  | cons entry rest ih => exact ih (h.answer entry.1 entry.2).twins

/-- The binding with another policy for stalls. -/
def withPolicy (binding : Binding) (policy : StallPolicy) : Binding :=
  let session := binding.session
  let decoder := session.decoder
  { binding with
    session := { session with
      decoder := { decoder with config := { decoder.config with stallPolicy := policy } } } }

/-- **Bound, the two policies are one**, whatever the caller does about the discard of each event:
after every event the same bytes are pending, and the handlers of responses and of closes have been
called alike. What one drops for a stall in an event the other reports in this event, to the handler
of errors or else out of it. -/
theorem policies_agree (binding : Binding) (events : List (SourceEvent × Callback))
    (event : SourceEvent) (callback : Callback) :
    let dropping := (binding.withPolicy .discard).answered events
    let raising := (binding.withPolicy .throw).answered events
    let dropped := dropping.answer event callback
    let raised := raising.answer event callback
    let onError := binding.handlers.onError
    dropped.1.session.decoder.Agrees raised.1.session.decoder ∧
      dropped.2.deliveries = raised.2.deliveries ∧
      dropped.2.discards = callback.hears (dropping.dropped event) ∧
      (dropping.stalled event).length ≤ 1 ∧
      raised.2.handedStalls = (if onError then dropping.stalled event else []) ∧
      raised.2.thrownStalls = (if onError then [] else dropping.stalled event) := by
  intro dropping raising dropped raised onError
  have hpolicies : (binding.withPolicy .discard).Twins (binding.withPolicy .throw) :=
    ⟨⟨⟨rfl, rfl⟩, rfl, rfl, rfl⟩, rfl, rfl⟩
  have hanswer := (hpolicies.answered events).answer event callback
  have honError : raising.handlers.onError = onError :=
    congrArg Handlers.onError ((binding.withPolicy .throw).handlers_answered events)
  rw [← honError]
  exact ⟨hanswer.twins.decoder.agrees, hanswer.deliveries, dropping.discards_answer event callback,
    dropping.length_stalled_le event, hanswer.handed, hanswer.thrown⟩

/-! ### Callers who remember -/

/-- What events show to a caller who goes by all that he has been told of, the last of it in
front. -/
def playRecalling (raises? : List Discard → Option Raised) (heard : List Discard)
    (binding : Binding) : List SourceEvent → List Report
  | [] => []
  | event :: rest =>
    let answered := binding.answer event (.told fun discard ↦ raises? (discard :: heard))
    answered.2 :: playRecalling raises? (answered.2.discards ++ heard) answered.1 rest

/-- A caller who raises something at the second discard he is told of tells the policies apart: by
then he has been told of a stall by the one and not by the other, and the frame in front of a
malformed packet is lost to him with the one and not with the other. And where nobody is told, a
stall is reported though there is no discard for it to be heard of. -/
theorem not_forall_policies_agree :
    (¬∀ (binding : Binding) (raises? : List Discard → Option Raised) (events : List SourceEvent),
        ((binding.withPolicy .discard).playRecalling raises? [] events).map Report.deliveries =
          ((binding.withPolicy .throw).playRecalling raises? [] events).map Report.deliveries) ∧
      ¬∀ (binding : Binding) (callback : Callback) (event : SourceEvent),
        let limit := binding.session.decoder.config.maxPendingBytes
        let dropped := (binding.withPolicy .discard).answer event callback
        let raised := (binding.withPolicy .throw).answer event callback
        raised.2.handedStalls ++ raised.2.thrownStalls =
          dropped.2.discards.filterMap (Discard.stall? limit) := by
  let config : Config := ⟨16, .throw, 30, by decide⟩
  let binding : Binding :=
    ⟨⟨.fresh config, .returns, .caller false, {}, ⟨"00:00", by decide⟩, []⟩, { onError := true }, 0⟩
  let stall : SourceEvent := ⟨0, .data (List.replicate 20 0)⟩
  let behind : SourceEvent :=
    ⟨0, .data (Packet.bytes ⟨10, -1, 0, [], 0, 0⟩ ++ Packet.bytes ⟨10, 999, 0, [], 0, 1⟩)⟩
  constructor
  · intro h
    have hsame := h binding
      (fun heard ↦ if heard.length = 2 then some (.text "no") else none) [stall, behind]
    exact absurd hsame (by decide +kernel)
  · intro h
    exact absurd (h binding .absent stall) (by decide +kernel)

end Binding

end Rcon
