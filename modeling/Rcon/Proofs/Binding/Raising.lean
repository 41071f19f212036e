import Mathlib.Algebra.GroupWithZero.Nat
import Rcon.Proofs.Binding.Events

/-!
# A handler that raises

What the handler of responses raises leaves the event in the middle of a delivery. The decoder is
done with the chunk by then, and what the event does not deliver it never delivers. So a run with
such a handler is **the run of a quiet handler with one event cut short**.

`Binding.Beside` is a binding with a quiet handler and one with a handler that raises at some
response. They differ in how many responses were handled, and in this only past the response. An
event leaves them beside each other and shows the same of both, or else cuts the calls of the second
(`Binding.Beside.step`); so turns leave them beside each other (`Binding.Beside.played`). A quiet
handler counts the responses that it gets (`Binding.Beside.handled_played`), so what it shows tells
which event is cut.
-/

namespace Rcon

/-- The response that a handler is called with. -/
def Call.response? : Call → Option Response
  | .response given => some given
  | _ => none

namespace Binding

/-! ### Responses handed on -/

/-- The responses that handlers are called with. -/
def Report.responses (report : Report) : List Response :=
  report.calls.filterMap Call.response?

/-- A report cut short behind some of its calls, by what the last of them raises. -/
def Report.cutAt (report : Report) (n : Nat) (what : Raised) : Report :=
  { report with calls := report.calls.take n, thrown := some (.raised what) }

/-- The number of responses that turns hand on. -/
def handed (binding : Binding) (turns : List SourceTurn) : Nat :=
  ((binding.play turns).map fun entry ↦ entry.2.responses.length).sum

theorem filterMap_map_response (responses : List Response) :
    (responses.map Call.response).filterMap Call.response? = responses := by
  induction responses with
  | nil => rfl
  | cons response rest ih => exact congrArg (response :: ·) ih

theorem responses_fail (binding : Binding) (failure : Failure) :
    (binding.fail failure).2.responses = [] := by
  rw [fail, Report.responses]
  dsimp only
  split <;> rfl

theorem responses_close (binding : Binding) : binding.close.2.responses = [] := by
  rw [close, Report.responses]
  dsimp only
  split <;> rfl

/-! ### Beside a quiet handler -/

/-- A binding with a quiet handler, and the same with a handler that raises at a response. -/
structure Beside (n : Nat) (quiet raising : Binding) : Prop where
  /-- The decoder and its log are the same. -/
  session : raising.session = quiet.session
  /-- The handlers are the same, but for the response that the second raises at. -/
  handlers : raising.handlers = { quiet.handlers with responseRaisesAt := some n }
  /-- The quiet handler raises at no response. -/
  never : quiet.handlers.responseRaisesAt = none
  /-- Both handlers have had as many responses, or are past the one that the second raises at. -/
  handled : raising.handled = quiet.handled ∨ n ≤ raising.handled ∧ n ≤ quiet.handled

/-- What an event does to bindings beside each other, of which the quiet one has handled some
responses before. -/
structure StepsBeside (n before : Nat) (quiet raising : Binding × Report) : Prop where
  /-- The bindings are beside each other afterwards. -/
  beside : Beside n quiet.1 raising.1
  /-- The quiet handler has had the responses of the event too. -/
  counts : quiet.1.handled = before + quiet.2.responses.length
  /-- In an event with responses the quiet binding calls nothing but the handler of them. -/
  delivers : quiet.2.responses ≠ [] →
    quiet.2.calls = quiet.2.responses.map .response ∧ quiet.2.thrown = none
  /-- If the response is one of those of the event, it is the last that the other binding hands on.
  -/
  cut : before < n → n ≤ before + quiet.2.responses.length →
    raising.2 = quiet.2.cutAt (n - before) quiet.1.handlers.responseRaises
  /-- If it is none of those of the event, the other binding shows the same. -/
  same : ¬(before < n ∧ n ≤ before + quiet.2.responses.length) → raising.2 = quiet.2

variable {n : Nat} {quiet raising : Binding}

/-- What hands no responses on is the same for both. -/
theorem StepsBeside.of_responses_eq_nil {before : Nat} {quiet raising : Binding × Report}
    (hbeside : Beside n quiet.1 raising.1) (hcounts : quiet.1.handled = before)
    (hnone : quiet.2.responses = []) (hsame : raising.2 = quiet.2) :
    StepsBeside n before quiet raising := by
  refine ⟨hbeside, ?_, fun h ↦ absurd hnone h, fun hlt hle ↦ ?_, fun _ ↦ hsame⟩
  · rw [hnone]
    exact hcounts
  · rw [hnone] at hle
    exact absurd hlt (Nat.not_lt.2 hle)

/-- The other binding as the quiet one, with other handlers. -/
theorem Beside.eq_with (h : Beside n quiet raising) :
    raising =
      { quiet with
        handlers := { quiet.handlers with responseRaisesAt := some n }
        handled := raising.handled } := by
  rw [← h.handlers, ← h.session]

/-- **A failure is the same for both.** -/
theorem Beside.fail (h : Beside n quiet raising) (failure : Failure) :
    StepsBeside n quiet.handled (quiet.fail failure) (raising.fail failure) := by
  have hfail := responses_fail quiet failure
  rw [h.eq_with]
  cases failure with
  | stall stalled => exact .of_responses_eq_nil ⟨rfl, rfl, h.never, h.handled⟩ rfl hfail rfl
  | raised what => exact .of_responses_eq_nil ⟨rfl, rfl, h.never, h.handled⟩ rfl hfail rfl

/-- **A delivery is cut behind the response**, if the response is in it. -/
theorem Beside.deliver (h : Beside n quiet raising) (responses : List Response) :
    StepsBeside n quiet.handled (quiet.deliver responses) (raising.deliver responses) := by
  have hat : raising.handlers.responseRaisesAt = some n := by rw [h.handlers]
  have hwhat : raising.handlers.responseRaises = quiet.handlers.responseRaises := by
    rw [h.handlers]
  have hresponses : (Report.responses { calls := responses.map .response }) = responses :=
    filterMap_map_response responses
  have hquiet := quiet.deliver_of_quiet responses fun m hm ↦ by
    rw [h.never] at hm
    cases hm
  rw [hquiet]
  by_cases hwithin : raising.handled < n ∧ n ≤ raising.handled + responses.length
  · have heven : raising.handled = quiet.handled :=
      h.handled.resolve_right fun hpast ↦ Nat.not_lt.2 hpast.1 hwithin.1
    rw [raising.deliver_of_raises hat hwithin.1 hwithin.2, heven, hwhat]
    rw [heven] at hwithin
    refine ⟨⟨h.session, h.handlers, h.never, .inr ⟨Nat.le_refl n, hwithin.2⟩⟩, ?_, fun _ ↦ ?_,
      fun _ _ ↦ ?_, fun hnot ↦ absurd hwithin ?_⟩
    · rw [hresponses]
    · exact ⟨by rw [hresponses], rfl⟩
    · rw [Report.cutAt, List.map_take]
    · rwa [hresponses] at hnot
  · have hraising := raising.deliver_of_quiet responses fun m hm ↦ by
      rw [hat] at hm
      cases hm
      exact hwithin
    rw [hraising]
    refine ⟨⟨h.session, h.handlers, h.never, ?_⟩, ?_, fun _ ↦ ?_, fun hlt hle ↦ ?_, fun _ ↦ rfl⟩
    · show raising.handled + responses.length = quiet.handled + responses.length ∨
        n ≤ raising.handled + responses.length ∧ n ≤ quiet.handled + responses.length
      have hhandled := h.handled
      omega
    · rw [hresponses]
    · exact ⟨by rw [hresponses], rfl⟩
    · rw [hresponses] at hle
      have hhandled := h.handled
      exact absurd ⟨by omega, by omega⟩ hwithin

theorem Beside.handOn (h : Beside n quiet raising) (outcome : Outcome) :
    StepsBeside n quiet.handled (quiet.handOn outcome) (raising.handOn outcome) := by
  rcases outcome with failure | responses
  · exact h.fail failure
  · exact h.deliver responses

/-- What a feed tells besides is the same for both. -/
theorem StepsBeside.telling {before : Nat} {quiet raising : Binding × Report}
    (h : StepsBeside n before quiet raising) (discards : List Discard)
    (effects : List Log.Effect) :
    StepsBeside n before
      (quiet.1, { quiet.2 with discards, effects := effects ++ quiet.2.effects })
      (raising.1, { raising.2 with discards, effects := effects ++ raising.2.effects }) where
  beside := h.beside
  counts := h.counts
  delivers := h.delivers
  cut hlt hle := by rw [h.cut hlt hle]; rfl
  same hnot := by rw [h.same hnot]

/-- **The same is discarded**, whether or not the calls are cut short. -/
theorem StepsBeside.discards_eq {before : Nat} {quiet raising : Binding × Report}
    (h : StepsBeside n before quiet raising) : raising.2.discards = quiet.2.discards := by
  by_cases hwithin : before < n ∧ n ≤ before + quiet.2.responses.length
  · rw [h.cut hwithin.1 hwithin.2]
    rfl
  · rw [h.same hwithin]

/-- An event that hands the response on does nothing else. -/
theorem StepsBeside.delivers_of_le {before : Nat} {quiet raising : Binding × Report}
    (h : StepsBeside n before quiet raising) (hlt : before < n)
    (hle : n ≤ before + quiet.2.responses.length) :
    quiet.2.calls = quiet.2.responses.map .response ∧ quiet.2.thrown = none :=
  h.delivers fun hnone ↦ by
    rw [hnone] at hle
    exact Nat.not_lt.2 hle hlt

/-- **An event leaves both beside each other**, and is cut short behind the response or shows the
same. -/
theorem Beside.step (h : Beside n quiet raising) (event : SourceEvent) :
    StepsBeside n quiet.handled (quiet.step event) (raising.step event) := by
  obtain ⟨source, happening⟩ := event
  cases happening with
  | data chunk =>
    have hfed : Beside n (quiet.fed chunk) (raising.fed chunk) :=
      ⟨by rw [fed, fed, h.session], h.handlers, h.never, h.handled⟩
    show StepsBeside n quiet.handled (quiet.data chunk) (raising.data chunk)
    rw [data_eq_handOn, data_eq_handOn, h.session]
    exact (hfed.handOn _).telling _ _
  | nonBinary type =>
    rw [h.eq_with]
    exact .of_responses_eq_nil ⟨rfl, rfl, h.never, h.handled⟩ rfl rfl rfl
  | close =>
    have hclose : (quiet.step ⟨source, .close⟩).2.responses = [] := quiet.responses_close
    rw [h.eq_with]
    exact .of_responses_eq_nil ⟨rfl, rfl, h.never, h.handled⟩ rfl hclose rfl

theorem Beside.perform (h : Beside n quiet raising) (turn : SourceTurn) :
    StepsBeside n quiet.handled (quiet.perform turn) (raising.perform turn) := by
  have hfacing : Beside n (quiet.facing turn.handler) (raising.facing turn.handler) :=
    ⟨by rw [facing, facing, h.session], h.handlers, h.never, h.handled⟩
  exact hfacing.step turn.event

/-- Turns leave both beside each other. -/
theorem Beside.played (h : Beside n quiet raising) (turns : List SourceTurn) :
    Beside n (quiet.played turns) (raising.played turns) := by
  induction turns generalizing quiet raising with
  | nil => exact h
  | cons turn rest ih => exact ih (h.perform turn).beside

/-! ### Turns -/

/-- The binding with a handler of responses that raises at none of them. -/
def quieted (binding : Binding) : Binding :=
  { binding with handlers := { binding.handlers with responseRaisesAt := none } }

/-- The binding with a handler of responses that raises at a response, counted from one. -/
def raisingAt (binding : Binding) (n : Nat) : Binding :=
  { binding with
    handlers := { binding.handlers with responseRaisesAt := some (binding.handled + n) } }

theorem beside_raisingAt (binding : Binding) (n : Nat) :
    Beside (binding.handled + n) binding.quieted (binding.raisingAt n) :=
  ⟨rfl, rfl, rfl, .inl rfl⟩

/-- **A quiet handler counts the responses that it gets.** -/
theorem Beside.handled_played (h : Beside n quiet raising) (turns : List SourceTurn) :
    (quiet.played turns).handled = quiet.handled + quiet.handed turns := by
  induction turns generalizing quiet raising with
  | nil => rfl
  | cons turn rest ih =>
    have hturn := h.perform turn
    rw [Binding.played, ih hturn.beside, hturn.counts, Nat.add_assoc]
    rfl

/-- **Where the response is not among those handed on, both show the same.** -/
theorem Beside.play_eq (h : Beside n quiet raising) (turns : List SourceTurn)
    (hwithout : ¬(quiet.handled < n ∧ n ≤ quiet.handled + quiet.handed turns)) :
    raising.play turns = quiet.play turns := by
  induction turns generalizing quiet raising with
  | nil => rfl
  | cons turn rest ih =>
    have hturn := h.perform turn
    have hhanded : quiet.handed (turn :: rest) =
        (quiet.perform turn).2.responses.length + (quiet.perform turn).1.handed rest := rfl
    have hrest := ih hturn.beside (by rw [hturn.counts]; omega)
    rw [play, play, hrest, hturn.beside.session, hturn.same fun hwithin ↦ by omega]

/-- **A handler that raises costs the responses behind it in its event, and nothing else.** -/
theorem play_raisingAt (binding : Binding) (n : Nat) (turns : List SourceTurn)
    (turn : SourceTurn) :
    let quiet := binding.quieted.played turns
    let raising := (binding.raisingAt n).played turns
    let shown := (quiet.perform turn).2
    let before := binding.quieted.handed turns
    let within := before < n ∧ n ≤ before + shown.responses.length
    (raising.perform turn).1.session = (quiet.perform turn).1.session ∧
      (raising.perform turn).2.discards = shown.discards ∧
      (¬within → (raising.perform turn).2 = shown) ∧
      (within →
        shown.calls = shown.responses.map .response ∧ shown.thrown = none ∧
          (raising.perform turn).2 = shown.cutAt (n - before) binding.handlers.responseRaises ∧
          ∀ rest, (binding.raisingAt n).play (turns ++ turn :: rest) =
            binding.quieted.play turns ++
              ((quiet.perform turn).1.session.decoder,
                shown.cutAt (n - before) binding.handlers.responseRaises) ::
              (quiet.perform turn).1.play rest) := by
  intro quiet raising shown before within
  have hbeside := binding.beside_raisingAt n
  have hturn : StepsBeside (binding.handled + n) quiet.handled (quiet.perform turn)
      (raising.perform turn) := (hbeside.played turns).perform turn
  have hhandled : quiet.handled = binding.handled + before := hbeside.handled_played turns
  have hraises :
      (quiet.perform turn).1.handlers.responseRaises = binding.handlers.responseRaises := by
    rw [handlers_perform, handlers_played]
    rfl
  have hwithin_iff : within ↔ quiet.handled < binding.handled + n ∧
      binding.handled + n ≤ quiet.handled + (quiet.perform turn).2.responses.length := by
    show before < n ∧ n ≤ before + (quiet.perform turn).2.responses.length ↔ _
    omega
  have hcut (hwithin : within) :
      (raising.perform turn).2 = shown.cutAt (n - before) binding.handlers.responseRaises := by
    obtain ⟨hlt, hle⟩ := hwithin_iff.1 hwithin
    rw [hturn.cut hlt hle, hraises, show binding.handled + n - quiet.handled = n - before by omega]
  have hsame (hwithin : ¬within) : (raising.perform turn).2 = shown :=
    hturn.same (mt hwithin_iff.2 hwithin)
  refine ⟨hturn.beside.session, hturn.discards_eq, hsame, fun hwithin ↦ ?_⟩
  obtain ⟨hlt, hle⟩ := hwithin_iff.1 hwithin
  obtain ⟨hcalls, hthrown⟩ := hturn.delivers_of_le hlt hle
  refine ⟨hcalls, hthrown, hcut hwithin, fun rest ↦ ?_⟩
  -- Before the event there are too few responses, and behind it there were enough.
  have hearlier := hbeside.play_eq turns fun h ↦
    Nat.not_le.2 (Nat.add_lt_add_left hwithin.1 binding.handled) h.2
  have hlater := hturn.beside.play_eq rest fun h ↦ Nat.not_lt.2 hle (hturn.counts ▸ h.1)
  rw [play_append, hearlier, play, hlater, hturn.beside.session, hcut hwithin]

/-- A handler that raises at the second response it gets. The chunk that brings it completes three
responses and begins a fourth; the third is lost, and the fourth is not. -/
theorem play_raisingAt_second :
    let reply : Bytes := [10, 0, 0, 0, 0xFF, 0xFF, 0xFF, 0xFF, 2, 0, 0, 0, 0, 0]
    let call : Call := .response ⟨.auth, 10, -1, 2, ""⟩
    let binding : Binding :=
      ⟨⟨.fresh .default, .returns, .component, {}, ⟨"00:00", by decide⟩, []⟩,
        { responseRaises := .text "odd", onError := true }, 0⟩
    let turns : List SourceTurn := [⟨⟨0, .data (reply.take 5)⟩, .returns⟩]
    let turn : SourceTurn :=
      ⟨⟨1, .data (reply.drop 5 ++ reply ++ reply ++ reply.take 1)⟩, .returns⟩
    let rest : List SourceTurn := [⟨⟨0, .data (reply.drop 1)⟩, .returns⟩]
    let shown := ((binding.quieted.played turns).perform turn).2
    let before := binding.quieted.handed turns
    (before < 2 ∧ 2 ≤ before + shown.responses.length) ∧
      shown.calls = [call, call, call] ∧
      (((binding.raisingAt 2).play (turns ++ turn :: rest)).map fun entry ↦
          (entry.2.calls, entry.2.thrown)) =
        [([], none), ([call, call], some (.raised (.text "odd"))), ([call], none)] := by
  intro reply call binding turns turn rest shown before
  have hcalls : shown.calls = [call, call, call] := by decide +kernel
  have hwithin : before < 2 ∧ 2 ≤ before + shown.responses.length := by decide +kernel
  obtain ⟨-, -, -, hcut⟩ := play_raisingAt binding 2 turns turn
  obtain ⟨-, -, -, hplay⟩ := hcut hwithin
  refine ⟨hwithin, hcalls, ?_⟩
  rw [hplay rest]
  decide +kernel

end Binding

end Rcon
