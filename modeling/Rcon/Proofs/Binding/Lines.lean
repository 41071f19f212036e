import Rcon.Proofs.Binding.Events
import Rcon.Proofs.Decoder.Lines

/-!
# What a server can make a bound decoder log

A binding logs besides its decoder: what is delivered in place of bytes by its kind, and counts. So
it has no text of a server to log, and what it logs is one line per record as well.

**A server cannot forge a line of the log** (`isOneLine_logged`): whatever bytes it sends, in
whatever chunks, and whatever the environment says about logging while it does.
-/

namespace Rcon

/-- A turn of a binding, and the environment that it finds. -/
structure SourceMoment where
  /-- What happens, and what the caller does about a discard. -/
  turn : SourceTurn
  /-- What the process is told from outside. -/
  environment : Environment

namespace Binding

variable {binding : Binding} {effect : Log.Effect}

/-! ### Bindings in a changing environment -/

/-- What a binding does at a moment. -/
def meet (binding : Binding) (moment : SourceMoment) : Binding × Report :=
  let settings := Log.Settings.ofEnvironment moment.environment
  { binding with session := { binding.session with settings } }.perform moment.turn

/-- What a binding does at one moment after the other, each report with the decoder that is left. -/
def meetAll (binding : Binding) : List SourceMoment → List (Decoder × Report)
  | [] => []
  | moment :: rest =>
    ((binding.meet moment).1.session.decoder, (binding.meet moment).2) ::
      (binding.meet moment).1.meetAll rest

/-! ### Records -/

theorem isInline_natField {key : String} (hkey : '\n' ∉ key.toList) (n : Nat) :
    Log.Entry.IsInline [Note.natField key n] :=
  .cons hkey (Value.isInline_number _) Log.Entry.isInline_nil

theorem isInline_nonBinaryRecord (type : ChunkType) : (nonBinaryRecord type).IsInline := by
  have hname : '\n' ∉ type.name.toList := by
    cases type <;> decide
  have hvalue : (Value.ofString type.name).IsInline :=
    Value.isInline_text (Units.isLine_ofChars hname)
  exact ⟨by dsimp only [nonBinaryRecord]; decide, .cons (by decide) hvalue Log.Entry.isInline_nil⟩

theorem isInline_stallRecord (stall : Stall) : (stallRecord stall).IsInline :=
  ⟨by dsimp only [stallRecord]; decide, isInline_natField (by decide) _⟩

theorem isInline_partialRecord (pending : Nat) : (partialRecord pending).IsInline :=
  ⟨by dsimp only [partialRecord]; decide, isInline_natField (by decide) _⟩

/-- What a binding logs of a record within one line is one line. -/
theorem isOneLine_of_mem_log {records : List Log.Record}
    (hrecords : ∀ record ∈ records, record.IsInline) (h : effect ∈ (binding.log records).2) :
    effect.IsOneLine :=
  Log.Journal.isOneLine_of_mem_logAll (by decide) hrecords h

/-! ### Events -/

theorem effects_deliver (binding : Binding) (responses : List Response) :
    (binding.deliver responses).2.effects = [] := by
  induction responses generalizing binding with
  | nil => rfl
  | cons response rest ih =>
    rw [deliver]
    dsimp only
    split
    · rfl
    · exact ih _

/-- A failure is logged as one line, if it is. -/
theorem isOneLine_of_mem_fail {failure : Failure} (h : effect ∈ (binding.fail failure).2.effects) :
    effect.IsOneLine := by
  have hrecovered : effect ∈ (binding.recover failure).2 := by
    rw [fail] at h
    dsimp only at h
    split at h
    · exact h
    · exact h
  cases failure with
  | stall stalled =>
    refine isOneLine_of_mem_log (fun record hrecord ↦ ?_) hrecovered
    obtain rfl := List.mem_singleton.1 hrecord
    exact isInline_stallRecord stalled
  | raised what => exact absurd hrecovered List.not_mem_nil

/-- **What an event logs is one line per record.** -/
theorem isOneLine_of_mem_step {event : SourceEvent} (h : effect ∈ (binding.step event).2.effects) :
    effect.IsOneLine := by
  obtain ⟨source, happening⟩ := event
  cases happening with
  | data chunk =>
    replace h : effect ∈ (binding.data chunk).2.effects := h
    rw [data_eq_handOn] at h
    -- First comes the log of the feed, and then that of what is done about how it ended.
    rcases List.mem_append.1 h with hfed | hhanded
    · exact Session.isOneLine_of_mem_step hfed
    · generalize (binding.session.decoder.feed binding.session.handler chunk).outcome = outcome
        at hhanded
      cases outcome with
      | error failure => exact isOneLine_of_mem_fail hhanded
      | ok responses =>
        replace hhanded : effect ∈ ((binding.fed chunk).deliver responses).2.effects := hhanded
        rw [effects_deliver] at hhanded
        exact absurd hhanded List.not_mem_nil
  | nonBinary type =>
    refine isOneLine_of_mem_log (fun record hrecord ↦ ?_) h
    obtain rfl := List.mem_singleton.1 hrecord
    exact isInline_nonBinaryRecord type
  | close =>
    refine isOneLine_of_mem_log (fun record hrecord ↦ ?_) h
    split at hrecord
    · obtain rfl := List.mem_singleton.1 hrecord
      exact isInline_partialRecord _
    · exact absurd hrecord List.not_mem_nil

/-- What events log is one line per record, whatever the environment says at each. -/
theorem isOneLine_of_mem_meetAll {moments : List SourceMoment} {shown : Decoder × Report}
    (hshown : shown ∈ binding.meetAll moments) (h : effect ∈ shown.2.effects) :
    effect.IsOneLine := by
  induction moments generalizing binding with
  | nil => exact absurd hshown List.not_mem_nil
  | cons moment rest ih =>
    rcases List.mem_cons.1 hshown with rfl | hrest
    · exact isOneLine_of_mem_step h
    · exact ih hrest

end Binding

/-- **A server cannot forge a line of the log.** All that a decoder logs at work is one line for
each record, whoever uses it and whatever the environment says about logging at each step, and so is
all that it logs with the sources that it is bound to. The bodies that are handed to the log are
those of the completed frames in order, if it wants debug output: each the first units of the body
with their line breaks written out, and three dots if there are more. So no body takes more than
twice the units that a preview may show, and the dots. -/
theorem isOneLine_logged :
    (∀ (session : Session) (moments : List Session.Moment), ∀ shown ∈ session.play moments,
      ∀ effect ∈ shown.2.effects, effect.IsOneLine) ∧
    (∀ (binding : Binding) (moments : List SourceMoment), ∀ shown ∈ binding.meetAll moments,
      ∀ effect ∈ shown.2.effects, effect.IsOneLine) ∧
    ∀ (session : Session) (handler : DiscardHandler) (chunk : Bytes),
      let fed := session.decoder.feed handler chunk
      let limit := session.decoder.config.bodyPreviewChars
      let shown (body : Units) : Units :=
        (body.take (min body.length limit)).flatMap Note.previewUnit ++
          if limit < body.length then Note.ellipsis else []
      ((session.recordsOf fed.notes).filter Log.Record.isCompletion).map
          (fun record ↦ record.get "body") =
        (if session.debugEnabled then
          fed.frames.map fun frame ↦ .text (shown (Units.ofString frame.text)) else []) ∧
        ∀ body, (shown body).length ≤ 2 * limit + 3 := by
  refine ⟨fun session moments shown hshown effect h ↦ Session.isOneLine_of_mem_play hshown h,
    fun binding moments shown hshown effect h ↦ Binding.isOneLine_of_mem_meetAll hshown h, ?_⟩
  intro session handler chunk fed limit shown
  have hshown : shown = Note.preview limit := funext fun body ↦ (Note.preview_eq limit body).symm
  constructor
  · rw [Session.recordsOf, Note.map_get_body, Decoder.filterMap_frame?_notes_feed, hshown]
    rfl
  · intro body
    rw [hshown]
    exact Note.length_preview_le limit body

end Rcon
