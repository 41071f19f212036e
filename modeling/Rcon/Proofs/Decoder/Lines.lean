import Rcon.Proofs.Decoder.Tracing
import Rcon.Proofs.Log.Lines

/-!
# What a server can make a decoder log

The one text of a server that a decoder logs is the preview of a body. **However the body is cut, a
preview is a line** (`Note.isLine_preview`), and it is what the first units of the body read as,
with three dots behind it if there are more (`Note.preview_eq`).

So every note is a record within one line, and all that a session logs is one line per record
(`Session.isOneLine_of_mem_play`).
-/

namespace Rcon

namespace Note

open Rcon.Units (IsLine isLine_cons_iff isLine_append_iff)

/-! ### Previews -/

variable (limit : Nat)

/-- **A preview** shows the first units of a body with its line breaks written out, and three dots
if the body is longer. -/
theorem preview_eq (body : Units) :
    preview limit body =
      (body.take (min body.length limit)).flatMap previewUnit ++
        if limit < body.length then ellipsis else [] := by
  rw [preview]
  split
  · next hlt =>
    rw [List.flatMap_append, Nat.min_eq_right (Nat.le_of_lt hlt)]
    rfl
  · next hle =>
    rw [Nat.min_eq_left (Nat.not_lt.1 hle), List.take_length, List.append_nil]

example : preview 2 (Units.ofString "A\nB") = Units.ofString "A\\n..." := by decide

theorem length_previewUnit_le (u : UInt16) : (previewUnit u).length ≤ 2 := by
  unfold previewUnit
  split
  · exact Nat.le_refl 2
  · exact Nat.le_succ 1

theorem length_flatMap_previewUnit_le (units : Units) :
    (units.flatMap previewUnit).length ≤ 2 * units.length := by
  induction units with
  | nil => exact Nat.le_refl 0
  | cons u rest ih =>
    have hunit := length_previewUnit_le u
    rw [List.flatMap_cons, List.length_append, List.length_cons]
    omega

/-- **A preview is short**, however long the body is. -/
theorem length_preview_le (body : Units) : (preview limit body).length ≤ 2 * limit + 3 := by
  have hshown := length_flatMap_previewUnit_le (body.take (min body.length limit))
  have hcut : (body.take (min body.length limit)).length ≤ limit := by
    rw [List.length_take]
    omega
  have hdots : (if limit < body.length then ellipsis else []).length ≤ 3 := by
    split
    · exact Nat.le_refl 3
    · exact Nat.zero_le 3
  rw [preview_eq, List.length_append]
  omega

/-- **A preview is a line.** -/
theorem isLine_preview (body : Units) : IsLine (preview limit body) := by
  have hunit (u : UInt16) : IsLine (previewUnit u) := by
    unfold previewUnit
    split
    · decide
    · next hu => exact isLine_cons_iff.2 ⟨hu, Units.isLine_nil⟩
  have hshown (units : Units) : IsLine (units.flatMap previewUnit) := by
    induction units with
    | nil => exact Units.isLine_nil
    | cons u rest ih => exact isLine_append_iff.2 ⟨hunit u, ih⟩
  exact hshown _

/-! ### Records -/

/-- **A note is told within one line.** -/
theorem isInline_record (note : Note) : (note.record limit).IsInline := by
  constructor
  · show '\n' ∉ note.message.toList
    unfold message
    split <;> decide
  · show Log.Entry.IsInline (note.fields limit)
    unfold fields
    split
    all_goals repeat' apply Log.Entry.IsInline.cons
    all_goals first
      | decide
      | exact Value.isInline_number _
      | exact Value.isInline_bool _
      | exact Value.isInline_text (isLine_preview limit _)
      | exact Log.Entry.isInline_nil

/-! ### Bodies in a log -/

/-- The frame that a note tells of. -/
def frame? : Note → Option Frame
  | .completed frame _ => some frame
  | _ => none

/-- What is logged as the body of a frame. -/
def bodyValue (frame : Frame) : Value :=
  .text (preview limit (Units.ofString frame.text))

/-- **The bodies in a log** with debug output are the previews of those of all frames; without debug
output there are none. -/
theorem map_get_body (debug : Bool) (notes : List Note) :
    (((notes.filter (isMade debug)).map (record limit)).filter Log.Record.isCompletion).map
        (fun record ↦ record.get "body") =
      if debug then (notes.filterMap frame?).map (bodyValue limit) else [] := by
  rw [List.filter_map, show Log.Record.isCompletion ∘ record limit = isCompletion from
    funext (isCompletion_record limit), List.filter_filter]
  induction notes with
  | nil => cases debug <;> rfl
  | cons note rest ih =>
    cases note with
    | completed frame remaining =>
      cases debug with
      | true => exact congrArg (bodyValue limit frame :: ·) ih
      | false => exact ih
    | _ => exact ih

end Note

/-- The notes of a run tell of its frames. -/
theorem Drain.filterMap_frame?_notes (run : Drain) :
    run.notes.filterMap Note.frame? = run.frames := by
  rw [notes, List.filterMap_filterMap, frames]
  refine List.filterMap_congr fun attempt _ ↦ ?_
  obtain ⟨pending, head⟩ := attempt
  cases head <;> rfl

theorem Decoder.filterMap_frame?_notes_feed (decoder : Decoder) (handler : DiscardHandler)
    (chunk : Bytes) :
    (decoder.feed handler chunk).notes.filterMap Note.frame? =
      (decoder.feed handler chunk).frames := by
  have hrun : (decoder.runOn handler chunk).notes.filterMap Note.frame? =
      (decoder.runOn handler chunk).frames := Drain.filterMap_frame?_notes _
  have hfeeds := decoder.feeds handler chunk
  generalize decoder.feed handler chunk = fed at hfeeds ⊢
  cases hfeeds with
  | idle hchunk => rfl
  | calm hchunk hcalm => exact hrun
  | stalling hchunk hpolicy hover => exact hrun
  | dropping hchunk hpolicy hover =>
    show ((decoder.runOn handler chunk).notes ++ [_]).filterMap Note.frame? = _
    rw [List.filterMap_append, hrun]
    exact List.append_nil _

/-! ### Sessions -/

namespace Session

variable {session : Session} {effect : Log.Effect}

/-- What is handed to the log of a session is one line per record. -/
theorem isOneLine_of_mem_log {notes : List Note}
    (h : effect ∈ (session.log (session.recordsOf notes)).2.effects) : effect.IsOneLine := by
  rw [log] at h
  split at h
  · exact absurd h List.not_mem_nil
  · refine Log.Journal.isOneLine_of_mem_logAll (by decide) (fun record hrecord ↦ ?_) h
    obtain ⟨note, -, rfl⟩ := List.mem_map.1 hrecord
    exact note.isInline_record _

theorem isOneLine_of_mem_step {operation : Operation}
    (h : effect ∈ (session.step operation).2.effects) : effect.IsOneLine := by
  cases operation with
  | feed chunk => exact isOneLine_of_mem_log h
  | reset => exact absurd h List.not_mem_nil

/-- **All that a session logs is one line per record**, whatever the environment says. -/
theorem isOneLine_of_mem_play {moments : List Moment} {shown : Decoder × Report}
    (hshown : shown ∈ session.play moments) (h : effect ∈ shown.2.effects) : effect.IsOneLine := by
  induction moments generalizing session with
  | nil => exact absurd hshown List.not_mem_nil
  | cons moment rest ih =>
    rcases List.mem_cons.1 hshown with rfl | hrest
    · exact isOneLine_of_mem_step h
    · exact ih hrest

end Session

end Rcon
