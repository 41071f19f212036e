import Rcon.Decoder.Basic
import Rcon.Proofs.Frame.Head

/-!
# Runs of attempts

What a run of attempts makes of bytes that arrive in two parts. A run that dropped nothing can be
stopped and taken up again: its frames, and then those of what it left and of the bytes that follow
(`drain_append`). A run that dropped something has seen the last frame that these bytes will ever
give, however many follow (`drain_append_of_discards`).

Both come from the settled verdicts: the attempts of a run but the last one are settled, and a
settled verdict stays. What a run leaves always waits (`isWait_read_rest`), so a second run on it
does nothing (`drain_of_isWait`).
-/

namespace Rcon

namespace Drain

/-! ### A run with an attempt in front -/

section After

variable (n : Nat) (run : Drain)

@[simp] theorem frames_after_frame (frame : Frame) :
    (run.after ⟨n, .frame frame⟩).frames = frame :: run.frames := rfl

@[simp] theorem discards_after_frame (frame : Frame) :
    (run.after ⟨n, .frame frame⟩).discards = run.discards := rfl

@[simp] theorem frames_after_malformed (first second : UInt8) :
    (run.after ⟨n, .malformed first second⟩).frames = run.frames := rfl

@[simp] theorem discards_after_malformed (first second : UInt8) :
    (run.after ⟨n, .malformed first second⟩).discards =
      ⟨.malformedTerminator, n⟩ :: run.discards := rfl

@[simp] theorem rest_after (attempt : Attempt) : (run.after attempt).rest = run.rest := rfl

@[simp] theorem raised_after (attempt : Attempt) : (run.after attempt).raised = run.raised := rfl

end After

/-- The frame of an attempt in front is the first of a run. -/
theorem frames_after (attempt : Attempt) (run : Drain) :
    (run.after attempt).frames = attempt.frame?.toList ++ run.frames := by
  show (attempt :: run.attempts).filterMap Attempt.frame? = _
  rw [List.filterMap_cons]
  cases attempt.frame? <;> rfl

theorem discards_after (attempt : Attempt) (run : Drain) :
    (run.after attempt).discards = attempt.discard?.toList ++ run.discards := by
  show (attempt :: run.attempts).filterMap Attempt.discard? = _
  rw [List.filterMap_cons]
  cases attempt.discard? <;> rfl

/-- A run takes bytes off just if it completes a frame or drops something. -/
theorem any_consumes_iff (run : Drain) :
    run.attempts.any Attempt.consumes = true ↔ run.frames ≠ [] ∨ run.discards ≠ [] := by
  rw [frames, discards, ne_eq, List.filterMap_eq_nil_iff, ne_eq, List.filterMap_eq_nil_iff,
    List.any_eq_true]
  simp only [Attempt.consumes, Bool.or_eq_true, Option.isSome_iff_ne_none]
  grind

end Drain

/-! ### The first attempt of a run -/

variable {handler : DiscardHandler} {bytes : Bytes}

/-- A run on bytes that begin with a frame goes on behind it. -/
theorem drain_of_frame {frame : Frame} (h : Head.read bytes = .frame frame) :
    drain handler bytes =
      (drain handler (bytes.drop frame.length)).after ⟨bytes.length, .frame frame⟩ := by
  rw [drain]
  split <;> simp_all

/-- A run on bytes that have to wait makes one attempt and leaves them. -/
theorem drain_of_isWait (h : (Head.read bytes).isWait = true) :
    drain handler bytes = ⟨[⟨bytes.length, Head.read bytes⟩], bytes, none⟩ := by
  rw [drain]
  split <;> simp_all [Head.isWait]

theorem frames_drain_of_isWait (h : (Head.read bytes).isWait = true) :
    (drain handler bytes).frames = [] := by
  rw [drain_of_isWait h]
  rcases hhead : Head.read bytes with frame | ⟨first, second⟩ | why | -
  · rw [hhead] at h
    cases h
  · rw [hhead] at h
    cases h
  · rfl
  · rfl

theorem discards_drain_of_isWait (h : (Head.read bytes).isWait = true) :
    (drain handler bytes).discards = [] := by
  rw [drain_of_isWait h]
  rcases hhead : Head.read bytes with frame | ⟨first, second⟩ | why | -
  · rfl
  · rw [hhead] at h
    cases h
  · rfl
  · rfl

theorem rest_drain_of_isWait (h : (Head.read bytes).isWait = true) :
    (drain handler bytes).rest = bytes := by
  rw [drain_of_isWait h]

theorem drain_nil : drain handler [] = ⟨[⟨0, .short⟩], [], none⟩ := by
  have h : Head.read [] = .short := Head.read_eq_short (by decide)
  rw [drain_of_isWait (by rw [h]; rfl), h]
  rfl

/-- A run on bytes that begin with a packet to be dropped, when nothing is raised. -/
theorem drain_of_malformed {first second : UInt8} (hquiet : handler.raised? = none)
    (h : Head.read bytes = .malformed first second) :
    drain handler bytes =
      ⟨[⟨bytes.length, .malformed first second⟩, ⟨0, .short⟩], [], none⟩ := by
  rw [drain]
  split <;> simp_all [drain_nil, Drain.after]

/-- What is raised about a packet to be dropped ends the run. -/
theorem drain_of_malformed_of_raised {first second : UInt8} {what : Raised}
    (hraised : handler.raised? = some what) (h : Head.read bytes = .malformed first second) :
    drain handler bytes = ⟨[⟨bytes.length, .malformed first second⟩], [], some what⟩ := by
  rw [drain]
  split <;> simp_all

/-- Nothing is raised in a run where the caller raises nothing. -/
theorem raised_drain (hquiet : handler.raised? = none) (bytes : Bytes) :
    (drain handler bytes).raised = none := by
  fun_induction drain handler bytes <;> simp_all

/-- Nothing is raised in a run that dropped nothing. -/
theorem raised_of_discards_eq_nil (hdrop : (drain handler bytes).discards = []) :
    (drain handler bytes).raised = none := by
  fun_induction drain handler bytes with
  | case1 bytes frame hread ih => exact ih hdrop
  | case2 bytes first second hread what hraised => exact absurd hdrop (List.cons_ne_nil _ _)
  | case3 bytes first second hread hraised ih => exact absurd hdrop (List.cons_ne_nil _ _)
  | case4 bytes why hread => rfl
  | case5 bytes hread => rfl

/-- A run that completes a frame starts with one. -/
theorem exists_read_eq_frame (hframes : (drain handler bytes).frames ≠ []) :
    ∃ frame, Head.read bytes = .frame frame := by
  fun_cases drain handler bytes with
  | case1 frame hread => exact ⟨frame, hread⟩
  | case2 first second hread what hraised =>
    rw [drain_of_malformed_of_raised hraised hread] at hframes
    exact absurd rfl hframes
  | case3 first second hread hraised =>
    rw [drain_of_malformed hraised hread] at hframes
    exact absurd rfl hframes
  | case4 why hread => exact absurd (frames_drain_of_isWait (by rw [hread]; rfl)) hframes
  | case5 hread => exact absurd (frames_drain_of_isWait (by rw [hread]; rfl)) hframes

/-! ### What a run leaves -/

/-- A run that ends by what is raised leaves nothing. -/
theorem rest_of_raised {what : Raised} (hraised : (drain handler bytes).raised = some what) :
    (drain handler bytes).rest = [] := by
  fun_induction drain handler bytes with
  | case1 bytes frame hread ih => exact ih hraised
  | case2 bytes first second hread what hquiet => rfl
  | case3 bytes first second hread hquiet ih => exact ih hraised
  | case4 bytes why hread => cases hraised
  | case5 bytes hread => cases hraised

/-- **What a run leaves has to wait.** -/
theorem isWait_read_rest (handler : DiscardHandler) (bytes : Bytes) :
    (Head.read (drain handler bytes).rest).isWait = true := by
  have hnil : (Head.read []).isWait = true := by
    rw [Head.read_eq_short (by decide)]
    rfl
  fun_induction drain handler bytes with
  | case1 bytes frame hread ih => exact ih
  | case2 bytes first second hread what hraised => exact hnil
  | case3 bytes first second hread hraised ih => exact ih
  | case4 bytes why hread =>
    rw [hread]
    rfl
  | case5 bytes hread =>
    rw [hread]
    rfl

/-- A run leaves no more than there was. -/
theorem length_rest_le (handler : DiscardHandler) (bytes : Bytes) :
    (drain handler bytes).rest.length ≤ bytes.length := by
  fun_induction drain handler bytes with
  | case1 bytes frame hread ih =>
    rw [List.length_drop] at ih
    exact Nat.le_trans ih (Nat.sub_le _ _)
  | case2 bytes first second hread what hraised => exact Nat.zero_le _
  | case3 bytes first second hread hraised ih => exact Nat.le_trans ih (Nat.zero_le _)
  | case4 bytes why hread => exact Nat.le_refl _
  | case5 bytes hread => exact Nat.le_refl _

/-! ### Bytes in two parts -/

/-- **A run that dropped nothing can be taken up again**: what follows is fed to what it left. -/
theorem drain_append (hdrop : (drain handler bytes).discards = []) (more : Bytes) :
    (drain handler (bytes ++ more)).frames =
        (drain handler bytes).frames ++
          (drain handler ((drain handler bytes).rest ++ more)).frames ∧
      (drain handler (bytes ++ more)).discards =
        (drain handler ((drain handler bytes).rest ++ more)).discards ∧
      (drain handler (bytes ++ more)).rest =
        (drain handler ((drain handler bytes).rest ++ more)).rest := by
  fun_induction drain handler bytes with
  | case1 bytes frame hread ih =>
    -- The frame stands first in the longer bytes too, and what is behind it is longer by as much.
    have hread' : Head.read (bytes ++ more) = .frame frame := by
      rw [Head.read_append_of_isSettled (by rw [hread]; rfl), hread]
    obtain ⟨hframes, hdiscards, hrest⟩ := ih hdrop
    rw [drain_of_frame hread', List.drop_append_of_le_length (Head.length_le_of_read hread)]
    refine ⟨?_, hdiscards, hrest⟩
    rw [Drain.frames_after_frame, Drain.frames_after_frame, hframes]
    rfl
  | case2 bytes first second hread what hraised => exact absurd hdrop (List.cons_ne_nil _ _)
  | case3 bytes first second hread hraised ih => exact absurd hdrop (List.cons_ne_nil _ _)
  | case4 bytes why hread => exact ⟨rfl, rfl, rfl⟩
  | case5 bytes hread => exact ⟨rfl, rfl, rfl⟩

/-- **A run that dropped something has seen its last frame.** -/
theorem drain_append_of_discards (hdrop : (drain handler bytes).discards ≠ []) (more : Bytes) :
    (drain handler (bytes ++ more)).frames = (drain handler bytes).frames ∧
      (drain handler (bytes ++ more)).discards ≠ [] := by
  fun_induction drain handler bytes with
  | case1 bytes frame hread ih =>
    have hread' : Head.read (bytes ++ more) = .frame frame := by
      rw [Head.read_append_of_isSettled (by rw [hread]; rfl), hread]
    obtain ⟨hframes, hdiscards⟩ := ih hdrop
    rw [drain_of_frame hread', List.drop_append_of_le_length (Head.length_le_of_read hread)]
    refine ⟨?_, hdiscards⟩
    rw [Drain.frames_after_frame, Drain.frames_after_frame, hframes]
  | case2 bytes first second hread what hraised =>
    have hread' : Head.read (bytes ++ more) = .malformed first second := by
      rw [Head.read_append_of_isSettled (by rw [hread]; rfl), hread]
    rw [drain_of_malformed_of_raised hraised hread']
    exact ⟨rfl, List.cons_ne_nil _ _⟩
  | case3 bytes first second hread hraised ih =>
    have hread' : Head.read (bytes ++ more) = .malformed first second := by
      rw [Head.read_append_of_isSettled (by rw [hread]; rfl), hread]
    rw [drain_of_malformed hraised hread', drain_nil]
    exact ⟨rfl, List.cons_ne_nil _ _⟩
  | case4 bytes why hread => exact absurd rfl hdrop
  | case5 bytes hread => exact absurd rfl hdrop

end Rcon
