import Rcon.Proofs.Decoder.Reader
import Rcon.Proofs.Frame.Grammar

/-!
# Where every byte goes

The bytes that a decoder is fed are cut into **segments**: one for each frame, one for each discard
and one for each reset, in the order in which these come, and behind them what is pending. Nothing
is between two segments and no byte is in two of them (`Segment.Cuts`).

Cuts are put together end to end (`Cuts.append`), and a cut stays a cut when more bytes follow
(`Cuts.append_right`). So it is enough to cut the bytes of one run of attempts (`cuts_drain`) and of
one turn (`cuts_perform`), however it ends.
-/

namespace Rcon

/-! ### Segments -/

/-- Why a part of the stream is no longer buffered. -/
inductive Segment
  /-- The part was a frame. -/
  | frame (completed : Frame)
  /-- The part was dropped without a frame. -/
  | discard (dropped : Discard)
  /-- The part was pending at a reset. -/
  | reset (pending : Bytes)
  deriving DecidableEq, Repr

namespace Segment

/-- The number of bytes in a segment. -/
def length : Segment → Nat
  | .frame completed => 14 + completed.body.length
  | .discard dropped => dropped.bytes
  | .reset pending => pending.length

/-- The number of bytes in segments. -/
def total : List Segment → Nat
  | [] => 0
  | segment :: rest => segment.length + total rest

/-- Are these the bytes of a segment? A discard says no more than how many they are. -/
def Covers : Segment → Bytes → Prop
  | .frame completed, piece => piece = completed.packet.bytes
  | .discard dropped, piece => piece.length = dropped.bytes
  | .reset pending, piece => piece = pending

/-- The bytes of a segment are as many as it says. -/
theorem Covers.length_eq {segment : Segment} {piece : Bytes} (h : segment.Covers piece) :
    piece.length = segment.length := by
  cases segment with
  | frame completed =>
    obtain rfl := h
    exact completed.packet.length_bytes
  | discard dropped => exact h
  | reset pending =>
    obtain rfl := h
    rfl

/-- A way to cut bytes into segments, end to end from the front, and a rest. -/
inductive Cuts : Bytes → List Segment → Bytes → Prop
  /-- Nothing is cut off. -/
  | rest (bytes : Bytes) : Cuts bytes [] bytes
  /-- The bytes of a segment are cut off in front. -/
  | cons {segment : Segment} {piece bytes : Bytes} {segments : List Segment} {rest : Bytes}
      (head : segment.Covers piece) (tail : Cuts bytes segments rest) :
      Cuts (piece ++ bytes) (segment :: segments) rest

namespace Cuts

variable {bytes middle rest : Bytes} {segments more : List Segment}

/-- What is left can be cut further. -/
theorem append (first : Cuts bytes segments middle) (last : Cuts middle more rest) :
    Cuts bytes (segments ++ more) rest := by
  induction first with
  | rest bytes => exact last
  | cons head tail ih => exact .cons head (ih last)

theorem append_right (h : Cuts bytes segments rest) (following : Bytes) :
    Cuts (bytes ++ following) segments (rest ++ following) := by
  induction h with
  | rest bytes => exact .rest _
  | cons head tail ih =>
    rw [List.append_assoc]
    exact .cons head ih

theorem singleton {segment : Segment} (h : segment.Covers bytes) : Cuts bytes [segment] [] := by
  have hcuts := Cuts.cons h (.rest [])
  rwa [List.append_nil] at hcuts

theorem suffix (h : Cuts bytes segments rest) : rest <:+ bytes := by
  induction h with
  | rest bytes => exact List.suffix_refl bytes
  | @cons segment piece bytes segments rest head tail ih =>
    exact ih.trans (List.suffix_append piece bytes)

theorem eq_of_nil (h : Cuts bytes [] rest) : rest = bytes := by
  cases h
  rfl

/-- **Every byte is in one segment or left.** -/
theorem length_eq (h : Cuts bytes segments rest) :
    bytes.length = total segments + rest.length := by
  induction h with
  | rest bytes => exact (Nat.zero_add _).symm
  | cons head tail ih =>
    rw [List.length_append, head.length_eq, ih, total, Nat.add_assoc]

end Cuts

/-- The segments of what is taken off the bytes at once: frames, and then discards. -/
def ofTaken (frames : List Frame) (discards : List Discard) : List Segment :=
  frames.map .frame ++ discards.map .discard

end Segment

open Segment

/-! ### One operation -/

/-- **A run of attempts cuts its bytes** into its frames, its discards and what it leaves. -/
theorem cuts_drain (handler : DiscardHandler) (bytes : Bytes) :
    Cuts bytes (ofTaken (drain handler bytes).frames (drain handler bytes).discards)
      (drain handler bytes).rest := by
  fun_induction drain handler bytes with
  | case1 bytes frame hread ih =>
    have hcuts := Cuts.cons (show (Segment.frame frame).Covers frame.packet.bytes from rfl) ih
    rwa [← Head.eq_bytes_append_of_read hread] at hcuts
  | case2 bytes first second hread what hraised => exact .singleton rfl
  | case3 bytes first second hread hraised ih =>
    rw [drain_nil]
    exact .singleton rfl
  | case4 bytes why hread => exact .rest bytes
  | case5 bytes hread => exact .rest bytes

namespace Decoder

/-- The segments that a turn makes. -/
def segments (decoder : Decoder) (turn : Turn) : List Segment :=
  match turn.operation with
  | .feed chunk =>
    ofTaken (decoder.feed turn.handler chunk).frames (decoder.feed turn.handler chunk).discards
  | .reset => [.reset decoder.pending]

/-- The segments that turns make, in order. -/
def history (decoder : Decoder) : List Turn → List Segment
  | [] => []
  | turn :: rest => decoder.segments turn ++ (decoder.perform turn).decoder.history rest

/-- **A feed cuts what was pending and the chunk.** -/
theorem cuts_feed (decoder : Decoder) (handler : DiscardHandler) (chunk : Bytes) :
    Cuts (decoder.pending ++ chunk)
      (ofTaken (decoder.feed handler chunk).frames (decoder.feed handler chunk).discards)
      (decoder.feed handler chunk).decoder.pending := by
  have hfeeds := feeds decoder handler chunk
  have hdrain := cuts_drain handler (decoder.pending ++ chunk)
  generalize decoder.feed handler chunk = fed at hfeeds ⊢
  cases hfeeds with
  | idle hchunk =>
    rw [hchunk, List.append_nil]
    exact .rest decoder.pending
  | calm hchunk hcalm => exact hdrain
  | stalling hchunk hpolicy hover => exact hdrain
  | dropping hchunk hpolicy hover =>
    -- The run took nothing off, and then all of it goes.
    show Cuts _ (ofTaken (decoder.runOn handler chunk).frames _) []
    rw [hover.1]
    exact .singleton rfl

theorem cuts_perform (decoder : Decoder) (turn : Turn) :
    Cuts (decoder.pending ++ turn.operation.bytes) (decoder.segments turn)
      (decoder.perform turn).decoder.pending := by
  obtain ⟨operation, handler⟩ := turn
  cases operation with
  | feed chunk => exact cuts_feed decoder handler chunk
  | reset =>
    show Cuts (decoder.pending ++ []) [.reset decoder.pending] []
    rw [List.append_nil]
    exact .singleton rfl

/-! ### All turns -/

/-- Turns cut what was pending and what they bring. -/
theorem cuts_after (decoder : Decoder) (turns : List Turn) :
    Cuts (decoder.pending ++ Turn.allBytes turns) (decoder.history turns)
      (decoder.after turns).pending := by
  induction turns generalizing decoder with
  | nil =>
    show Cuts (decoder.pending ++ []) [] decoder.pending
    rw [List.append_nil]
    exact .rest decoder.pending
  | cons turn rest ih =>
    have hperform := (cuts_perform decoder turn).append_right (Turn.allBytes rest)
    rw [List.append_assoc] at hperform
    exact hperform.append (ih (decoder.perform turn).decoder)

/-- **No byte is lost, and none is taken twice**: what a new decoder was fed is cut into the frames,
the discards and the resets that there were and what is pending. A buffer that is read at an offset
holds just what is pending, and the offset is at its front. -/
theorem cuts_play (config : Config) (turns : List Turn) :
    Cuts (Turn.allBytes turns) ((fresh config).history turns)
        ((fresh config).after turns).pending ∧
      ((fresh config).after turns).pending <:+ Turn.allBytes turns ∧
      (Turn.allBytes turns).length =
        total ((fresh config).history turns) + ((fresh config).after turns).pending.length ∧
      (∀ fed ∈ (fresh config).play turns,
        fed.outcome = .ok (fed.frames.map Frame.response) ∨
          ∃ failure, fed.outcome = .error failure) ∧
      (Reader.ofDecoder (fresh config)).play turns =
        ((fresh config).play turns).map fun fed ↦
          ({ config
             buffer := fed.decoder.pending
             offset := 0
             continuations := fed.decoder.continuations }, fed.outcome, fed.discards) := by
  have hcuts := cuts_after (fresh config) turns
  refine ⟨hcuts, hcuts.suffix, hcuts.length_eq, fun fed hfed ↦ ?_, ?_⟩
  · obtain ⟨done, turn, rfl⟩ := exists_perform_of_mem_play hfed
    exact outcome_step_cases _ turn.handler turn.operation
  · rw [Reader.play_ofDecoder]
    refine List.map_congr_left fun fed hfed ↦ ?_
    obtain ⟨done, turn, rfl⟩ := exists_perform_of_mem_play hfed
    rw [Reader.ofDecoder, perform, config_step, config_after]
    rfl

/-- A frame, and behind it the malformed end of a split response that the caller objects to; then a
few bytes and a reset. -/
example :
    (fresh Config.default).history
        [⟨.feed (Packet.bytes ⟨10, -1, 2, [], 0, 0⟩ ++ Packet.bytes ⟨10, 999, 0, [], 0, 1⟩),
          .raises (.error "")⟩,
        ⟨.feed [1, 2, 3], .absent⟩, ⟨.reset, .absent⟩] =
      [.frame ⟨10, -1, .authentication, []⟩, .discard ⟨.malformedTerminator, 14⟩,
        .reset [1, 2, 3]] := by
  decide +kernel

end Decoder

end Rcon
