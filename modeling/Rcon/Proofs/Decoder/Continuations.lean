import Mathlib.Data.List.DropRight
import Rcon.Proofs.Decoder.Partition

/-!
# What the count says

A decoder counts the chunks that are buffered with no frame among them. The count is kept in several
places: a reader puts it up before the first attempt of a feed, and a frame, a discard and a reset
each set it back. **It is the number of chunks, other than empty ones, since the last turn that set
it back** (`continuations_after`), however the turns ended.

One turn sets the count back, adds one, or leaves it (`continuations_perform`), and only what sets
it back takes bytes off the buffer (`pending_perform_of_not_clears`). So every chunk that is counted
has left a byte there that nothing has taken since, and **nothing is counted where nothing is
pending**.
-/

namespace Rcon

/-! ### What turns do to the count -/

namespace Turn

/-- Does a turn feed a chunk that is not empty? -/
def feeds (turn : Turn) : Bool :=
  match turn.operation with
  | .feed chunk => chunk ≠ []
  | .reset => false

/-- Does a turn that does this complete a frame, drop bytes or reset the decoder? -/
def clears (turn : Turn) (fed : Feed) : Bool :=
  turn.operation = .reset || fed.frames ≠ [] || fed.discards ≠ []

theorem bytes_ne_nil_of_feeds {turn : Turn} (h : turn.feeds) : turn.operation.bytes ≠ [] := by
  obtain ⟨operation, handler⟩ := turn
  cases operation with
  | feed chunk => exact of_decide_eq_true h
  | reset => cases h

end Turn

namespace Decoder

/-- The turns since the last that cleared, which is not one of them. They are all if none did. -/
def sinceCleared (decoder : Decoder) (turns : List Turn) : List Turn :=
  ((turns.zip (decoder.play turns)).rtakeWhile fun done ↦ !done.1.clears done.2).map Prod.fst

/-! ### One turn -/

variable {decoder : Decoder} {turn : Turn}

/-- **A feed sets the count back or adds one to it**, unless the chunk is empty. -/
theorem Feeds.continuations_eq {handler : DiscardHandler} {chunk : Bytes} {fed : Feed}
    (h : Feeds decoder handler chunk fed) :
    fed.decoder.continuations =
      if fed.frames ≠ [] ∨ fed.discards ≠ [] then 0
      else if chunk ≠ [] then decoder.continuations + 1 else decoder.continuations := by
  -- A feed that does what its run does, for then the run decides.
  have hrun : chunk ≠ [] → ∀ outcome,
      (decoder.feedEnding handler chunk outcome).decoder.continuations =
        if (decoder.runOn handler chunk).frames ≠ [] ∨ (decoder.runOn handler chunk).discards ≠ []
        then 0
        else if chunk ≠ [] then decoder.continuations + 1 else decoder.continuations := by
    intro hchunk outcome
    rw [if_pos hchunk, feedEnding, drained]
    exact if_congr (Drain.any_consumes_iff _) rfl rfl
  cases h with
  | idle hchunk =>
    rw [if_neg (not_not_intro hchunk)]
    rfl
  | calm hchunk hcalm => exact hrun hchunk _
  | stalling hchunk hpolicy hover => exact hrun hchunk _
  | dropping hchunk hpolicy hover => exact (if_pos (.inr (List.cons_ne_nil _ _))).symm

/-- **A turn sets the count back, adds one to it, or leaves it.** -/
theorem continuations_perform (decoder : Decoder) (turn : Turn) :
    (decoder.perform turn).decoder.continuations =
      if turn.clears (decoder.perform turn) then 0
      else if turn.feeds then decoder.continuations + 1 else decoder.continuations := by
  obtain ⟨operation, handler⟩ := turn
  cases operation with
  | feed chunk =>
    rw [perform, step, (feeds decoder handler chunk).continuations_eq]
    simp [Turn.clears, Turn.feeds]
  | reset => rfl

/-- **A turn that does not clear takes no byte off the buffer.** -/
theorem pending_perform_of_not_clears (h : ¬turn.clears (decoder.perform turn)) :
    (decoder.perform turn).decoder.pending = decoder.pending ++ turn.operation.bytes := by
  have hcuts := cuts_perform decoder turn
  obtain ⟨operation, handler⟩ := turn
  cases operation with
  | feed chunk =>
    simp only [Turn.clears, reduceCtorEq, decide_false, Bool.false_or, Bool.or_eq_true,
      decide_eq_true_eq, not_or, not_not] at h
    have hnone : decoder.segments ⟨.feed chunk, handler⟩ = [] := by
      show Segment.ofTaken (decoder.perform ⟨.feed chunk, handler⟩).frames
        (decoder.perform ⟨.feed chunk, handler⟩).discards = []
      rw [h.1, h.2]
      rfl
    rw [hnone] at hcuts
    exact hcuts.eq_of_nil
  | reset => exact absurd rfl h

/-- **No more is counted than is pending**, if that was so before. -/
theorem continuations_perform_le (h : decoder.continuations ≤ decoder.pending.length) :
    (decoder.perform turn).decoder.continuations ≤
      (decoder.perform turn).decoder.pending.length := by
  rw [continuations_perform]
  split
  · exact Nat.zero_le _
  · next hclears =>
    rw [pending_perform_of_not_clears hclears, List.length_append]
    split
    · next hfeeds =>
      exact Nat.add_le_add h (List.length_pos_of_ne_nil (Turn.bytes_ne_nil_of_feeds hfeeds))
    · exact Nat.le_add_right_of_le h

/-! ### All turns -/

/-- A turn that clears is the last such, and one that does not is one more since. -/
theorem sinceCleared_concat (decoder : Decoder) (turns : List Turn) (turn : Turn) :
    decoder.sinceCleared (turns ++ [turn]) =
      if turn.clears ((decoder.after turns).perform turn) then []
      else decoder.sinceCleared turns ++ [turn] := by
  rw [sinceCleared, play_append, List.zip_append (length_play decoder turns).symm]
  show List.map _ (List.rtakeWhile _ (_ ++ [(turn, (decoder.after turns).perform turn)])) = _
  split
  · next hclears =>
    rw [List.rtakeWhile_concat_neg _ _ _ (by simpa using hclears)]
    rfl
  · next hclears =>
    rw [List.rtakeWhile_concat_pos _ _ _ (by simpa using hclears), List.map_append]
    rfl

/-- **The count is that of the feeds since the last turn that cleared.** -/
theorem continuations_after_eq_countP (config : Config) (turns : List Turn) :
    ((fresh config).after turns).continuations =
      ((fresh config).sinceCleared turns).countP Turn.feeds := by
  induction turns using List.reverseRecOn with
  | nil => rfl
  | append_singleton turns turn ih =>
    rw [after_concat, continuations_perform, sinceCleared_concat, ih]
    split
    · rfl
    · rw [List.countP_append, List.countP_singleton]
      split
      · rfl
      · rfl

/-- **The count tells the truth.** It is the number of chunks, other than empty ones, that were fed
since the last turn that completed a frame, dropped bytes or was a reset, and it is never more than
the number of bytes that are pending; so it is zero where none is. A reader, who sets it back in
the middle of a run of attempts, has come to the same. -/
theorem continuations_after (config : Config) (turns : List Turn) :
    let decoder := (fresh config).after turns
    decoder.continuations =
        ((fresh config).sinceCleared turns).countP Turn.feeds ∧
      decoder.continuations ≤ decoder.pending.length ∧
      (decoder.pending = [] → decoder.continuations = 0) ∧
      ((Reader.ofDecoder (fresh config)).after turns).continuations = decoder.continuations := by
  intro decoder
  have hle : decoder.continuations ≤ decoder.pending.length :=
    after_induction (p := fun decoder ↦ decoder.continuations ≤ decoder.pending.length)
      (Nat.le_refl 0) (fun _ _ ↦ continuations_perform_le) turns
  refine ⟨continuations_after_eq_countP config turns, hle, fun hnil ↦ ?_, ?_⟩
  · rw [hnil] at hle
    exact Nat.eq_zero_of_le_zero hle
  · rw [Reader.after_ofDecoder]
    rfl

/-- A frame stalls where sixteen bytes are allowed and is completed by the next chunk. Two more
chunks are counted, and the empty one between them is not; a reset leaves nothing. -/
theorem continuations_after_stall :
    let config : Config := ⟨16, .throw, 30, by decide⟩
    let packet := Packet.bytes ⟨16, 100000001, 0, [115, 116, 97, 108, 108, 115], 0, 0⟩
    let before : List Turn := [⟨.feed (packet.take 18), .absent⟩, ⟨.feed (packet.drop 18), .absent⟩]
    let since : List Turn := [⟨.feed [1], .absent⟩, ⟨.feed [], .absent⟩, ⟨.feed [2, 3], .absent⟩]
    let stopped := before ++ since ++ [⟨.reset, .absent⟩]
    ((fresh config).after (before.take 1)).continuations = 1 ∧
      ((fresh config).sinceCleared (before ++ since)) = since ∧
      ((fresh config).after (before ++ since)).continuations = 2 ∧
      ((fresh config).after stopped).pending = [] ∧
      ((fresh config).after stopped).continuations = 0 := by
  intro config packet before since stopped
  obtain ⟨hcount, -, -⟩ := continuations_after config (before ++ since)
  have hsince : (fresh config).sinceCleared (before ++ since) = since := by decide +kernel
  rw [hsince] at hcount
  have hstopped : ((fresh config).after stopped).pending = [] := by decide +kernel
  exact ⟨by decide +kernel, hsince, hcount, hstopped,
    (continuations_after config stopped).2.2.1 hstopped⟩

end Decoder

end Rcon
