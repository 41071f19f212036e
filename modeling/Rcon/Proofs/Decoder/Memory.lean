import Rcon.Proofs.Decoder.Run
import Rcon.Proofs.Decoder.Turns

/-!
# How much is buffered

A decoder that drops what has stalled buffers a bounded number of bytes, and the bound is not the
limit. The limit is looked at only after a run of attempts that completed no frame, and a frame may
be shorter by far than the size that made the decoder wait for it.

`Decoder.peak` is the most that chunks of a given length can bring a decoder to, and it is exact
(`staysWithin_iff`):

* **A frame takes fourteen bytes off**, and before the last chunk it was still waiting: for its
  size, which is at most the largest there is, or for its own last byte
  (`length_rest_of_frames_ne_nil`). So chunks of up to fourteen bytes never pass the limit, and
  longer ones pass the largest size by no more than the chunk.
* **A stream that creeps** completes an empty frame with every chunk, and each frame declares one
  byte more than the one before (`creeping`). The buffer grows by a byte a chunk, and the limit is
  never looked at.
-/

namespace Rcon

/-! ### What a frame leaves -/

/-- **What is left behind a frame that had to be waited for**: fourteen bytes less than there were,
and fourteen less than the largest size and the chunk together. -/
theorem length_rest_of_frames_ne_nil {handler : DiscardHandler} {bytes chunk : Bytes}
    (hwait : (Head.read bytes).isWait = true)
    (hframes : (drain handler (bytes ++ chunk)).frames ≠ []) :
    (drain handler (bytes ++ chunk)).rest.length + 14 ≤ bytes.length + chunk.length ∧
      (drain handler (bytes ++ chunk)).rest.length + 14 ≤ Head.longestWait + chunk.length := by
  obtain ⟨frame, hread⟩ := exists_read_eq_frame hframes
  have hlength : frame.length = 14 + frame.body.length := rfl
  have hfit := Head.length_le_of_read hread
  have hrest := length_rest_le handler ((bytes ++ chunk).drop frame.length)
  rw [drain_of_frame hread, Drain.rest_after]
  rw [List.length_drop] at hrest
  rw [List.length_append] at hfit hrest
  -- What was there before the chunk was open, or the frame would have been completed then.
  have hopen : (Head.read bytes).isSettled = false := by
    refine Bool.eq_false_iff.2 fun hsettled ↦ ?_
    rw [← Head.read_append_of_isSettled hsettled chunk, hread] at hwait
    exact absurd hwait (by simp [Head.isWait])
  have hlong : Head.longestWait = 2147483650 := rfl
  rcases Head.length_le_of_isSettled_eq_false hopen with hle | hlt
  · constructor <;> omega
  · have hshorter := hlt chunk frame hread
    constructor <;> omega

namespace Decoder

variable {decoder : Decoder} {handlers : Nat → DiscardHandler} {chunk : Bytes} {C bound : Nat}

theorem pending_stall (handler : DiscardHandler)
    (hpolicy : decoder.config.stallPolicy = .discard) :
    (decoder.stall handler).decoder.pending = [] := by
  rw [stall, hpolicy]
  rfl

/-- What is pending after a chunk: nothing, or what the run of attempts left, and without a frame in
it that is within the limit. -/
theorem pending_feed (handler : DiscardHandler)
    (hpolicy : decoder.config.stallPolicy = .discard) (hchunk : chunk ≠ []) :
    (decoder.feed handler chunk).decoder.pending = [] ∨
      (decoder.feed handler chunk).decoder.pending =
          (drain handler (decoder.pending ++ chunk)).rest ∧
        ((drain handler (decoder.pending ++ chunk)).frames = [] →
          (drain handler (decoder.pending ++ chunk)).rest.length ≤
            decoder.config.maxPendingBytes) := by
  rcases hraised : (drain handler (decoder.pending ++ chunk)).raised with - | what
  · by_cases hcalm : (drain handler (decoder.pending ++ chunk)).frames = [] →
        (drain handler (decoder.pending ++ chunk)).rest.length ≤ decoder.config.maxPendingBytes
    · exact .inr ⟨(follows_of_calm hchunk hraised hcalm).pending, hcalm⟩
    · obtain ⟨hframes, hlimit⟩ := Classical.not_imp.1 hcalm
      left
      rw [decoder_feed decoder handler hchunk,
        settle_of_not_calm hraised hframes (Nat.lt_of_not_le hlimit)]
      exact pending_stall handler hpolicy
  · left
    rw [decoder_feed decoder handler hchunk, settle, hraised]
    exact rest_of_raised hraised

/-! ### The bound -/

/-- Does the decoder stay within a bound, whatever chunks of up to `C` bytes it is fed? What the
caller does about a discard is open for every chunk. -/
def StaysWithin (decoder : Decoder) (handlers : Nat → DiscardHandler) (C bound : Nat) : Prop :=
  ∀ chunks : List Bytes, (∀ chunk ∈ chunks, chunk.length ≤ C) →
    ∀ fed ∈ decoder.play (chunks.mapIdx fun k chunk ↦ ⟨.feed chunk, handlers k⟩),
      fed.decoder.pending.length ≤ bound

/-- The most that chunks of up to `C` bytes can bring a new decoder with this limit to. -/
def peak (limit C : Nat) : Nat :=
  if C = 0 then 0
  else if C ≤ 14 then limit
  else max limit (Head.longestWait + C - 14)

/-- **A chunk keeps the buffer within the peak**, and what it leaves has to wait. -/
theorem pending_feed_le_peak (handler : DiscardHandler)
    (hpolicy : decoder.config.stallPolicy = .discard)
    (hwait : (Head.read decoder.pending).isWait = true)
    (hpeak : decoder.pending.length ≤ peak decoder.config.maxPendingBytes C)
    (hchunk : chunk.length ≤ C) :
    (Head.read (decoder.feed handler chunk).decoder.pending).isWait = true ∧
      (decoder.feed handler chunk).decoder.pending.length ≤
        peak decoder.config.maxPendingBytes C := by
  by_cases hempty : chunk = []
  · subst hempty
    exact ⟨hwait, hpeak⟩
  have hpos : 0 < chunk.length := List.length_pos_iff.2 hempty
  rcases pending_feed handler hpolicy hempty with hnone | ⟨hrest, hcalm⟩
  · rw [hnone]
    exact ⟨isWait_fresh decoder.config, Nat.zero_le _⟩
  · rw [hrest]
    refine ⟨isWait_read_rest handler _, ?_⟩
    rw [peak] at hpeak ⊢
    rw [if_neg (by omega)] at hpeak ⊢
    by_cases hframes : (drain handler (decoder.pending ++ chunk)).frames = []
    · have hlimit := hcalm hframes
      split <;> omega
    · obtain ⟨hshorter, hbelow⟩ := length_rest_of_frames_ne_nil hwait hframes
      split at hpeak
      · rw [if_pos ‹_›]
        omega
      · rw [if_neg ‹_›]
        omega

/-- A decoder with no more than the peak stays within it. -/
theorem staysWithin_peak (hpolicy : decoder.config.stallPolicy = .discard)
    (hwait : (Head.read decoder.pending).isWait = true)
    (hpeak : decoder.pending.length ≤ peak decoder.config.maxPendingBytes C) :
    decoder.StaysWithin handlers C (peak decoder.config.maxPendingBytes C) := by
  intro chunks hchunks
  induction chunks generalizing decoder handlers with
  | nil => exact fun fed hfed ↦ absurd hfed (List.not_mem_nil)
  | cons chunk chunks ih =>
    obtain ⟨hchunk, hchunks⟩ := List.forall_mem_cons.1 hchunks
    obtain ⟨hwait', hpeak'⟩ := pending_feed_le_peak (handlers 0) hpolicy hwait hpeak hchunk
    intro fed hfed
    rw [List.mapIdx_cons, play] at hfed
    rcases List.mem_cons.1 hfed with rfl | hfed
    · exact hpeak'
    · rw [← config_feed decoder (handlers 0) chunk] at hpolicy hpeak' ⊢
      exact ih hpolicy hwait' hpeak' hchunks fed hfed

/-! ### Reaching the bound -/

/-- Zeros have to wait, however many: no response has the id zero. -/
theorem isWait_zeros (n : Nat) : (Head.read (List.replicate n 0)).isWait = true := by
  by_cases hshort : n < 14
  · rw [Head.read_eq_short (by rwa [List.length_replicate])]
    rfl
  · obtain ⟨m, rfl⟩ := Nat.exists_eq_add_of_le (Nat.le_of_not_lt hshort)
    have hzeros : List.replicate (14 + m) 0 =
        Frame.header 0 0 0 ++ List.replicate (2 + m) (0 : UInt8) := by
      rw [show 14 + m = 12 + (2 + m) by omega, ← List.replicate_append_replicate]
      rfl
    rw [hzeros, Head.read_header_append (by decide) (by decide) (by decide), Head.ofHeader,
      List.length_replicate, if_neg (by omega), if_neg (by omega)]
    rfl

/-- A bound on what a decoder comes to is one on what it comes to behind a chunk. -/
theorem StaysWithin.feed (h : decoder.StaysWithin handlers C bound) (chunk : Bytes)
    (hchunk : chunk.length ≤ C) :
    (decoder.feed (handlers 0) chunk).decoder.pending.length ≤ bound ∧
      (decoder.feed (handlers 0) chunk).decoder.StaysWithin (fun k ↦ handlers (k + 1)) C bound := by
  constructor
  · exact h [chunk] (by simpa using hchunk) _ List.mem_cons_self
  · intro chunks hchunks fed hfed
    refine h (chunk :: chunks) (List.forall_mem_cons.2 ⟨hchunk, hchunks⟩) fed ?_
    rw [List.mapIdx_cons, play]
    exact List.mem_cons_of_mem _ hfed

/-- A zero behind zeros stays, up to the limit. -/
theorem pending_feed_zero (handler : DiscardHandler) {m : Nat}
    (hpending : decoder.pending = List.replicate m 0)
    (hlimit : m < decoder.config.maxPendingBytes) :
    (decoder.feed handler [0]).decoder.pending = List.replicate (m + 1) 0 := by
  have hdrain : drain handler (decoder.pending ++ [0]) =
      ⟨[⟨m + 1, Head.read (List.replicate (m + 1) 0)⟩], List.replicate (m + 1) 0, none⟩ := by
    rw [hpending, ← List.replicate_succ', drain_of_isWait (isWait_zeros (m + 1)),
      List.length_replicate]
  have hfollows : (decoder.feed handler [0]).Follows (drain handler (decoder.pending ++ [0])) := by
    refine follows_of_calm (List.cons_ne_nil _ _) (by rw [hdrain]) fun _ ↦ ?_
    rw [hdrain]
    show (List.replicate (m + 1) (0 : UInt8)).length ≤ _
    rwa [List.length_replicate]
  rw [hfollows.pending, hdrain]

/-- **Zeros fill the buffer up to the limit**, one after the other. -/
theorem StaysWithin.add_le_of_zeros {m n : Nat} (h : decoder.StaysWithin handlers C bound)
    (hC : 0 < C) (hpending : decoder.pending = List.replicate m 0)
    (hlimit : m + n < decoder.config.maxPendingBytes) : m + n + 1 ≤ bound := by
  induction n generalizing decoder handlers m with
  | zero =>
    have hle := (h.feed [0] hC).1
    rwa [pending_feed_zero (handlers 0) hpending hlimit, List.length_replicate] at hle
  | succ n ih =>
    have hnext := pending_feed_zero (handlers 0) hpending (by omega)
    rw [Nat.add_comm n 1, ← Nat.add_assoc] at hlimit ⊢
    rw [← config_feed decoder (handlers 0) [0]] at hlimit
    exact ih (h.feed [0] hC).2 hnext hlimit

/-- An empty frame that declares as many bytes as leave it waiting for one more than `j`. -/
def creep (j : Nat) : Bytes :=
  Frame.header ((j : Int) - 3) (-1) 0 ++ [0, 0]

/-- Frames in a row that creep: each waits for one byte more than the one before. -/
def creeping : Nat → Nat → Bytes
  | _, 0 => []
  | j, n + 1 => creep j ++ creeping (j + 1) n

@[simp] theorem length_creep (j : Nat) : (creep j).length = 14 := rfl

@[simp] theorem length_creeping (j n : Nat) : (creeping j n).length = 14 * n := by
  induction n generalizing j with
  | zero => rfl
  | succ n ih =>
    rw [creeping, List.length_append, length_creep, ih]
    omega

theorem isInt32_creep {j : Nat} (hj : j ≤ Head.longestWait) :
    Bytes.isInt32 ((j : Int) - 3) = true := by
  simp only [Head.longestWait] at hj
  simp only [Bytes.isInt32, Bool.and_eq_true, decide_eq_true_eq]
  simp only [Bytes.int32Least, Bytes.int32Greatest]
  omega

theorem isWait_take_creep {j : Nat} (hj : j ≤ Head.longestWait) (left : Bytes) :
    (Head.read ((creep j ++ left).take j)).isWait = true := by
  rw [creep, List.append_assoc]
  refine Head.isWait_of_lt_size (isInt32_creep hj) (by decide) (by decide)
    (List.take_prefix j _) ?_
  have hlen := List.length_take_le j (Frame.header ((j : Int) - 3) (-1) 0 ++ ([0, 0] ++ left))
  omega

/-- A frame that creeps is complete with one byte more than it leaves waiting, and takes fourteen
bytes. -/
theorem read_creep_append {j : Nat} (hj : j ≤ Head.longestWait) {left : Bytes}
    (hleft : j ≤ left.length + 13) :
    Head.read (creep j ++ left) = .frame ⟨(j : Int) - 3, -1, .value, []⟩ := by
  have hend : Head.bodyEnd ((j : Int) - 3) (0 :: 0 :: left) = 0 := by
    rw [Head.bodyEnd]
    rcases ((j : Int) - 3 - 8).toNat with - | n <;> rfl
  rw [creep, List.append_assoc,
    Head.read_header_append (isInt32_creep hj) (by decide) (by decide)]
  show Head.ofHeader _ _ _ (0 :: 0 :: left) = _
  rw [Head.ofHeader, List.length_cons, List.length_cons, if_neg (by omega), if_neg (by omega)]
  show Head.ofTail _ _ _ (0 :: 0 :: left) = _
  rw [Head.ofTail, hend]
  rfl

/-- **A chunk that completes a frame that creeps leaves what is behind it**, whatever the limit is.
-/
theorem pending_feed_creep (handler : DiscardHandler) {j : Nat} (hj : j ≤ Head.longestWait)
    {left : Bytes} (hleft : j ≤ left.length + 13) (hwait : (Head.read left).isWait = true)
    (hchunk : chunk ≠ [])
    (hpending : decoder.pending ++ chunk = creep j ++ left) :
    (decoder.feed handler chunk).decoder.pending = left := by
  have hdrain := @drain_of_frame handler _ _ (read_creep_append hj hleft)
  rw [show Frame.length ⟨(j : Int) - 3, -1, .value, []⟩ = (creep j).length from rfl,
    List.drop_left, drain_of_isWait hwait, ← hpending] at hdrain
  have hfollows : (decoder.feed handler chunk).Follows
      (drain handler (decoder.pending ++ chunk)) := by
    refine follows_of_calm hchunk (by rw [hdrain]; rfl) fun hframes ↦ ?_
    rw [hdrain] at hframes
    exact absurd hframes (List.cons_ne_nil _ _)
  rw [hfollows.pending, hdrain]
  rfl

/-- **Fifteen bytes of a stream that creeps bring the buffer from `j` bytes to one more.** -/
theorem feed_take_of_creeping (handler : DiscardHandler) {j : Nat} {rest left : Bytes}
    (hj : decoder.pending.length = j)
    (hlong : j ≤ Head.longestWait) (hstream : decoder.pending ++ rest = creep j ++ left)
    (hleft : j < left.length) (hwait : (Head.read (left.take (j + 1))).isWait = true) :
    (decoder.feed handler (rest.take 15)).decoder.pending.length = j + 1 ∧
      (decoder.feed handler (rest.take 15)).decoder.pending ++ rest.drop 15 = left := by
  have hlen := congrArg List.length hstream
  rw [List.length_append, List.length_append, length_creep] at hlen
  have htake : (left.take (j + 1)).length = j + 1 := List.length_take_of_le hleft
  have hchunk : rest.take 15 ≠ [] := by
    refine List.ne_nil_of_length_pos ?_
    rw [List.length_take]
    omega
  have hfirst : decoder.pending ++ rest.take 15 = creep j ++ left.take (j + 1) := by
    rw [← List.take_length_add_append, hstream, hj, show j + 15 = (creep j).length + (j + 1) by
      rw [length_creep]; omega, List.take_length_add_append]
  have hnext : (decoder.feed handler (rest.take 15)).decoder.pending = left.take (j + 1) :=
    pending_feed_creep handler hlong (by omega) hwait hchunk hfirst
  refine ⟨by rw [hnext, htake], List.append_cancel_left (?_ : creep j ++ _ = creep j ++ _)⟩
  rw [hnext, ← List.append_assoc, ← hfirst, List.append_assoc, List.take_append_drop, hstream]

/-- **A stream that creeps brings the buffer to any length up to the largest size**, and a last
chunk of zeros further by what it does not spend on a frame. -/
theorem StaysWithin.le_of_creeping {j m n : Nat} {rest : Bytes}
    (h : decoder.StaysWithin handlers C bound) (hC : 15 ≤ C) (hj : decoder.pending.length = j)
    (hlong : j + n ≤ Head.longestWait) (hm : m + 14 = j + n + C)
    (hstream : decoder.pending ++ rest = creeping j (n + 1) ++ List.replicate m 0) :
    m ≤ bound := by
  have hzeros : (List.replicate m (0 : UInt8)).length = m := List.length_replicate
  induction n generalizing decoder handlers j rest with
  | zero =>
    have hlen := congrArg List.length hstream
    rw [List.length_append, List.length_append, length_creeping, hzeros] at hlen
    have hchunk : rest ≠ [] := List.ne_nil_of_length_pos (by omega)
    have hnext : (decoder.feed (handlers 0) rest).decoder.pending = List.replicate m 0 := by
      refine pending_feed_creep (handlers 0) hlong (by omega) (isWait_zeros m) hchunk ?_
      rw [hstream, creeping, creeping, List.append_nil]
      rfl
    have hle := (h.feed rest (by omega)).1
    rwa [hnext, hzeros] at hle
  | succ n ih =>
    rw [creeping, List.append_assoc] at hstream
    have hleft : (creeping (j + 1) (n + 1) ++ List.replicate m (0 : UInt8)).length =
        14 * (n + 1) + m := by
      rw [List.length_append, length_creeping, hzeros]
    have hwait : (Head.read
        ((creeping (j + 1) (n + 1) ++ List.replicate m 0).take (j + 1))).isWait = true := by
      rw [creeping, List.append_assoc]
      exact isWait_take_creep (by omega) _
    obtain ⟨hj', hstream'⟩ := feed_take_of_creeping (handlers 0) hj (by omega) hstream
      (by omega) hwait
    have hchunk : (rest.take 15).length ≤ C := Nat.le_trans (List.length_take_le 15 rest) hC
    exact ih (h.feed (rest.take 15) hchunk).2 hj' (by omega) (by omega) hstream'

/-! ### The exact bound -/

/-- **Any bound is at least the peak**: zeros come to the limit, and a stream that creeps beyond the
largest size. -/
theorem StaysWithin.peak_le {config : Config} (h : (fresh config).StaysWithin handlers C bound) :
    peak config.maxPendingBytes C ≤ bound := by
  have hpos := config.maxPendingBytes_pos
  have hlong : Head.longestWait = 2147483650 := rfl
  rw [peak]
  split
  · exact Nat.zero_le bound
  · have hlimit : config.maxPendingBytes ≤ bound := by
      have hle := h.add_le_of_zeros (m := 0) (n := config.maxPendingBytes - 1) (by omega) rfl
        (show 0 + (config.maxPendingBytes - 1) < config.maxPendingBytes by omega)
      omega
    split
    · exact hlimit
    · refine Nat.max_le.2 ⟨hlimit, ?_⟩
      exact h.le_of_creeping (j := 0) (n := Head.longestWait) (by omega) rfl (by omega) (by omega)
        (List.nil_append _)

/-- **The peak is the least bound.** The limit and a chunk are one where no chunk is longer than an
empty frame, or the limit is next to the largest size, and not otherwise. -/
theorem staysWithin_iff (config : Config) (handlers : Nat → DiscardHandler)
    (hpolicy : config.stallPolicy = .discard) (C : Nat) :
    (∀ bound : Nat,
        (fresh config).StaysWithin handlers C bound ↔ peak config.maxPendingBytes C ≤ bound) ∧
      ((fresh config).StaysWithin handlers C (config.maxPendingBytes + C) ↔
        C ≤ 14 ∨ Head.longestWait ≤ config.maxPendingBytes + 14) := by
  have hexact : ∀ bound : Nat,
      (fresh config).StaysWithin handlers C bound ↔ peak config.maxPendingBytes C ≤ bound := by
    refine fun bound ↦ ⟨StaysWithin.peak_le, fun hle chunks hchunks fed hfed ↦ ?_⟩
    refine Nat.le_trans ?_ hle
    exact staysWithin_peak hpolicy (isWait_fresh config) (Nat.zero_le _) chunks hchunks fed hfed
  refine ⟨hexact, ?_⟩
  have hlong : Head.longestWait = 2147483650 := rfl
  rw [hexact, peak]
  split
  · omega
  · split <;> omega

/-- With the default settings, chunks as long as a packet may be, and a caller who raises an error
about the second of them if it is dropped. -/
theorem staysWithin_iff_default :
    let handlers : Nat → DiscardHandler := fun k ↦ if k = 1 then .raises (.text "no") else .returns
    (∀ bound : Nat, (fresh .default).StaysWithin handlers 4096 bound ↔ 2147487732 ≤ bound) ∧
      ((fresh .default).StaysWithin handlers 4096 (65536 + 4096) ↔
        4096 ≤ 14 ∨ Head.longestWait ≤ 65536 + 14) :=
  staysWithin_iff .default _ rfl 4096

/-- Two chunks bring a decoder beyond its limit and a chunk. The first leaves sixteen bytes, which
declare eight more; the second makes a frame of fourteen of them, and 32 are left. -/
theorem not_forall_staysWithin_limit_add :
    ¬∀ (config : Config) (handlers : Nat → DiscardHandler) (C : Nat),
      config.stallPolicy = .discard →
      (fresh config).StaysWithin handlers C (config.maxPendingBytes + C) := by
  intro h
  have hle := h ⟨1, .discard, 30, by decide⟩ (fun _ ↦ .absent) 30 rfl
    [creep 13 ++ Frame.header 20 (-1) 0 ++ [0, 0, 0, 0], List.replicate 30 0] (by decide) _
    (List.mem_cons_of_mem _ List.mem_cons_self)
  exact absurd hle (by decide +kernel)

end Decoder

end Rcon
