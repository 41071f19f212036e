import Rcon.Proofs.Decoder.Accesses

/-!
# The loop of attempts ends

The attempts of a feed as a relation (`Reader.Loops`): one attempt after the other, each with the
reader that it finds and the one that it leaves, until one stops. **The relation does not say that
one ever does.** That is what is shown here: whatever is pending and whatever arrives, there is
exactly one such list of attempts, it is the one that the feed makes, and it is short
(`Reader.loops_after`).

What carries it is that an attempt behind which the loop goes on takes fourteen bytes at least off
those that are not spent (`Reader.length_unread_attempted`): a frame moves the offset by its length,
**whatever size it declares**, and a packet that can only be dropped leaves an empty buffer.
-/

namespace Rcon

/-- Does a loop go on behind an attempt that finds this? -/
def Head.goesOn (handler : DiscardHandler) : Head → Bool
  | .frame _ => true
  | .malformed .. => handler.raised?.isNone
  | .waiting _ | .short => false

namespace Reader

open Decoder (fresh)

/-! ### One attempt -/

/-- A reader as an attempt leaves it. -/
def attempted (reader : Reader) : Reader :=
  match Head.read reader.unread with
  | .frame frame => reader.spend frame
  | .malformed .. => reader.clear
  | .waiting _ | .short => reader

/-- An attempt of a loop. -/
structure Stage where
  /-- The reader that it finds. -/
  before : Reader
  /-- What stands first there. -/
  head : Head
  /-- The reader that it leaves. -/
  after : Reader

/-- The attempt that a reader makes. -/
def stage (reader : Reader) : Stage :=
  ⟨reader, Head.read reader.unread, reader.attempted⟩

namespace Stage

/-- An attempt without the readers. -/
def attempt (stage : Stage) : Attempt :=
  ⟨stage.before.unread.length, stage.head⟩

/-- **What an attempt does**, by what it finds. A frame moves the offset, and not past the end of
the buffer; a drop leaves nothing of fourteen bytes or more; all else leaves the reader as it is. -/
def Progresses (stage : Stage) : Prop :=
  match stage.head with
  | .frame _ =>
    stage.before.offset + 14 ≤ stage.after.offset ∧
      stage.after.offset ≤ stage.after.buffer.length ∧ stage.after.buffer = stage.before.buffer
  | .malformed .. =>
    14 ≤ stage.before.unread.length ∧ stage.after.buffer = [] ∧ stage.after.offset = 0
  | .waiting _ | .short => stage.after = stage.before

end Stage

variable {handler : DiscardHandler} {reader last : Reader} {stages : List Stage}

/-- An attempt at an offset within the buffer does as `Stage.Progresses` says, and leaves the offset
within the buffer. -/
theorem progresses_stage (h : reader.offset ≤ reader.buffer.length) :
    reader.stage.Progresses ∧ reader.attempted.offset ≤ reader.attempted.buffer.length := by
  rcases hread : Head.read reader.unread with frame | ⟨first, second⟩ | why | -
  · have hle := Head.length_le_of_read hread
    have hlength : frame.length = 14 + frame.body.length := rfl
    rw [unread, List.length_drop] at hle
    have hwithin : reader.offset + frame.length ≤ reader.buffer.length := by omega
    simp only [Stage.Progresses, stage, attempted, hread]
    have hmoved : reader.offset + 14 ≤ (reader.spend frame).offset := by
      show reader.offset + 14 ≤ reader.offset + frame.length
      omega
    exact ⟨⟨hmoved, hwithin, rfl⟩, hwithin⟩
  · have hsome := Head.minFrameBytes_le_of_read hread
    simp only [Stage.Progresses, stage, attempted, hread]
    exact ⟨⟨hsome, rfl, rfl⟩, Nat.le_refl 0⟩
  · simp only [Stage.Progresses, stage, attempted, hread]
    exact ⟨trivial, h⟩
  · simp only [Stage.Progresses, stage, attempted, hread]
    exact ⟨trivial, h⟩

/-- **An attempt behind which the loop goes on takes fourteen bytes at least.** -/
theorem length_unread_attempted (h : (Head.read reader.unread).goesOn handler = true) :
    reader.attempted.unread.length + 14 ≤ reader.unread.length := by
  rcases hread : Head.read reader.unread with frame | ⟨first, second⟩ | why | -
  · have hle := Head.length_le_of_read hread
    have hlength : frame.length = 14 + frame.body.length := rfl
    simp only [attempted, hread, unread_spend, List.length_drop]
    omega
  · simp only [attempted, hread]
    exact Head.minFrameBytes_le_of_read hread
  · rw [hread] at h
    cases h
  · rw [hread] at h
    cases h

/-! ### Loops -/

/-- Attempts in a row, from a reader to the one that the last of them leaves. -/
inductive Loops (handler : DiscardHandler) : Reader → List Stage → Reader → Prop
  /-- An attempt that stops is the last. -/
  | stop {reader : Reader} (h : (Head.read reader.unread).goesOn handler = false) :
      Loops handler reader [reader.stage] reader.attempted
  /-- Behind any other there is one more. -/
  | next {reader last : Reader} {stages : List Stage}
      (h : (Head.read reader.unread).goesOn handler = true)
      (tail : Loops handler reader.attempted stages last) :
      Loops handler reader (reader.stage :: stages) last

theorem exists_loops_of_stop {head : Head} (hread : Head.read reader.unread = head)
    (hstop : head.goesOn handler = false) :
    ∃ stages, Loops handler reader stages reader.attempted ∧
      stages.map Stage.attempt = [⟨reader.unread.length, head⟩] := by
  subst hread
  exact ⟨[reader.stage], .stop hstop, rfl⟩

theorem exists_loops_of_next {head : Head} {attempts : List Attempt}
    (hread : Head.read reader.unread = head) (hnext : head.goesOn handler = true)
    (htail : ∃ stages, Loops handler reader.attempted stages last ∧
      stages.map Stage.attempt = attempts) :
    ∃ stages, Loops handler reader stages last ∧
      stages.map Stage.attempt = ⟨reader.unread.length, head⟩ :: attempts := by
  subst hread
  obtain ⟨stages, hloops, rfl⟩ := htail
  exact ⟨reader.stage :: stages, .next hnext hloops, rfl⟩

/-- **There is a loop**: the attempts that a reader makes. -/
theorem exists_loops (handler : DiscardHandler) (reader : Reader) :
    ∃ stages, Loops handler reader stages (reader.read handler).reader ∧
      stages.map Stage.attempt = (reader.read handler).attempts := by
  fun_induction read handler reader with
  | case1 reader frame hread ih =>
    have hnext : reader.attempted = reader.spend frame := by rw [attempted, hread]
    exact exists_loops_of_next hread rfl (hnext ▸ ih)
  | case2 reader first second hread what hraised =>
    have hlast : reader.attempted = reader.clear := by rw [attempted, hread]
    exact hlast ▸ exists_loops_of_stop hread (by rw [Head.goesOn, hraised]; rfl)
  | case3 reader first second hread hraised ih =>
    have hnext : reader.attempted = reader.clear := by rw [attempted, hread]
    exact exists_loops_of_next hread (by rw [Head.goesOn, hraised]; rfl) (hnext ▸ ih)
  | case4 reader why hread =>
    have hlast : reader.attempted = reader := by rw [attempted, hread]
    have hloops : ∃ stages, Loops handler reader stages reader.attempted ∧ _ :=
      exists_loops_of_stop hread rfl
    rwa [hlast] at hloops
  | case5 reader hread =>
    have hlast : reader.attempted = reader := by rw [attempted, hread]
    have hloops : ∃ stages, Loops handler reader stages reader.attempted ∧ _ :=
      exists_loops_of_stop hread rfl
    rwa [hlast] at hloops

/-- **There is one loop only.** -/
theorem Loops.unique (h : Loops handler reader stages last) {stages' : List Stage} {last' : Reader}
    (h' : Loops handler reader stages' last') : stages' = stages ∧ last' = last := by
  induction h generalizing stages' last' with
  | stop hstop =>
    cases h' with
    | stop _ => exact ⟨rfl, rfl⟩
    | next hnext _ => exact nomatch hstop.symm.trans hnext
  | next hnext _ ih =>
    cases h' with
    | stop hstop => exact nomatch hstop.symm.trans hnext
    | next _ tail =>
      obtain ⟨rfl, rfl⟩ := ih tail
      exact ⟨rfl, rfl⟩

/-- From an offset within the buffer every attempt does what it should. -/
theorem Loops.progresses (h : Loops handler reader stages last)
    (hoffset : reader.offset ≤ reader.buffer.length) : ∀ stage ∈ stages, stage.Progresses := by
  induction h with
  | stop hstop => exact List.forall_mem_singleton.2 (progresses_stage hoffset).1
  | next hnext _ ih =>
    obtain ⟨hprogresses, hwithin⟩ := progresses_stage hoffset
    exact List.forall_mem_cons.2 ⟨hprogresses, ih hwithin⟩

theorem Loops.ne_nil (h : Loops handler reader stages last) : stages ≠ [] := by
  cases h with
  | stop _ => exact List.cons_ne_nil _ _
  | next _ _ => exact List.cons_ne_nil _ _

/-- **The loop goes on behind every attempt but the last.** -/
theorem Loops.goesOn_iff (h : Loops handler reader stages last) {front back : List Stage}
    {stage : Stage} (hstages : stages = front ++ stage :: back) :
    stage.head.goesOn handler = true ↔ back ≠ [] := by
  induction h generalizing front with
  | stop hstop =>
    obtain ⟨rfl, hback⟩ | ⟨tail, -, htail⟩ := List.cons_eq_append_iff.1 hstages
    · obtain ⟨rfl, rfl⟩ := List.cons.inj hback
      exact iff_of_false (Bool.eq_false_iff.1 hstop) fun hne ↦ hne rfl
    · exact absurd htail.symm (List.append_ne_nil_of_right_ne_nil _ (List.cons_ne_nil _ _))
  | next hnext tail ih =>
    obtain ⟨rfl, hback⟩ | ⟨front, -, hfront⟩ := List.cons_eq_append_iff.1 hstages
    · obtain ⟨rfl, rfl⟩ := List.cons.inj hback
      exact iff_of_true hnext tail.ne_nil
    · exact ih hfront

/-- **A loop is short**: every attempt but the last spends fourteen bytes. -/
theorem Loops.length_le (h : Loops handler reader stages last) :
    stages.length ≤ reader.unread.length / 14 + 1 := by
  induction h with
  | stop hstop => exact Nat.le_add_left _ _
  | next hnext _ ih =>
    have htakes := length_unread_attempted hnext
    rw [List.length_cons]
    omega

/-- The last attempt completes no frame, so there is at most one frame for every fourteen bytes. -/
theorem Loops.length_frames_le (h : Loops handler reader stages last) :
    ((stages.map Stage.attempt).filterMap Attempt.frame?).length ≤ reader.unread.length / 14 := by
  induction h with
  | @stop reader hstop =>
    have hnone : reader.stage.attempt.frame? = none := by
      rw [Attempt.frame?, Stage.attempt, stage]
      split
      · next frame hread =>
        rw [show Head.read reader.unread = .frame frame from hread] at hstop
        cases hstop
      · rfl
    rw [List.map_singleton, List.filterMap_cons_none hnone]
    exact Nat.zero_le _
  | @next reader last stages hnext _ ih =>
    have htakes := length_unread_attempted hnext
    have hone : ((reader.stage :: stages).map Stage.attempt).filterMap Attempt.frame? =
        reader.stage.attempt.frame?.toList ++
          (stages.map Stage.attempt).filterMap Attempt.frame? := by
      rw [List.map_cons, List.filterMap_cons]
      cases reader.stage.attempt.frame? <;> rfl
    rw [hone, List.length_append]
    have hle : reader.stage.attempt.frame?.toList.length ≤ 1 := by
      cases reader.stage.attempt.frame? with
      | none => exact Nat.zero_le _
      | some _ => exact Nat.le_refl _
    omega

/-! ### The loop of a feed -/

/-- No more responses are returned than frames are completed. -/
theorem length_responses_le {decoder : Decoder} {chunk : Bytes} {fed : Feed}
    (h : decoder.Feeds handler chunk fed) : fed.responses.length ≤ fed.frames.length := by
  rcases h.outcome_cases with hreturns | ⟨failure, hfails⟩
  · exact Nat.le_of_eq (by rw [Feed.responses, hreturns, List.length_map])
  · rw [Feed.responses, hfails]
    exact Nat.zero_le _

/-- **The attempts of a feed come to an end**, whatever was done to a decoder before and whatever
arrives. There is one loop of attempts on what is not spent, and it is the one that the feed makes.
Every attempt does as `Stage.Progresses` says, the loop goes on behind each but the last, and of `n`
bytes it makes no more than one attempt for every fourteen and one besides. So no more than one
response for every fourteen is returned. -/
theorem loops_after (config : Config) (turns : List Turn) (handler : DiscardHandler) (chunk : Bytes)
    (hchunk : chunk ≠ []) :
    let decoder := (fresh config).after turns
    let reader := ((ofDecoder (fresh config)).after turns).append chunk
    let fed := decoder.feed handler chunk
    let n := decoder.pending.length + chunk.length
    ∃ stages last,
      (∀ stages' last', Loops handler reader stages' last' ↔ stages' = stages ∧ last' = last) ∧
        last = (reader.read handler).reader ∧
        stages.map Stage.attempt = fed.attempts ∧
        (∀ stage ∈ stages, stage.Progresses) ∧
        (∀ front stage back, stages = front ++ stage :: back →
          (stage.head.goesOn handler = true ↔ back ≠ [])) ∧
        stages.length ≤ n / 14 + 1 ∧ fed.responses.length ≤ n / 14 := by
  intro decoder reader fed n
  have hreader : reader = (ofDecoder decoder).append chunk := by
    show ((ofDecoder (fresh config)).after turns).append chunk = _
    rw [after_ofDecoder]
  have hunread : reader.unread = decoder.pending ++ chunk := by
    rw [hreader]
    rfl
  have hoffset : reader.offset ≤ reader.buffer.length := by
    rw [hreader]
    exact Nat.zero_le _
  have hn : reader.unread.length = n := by rw [hunread, List.length_append]
  obtain ⟨stages, hloops, hattempts⟩ := exists_loops handler reader
  have hfed : stages.map Stage.attempt = fed.attempts := by
    rw [hattempts, (read_eq handler reader).1, hunread]
    show _ = (decoder.feed handler chunk).attempts
    rw [Decoder.feed, if_neg hchunk]
  refine ⟨stages, _, fun stages' last' ↦ ⟨hloops.unique, ?_⟩, rfl, hfed, hloops.progresses hoffset,
    fun front stage back ↦ hloops.goesOn_iff, hn ▸ hloops.length_le, ?_⟩
  · rintro ⟨rfl, rfl⟩
    exact hloops
  · refine Nat.le_trans (length_responses_le (decoder.feeds handler chunk)) ?_
    rw [← hn, Feed.frames, ← hfed]
    exact hloops.length_frames_le

/-- The end of a frame of the least size, one that declares less than it takes, the end of a split
response that is malformed, and a byte that is dropped with it: three attempts on 43 bytes, and one
on none. -/
theorem loops_after_malformed :
    let packet := Packet.bytes ⟨10, -1, 2, [], 0, 0⟩
    let turns : List Turn := [⟨.feed (packet.take 5), .absent⟩]
    let chunk := packet.drop 5 ++ Packet.bytes ⟨0, -1, 2, [], 0, 0⟩ ++
      Packet.bytes ⟨10, 999, 0, [], 65, 66⟩ ++ [0]
    let decoder := (fresh .default).after turns
    let reader := ((ofDecoder (fresh .default)).after turns).append chunk
    let fed := decoder.feed .returns chunk
    chunk ≠ [] ∧ decoder.pending.length + chunk.length = 43 ∧ fed.responses.length = 2 ∧
      ∃ stages last, Loops .returns reader stages last ∧
        (∀ stage ∈ stages, stage.Progresses) ∧ stages.length = 4 ∧ stages.length ≤ 43 / 14 + 1 := by
  intro packet turns chunk decoder reader fed
  have hchunk : chunk ≠ [] := by decide +kernel
  obtain ⟨stages, last, hloops, -, hattempts, hprogresses, -, -, -⟩ :=
    loops_after .default turns .returns chunk hchunk
  have hlength : stages.length = 4 := by
    rw [← List.length_map (f := Stage.attempt), hattempts]
    decide +kernel
  refine ⟨hchunk, by decide +kernel, by decide +kernel, stages, last,
    (hloops stages last).2 ⟨rfl, rfl⟩, hprogresses, hlength,
    Nat.le_trans (Nat.le_of_eq hlength) (by decide)⟩

end Reader

end Rcon
