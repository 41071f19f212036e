import Rcon.Proofs.Decoder.Turns
import Rcon.Proofs.Frame.Grammar

/-!
# Heads that nothing can complete

Some bytes will never begin with a frame, nor with a malformed packet, whatever follows them. There
are three reasons (`Grammar.Blocks`): an id that no server may answer with, the code of no type, and
two bytes behind the body that are not both zeros although the id is not the reserved one. The first
two block as soon as the header is there, **even while the declared size is still awaited**; the
third when everything is there to be judged.

Bytes that wait whatever follows are stuck (`Head.IsStuck`), and so are they with more bytes behind
them. A decoder that holds such bytes keeps every chunk it is fed (`feed_of_isStuck`), and only the
limit ends that: with the policy to discard, all is dropped at the first chunk, other than an empty
one, that takes the bytes beyond it (`feedAll_of_blocks`).
-/

namespace Rcon

/-! ### Bytes that are stuck -/

/-- Do the bytes have to wait whatever follows them? -/
def Head.IsStuck (bytes : Bytes) : Prop :=
  ∀ more, (Head.read (bytes ++ more)).isWait = true

theorem Head.IsStuck.append {bytes : Bytes} (h : Head.IsStuck bytes) (more : Bytes) :
    Head.IsStuck (bytes ++ more) := by
  intro further
  rw [List.append_assoc]
  exact h (more ++ further)

/-- A header with a bad id or a bad code has to wait, for its declared size or for good. -/
theorem Head.isWait_ofHeader {size id code : Int}
    (h : RequestId.isAccepted id = true → ResponseType.ofCode? code = none) (tail : Bytes) :
    (Head.ofHeader size id code tail).isWait = true := by
  rw [ofHeader]
  split
  · rfl
  · split
    · rfl
    · split
      · next haccepted =>
        rw [h haccepted]
        rfl
      · rfl

namespace Grammar

theorem ofCode?_eq_none {code : Int} (h : ¬(code = 0 ∨ code = 2)) :
    ResponseType.ofCode? code = none := by
  refine Option.eq_none_iff_forall_ne_some.2 fun type htype ↦ ?_
  rw [ResponseType.ofCode?_eq_some_iff] at htype
  exact h (htype ▸ code_eq_zero_or_two type)

/-- The bytes begin with a head that nothing can complete. -/
inductive Blocks (bytes : Bytes) : Prop
  /-- The id is none that a server may answer with. -/
  | id {id : Int} (header : 12 ≤ bytes.length) (id_at : Bytes.int32? bytes 4 = some id)
      (refused : ¬(id = -1 ∨ id = 999 ∨ 100000000 ≤ id ∧ id ≤ 999999999))
  /-- The code is that of no type. -/
  | code {code : Int} (header : 12 ≤ bytes.length) (code_at : Bytes.int32? bytes 8 = some code)
      (unknown : ¬(code = 0 ∨ code = 2))
  /-- There is all it takes, and the two bytes behind the body are not both zeros. -/
  | unterminated {size id code : Int} {stop : Nat} (complete : Complete bytes size id code stop)
      (id_ne : id ≠ 999) (not_zeros : ¬(bytes[stop]? = some 0 ∧ bytes[stop + 1]? = some 0))

/-- **A head that blocks is stuck.** -/
theorem Blocks.isStuck {bytes : Bytes} (h : Blocks bytes) : Head.IsStuck bytes := by
  -- The id and the code of a header are judged alike whatever is behind it.
  have hheader : ∀ {size id code : Int} {tail : Bytes}, Bytes.isInt32 size = true →
      Bytes.isInt32 id = true → Bytes.isInt32 code = true →
      (RequestId.isAccepted id = true → ResponseType.ofCode? code = none) →
      Head.IsStuck (Frame.header size id code ++ tail) := by
    intro size id code tail hsize hid hcode hbad more
    rw [List.append_assoc, Head.read_header_append hsize hid hcode]
    exact Head.isWait_ofHeader hbad _
  cases h with
  | id header id_at refused =>
    obtain ⟨size, id, code, tail, hsize, hid, hcode, rfl⟩ := Frame.exists_header_append header
    obtain ⟨-, hid', -⟩ := Frame.int32?_header_append hsize hid hcode tail
    obtain rfl := Option.some.inj (hid'.symm.trans id_at)
    exact hheader hsize hid hcode fun haccepted ↦ absurd ((isAccepted_iff id).1 haccepted) refused
  | code header code_at unknown =>
    obtain ⟨size, id, code, tail, hsize, hid, hcode, rfl⟩ := Frame.exists_header_append header
    obtain ⟨-, -, hcode'⟩ := Frame.int32?_header_append hsize hid hcode tail
    obtain rfl := Option.some.inj (hcode'.symm.trans code_at)
    exact hheader hsize hid hcode fun _ ↦ ofCode?_eq_none unknown
  | unterminated complete id_ne not_zeros =>
    obtain ⟨type, first, second, -, hfirst, hsecond, hread⟩ := complete.read_eq
    rw [hfirst, hsecond, Option.some.injEq, Option.some.injEq] at not_zeros
    rw [Head.judge, if_neg not_zeros, if_neg (show _ ≠ RequestId.terminator from id_ne)] at hread
    -- This verdict is settled.
    intro more
    rw [Head.read_append_of_isSettled (by rw [hread]; rfl), hread]
    rfl

end Grammar

/-! ### Feeds to a decoder that is stuck -/

namespace Decoder

/-- What a feed does that completes nothing, drops nothing but for the limit, and otherwise keeps
every byte. -/
structure Holds (decoder : Decoder) (chunk : Bytes) (fed : Feed) : Prop where
  /-- Nothing is dropped for a malformed packet. -/
  dropsMalformed_eq : fed.dropsMalformed = false
  /-- Unless all is dropped, the feed returns no response or says that the stream has stalled. -/
  outcome_eq : fed.dropsStalled = false →
    fed.outcome = .ok [] ∨ ∃ stall, fed.outcome = .error (.stall stall)
  /-- Unless all is dropped, the chunk is pending behind what was. -/
  pending_eq : fed.dropsStalled = false → fed.decoder.pending = decoder.pending ++ chunk
  /-- All is dropped just if that is the policy and the chunk goes beyond the limit. -/
  dropsStalled_iff : fed.dropsStalled = true ↔
    decoder.config.stallPolicy = .discard ∧ chunk ≠ [] ∧
      decoder.config.maxPendingBytes < decoder.pending.length + chunk.length

variable {decoder : Decoder} {handler : DiscardHandler} {chunk : Bytes}

/-- A feed that does what the run on stuck bytes does, and drops nothing, holds them. -/
theorem Holds.of_feedEnding (hwait : (Head.read (decoder.pending ++ chunk)).isWait = true)
    {outcome : Outcome} (houtcome : outcome = .ok [] ∨ ∃ stall, outcome = .error (.stall stall))
    (hcalm : ¬(decoder.config.stallPolicy = .discard ∧ chunk ≠ [] ∧
      decoder.config.maxPendingBytes < decoder.pending.length + chunk.length)) :
    decoder.Holds chunk (decoder.feedEnding handler chunk outcome) := by
  have hdiscards : (decoder.feedEnding handler chunk outcome).discards = [] :=
    discards_drain_of_isWait hwait
  refine ⟨?_, fun _ ↦ houtcome, fun _ ↦ rest_drain_of_isWait hwait, ?_⟩
  · rw [Feed.dropsMalformed, hdiscards]
    rfl
  · rw [Feed.dropsStalled, hdiscards]
    exact iff_of_false Bool.false_ne_true hcalm

/-- **A decoder that is stuck holds what it is fed.** -/
theorem feed_of_isStuck (hstuck : Head.IsStuck decoder.pending) (handler : DiscardHandler)
    (chunk : Bytes) : decoder.Holds chunk (decoder.feed handler chunk) := by
  have hwait := hstuck chunk
  have hfeeds := feeds decoder handler chunk
  generalize decoder.feed handler chunk = fed at hfeeds ⊢
  cases hfeeds with
  | idle hchunk =>
    refine ⟨rfl, fun _ ↦ .inl rfl, fun _ ↦ ?_, iff_of_false Bool.false_ne_true fun h ↦ h.2.1 hchunk⟩
    rw [hchunk, List.append_nil]
  | calm hchunk hcalm =>
    refine .of_feedEnding hwait (.inl (outcome_drain_of_isWait hwait)) fun hover ↦ hcalm ?_
    -- Nothing is taken off, so the bytes that are left are all there are.
    refine ⟨frames_drain_of_isWait hwait, ?_⟩
    rw [runOn, rest_drain_of_isWait hwait, List.length_append]
    exact hover.2.2
  | stalling hchunk hpolicy hover =>
    refine .of_feedEnding hwait (.inr ⟨_, rfl⟩) fun h ↦ ?_
    rw [hpolicy] at h
    cases h.1
  | dropping hchunk hpolicy hover =>
    have hlimit := hover.lt_length
    rw [List.length_append] at hlimit
    have hdropped : (decoder.feedDropping handler chunk).dropsStalled = true := rfl
    refine ⟨rfl, ?_, ?_, iff_of_true hdropped ⟨hpolicy, hchunk, hlimit⟩⟩
    · exact fun hkept ↦ absurd (hkept.symm.trans hdropped) Bool.false_ne_true
    · exact fun hkept ↦ absurd (hkept.symm.trans hdropped) Bool.false_ne_true

/-! ### All feeds up to the limit -/

/-- Behind `n` bytes, does each chunk but an empty one stay within the limit? -/
def StaysBelow (limit : Nat) : Nat → List Bytes → Prop
  | _, [] => True
  | n, chunk :: rest =>
    (chunk ≠ [] → n + chunk.length ≤ limit) ∧ StaysBelow limit (n + chunk.length) rest

theorem config_feedAll (decoder : Decoder) (handler : DiscardHandler) (chunks : List Bytes) :
    (decoder.atEnd (decoder.feedAll handler chunks)).config = decoder.config := by
  induction chunks generalizing decoder with
  | nil => rfl
  | cons chunk chunks ih => exact (ih _).trans (config_feed decoder handler chunk)

/-- A decoder that is stuck keeps every byte as long as nothing is dropped for having stalled. -/
theorem pending_feedAll_of_isStuck (hstuck : Head.IsStuck decoder.pending) {chunks : List Bytes}
    (hkept : ∀ fed ∈ decoder.feedAll handler chunks, fed.dropsStalled = false) :
    (decoder.atEnd (decoder.feedAll handler chunks)).pending =
      decoder.pending ++ chunks.flatten := by
  induction chunks generalizing decoder with
  | nil => exact (List.append_nil _).symm
  | cons chunk chunks ih =>
    rw [feedAll_cons] at hkept ⊢
    have hpending := (feed_of_isStuck hstuck handler chunk).pending_eq
      (hkept _ List.mem_cons_self)
    have hrest := ih (hpending ▸ hstuck.append chunk)
      fun fed hfed ↦ hkept fed (List.mem_cons_of_mem _ hfed)
    rw [atEnd_cons, hrest, hpending, List.flatten_cons, List.append_assoc]

/-- A decoder that is stuck drops nothing for having stalled as long as the chunks stay within the
limit, and only as long. -/
theorem dropsStalled_feedAll_iff (hstuck : Head.IsStuck decoder.pending) {chunks : List Bytes} :
    (∀ fed ∈ decoder.feedAll handler chunks, fed.dropsStalled = false) ↔
      (decoder.config.stallPolicy = .discard →
        StaysBelow decoder.config.maxPendingBytes decoder.pending.length chunks) := by
  induction chunks generalizing decoder with
  | nil => exact iff_of_true (fun fed hfed ↦ absurd hfed List.not_mem_nil) fun _ ↦ trivial
  | cons chunk chunks ih =>
    have hholds := feed_of_isStuck hstuck handler chunk
    rw [feedAll_cons, List.forall_mem_cons, StaysBelow]
    by_cases hfirst : (decoder.feed handler chunk).dropsStalled = true
    · obtain ⟨hpolicy, hchunk, hover⟩ := hholds.dropsStalled_iff.1 hfirst
      rw [hfirst]
      exact iff_of_false (fun h ↦ nomatch h.1) fun h ↦ Nat.not_le.2 hover ((h hpolicy).1 hchunk)
    · have hwithin : decoder.config.stallPolicy = .discard → chunk ≠ [] →
          decoder.pending.length + chunk.length ≤ decoder.config.maxPendingBytes :=
        fun hpolicy hchunk ↦ Nat.le_of_not_lt fun hover ↦
          hfirst (hholds.dropsStalled_iff.2 ⟨hpolicy, hchunk, hover⟩)
      rw [Bool.not_eq_true] at hfirst
      have hpending := hholds.pending_eq hfirst
      rw [ih (hpending ▸ hstuck.append chunk), hpending, config_feed, List.length_append]
      exact ⟨fun h hpolicy ↦ ⟨hwithin hpolicy, h.2 hpolicy⟩,
        fun h ↦ ⟨hfirst, fun hpolicy ↦ (h hpolicy).2⟩⟩

/-- **A head that nothing can complete blocks the stream.** Whatever is fed to a decoder that holds
one, until all is dropped for having stalled, no response comes of it, nothing is dropped for a
malformed packet, and every byte is kept. All is dropped, where that is the policy, exactly at the
first chunk with something in it that takes the bytes beyond the limit. -/
theorem feedAll_of_blocks (config : Config) (turns : List Turn)
    (hblocks : Grammar.Blocks ((fresh config).after turns).pending) (handler : DiscardHandler)
    (chunks : List Bytes) (chunk : Bytes) :
    let decoder := (fresh config).after turns
    let earlier := decoder.feedAll handler chunks
    let kept := ∀ before ∈ earlier, before.dropsStalled = false
    let fed := (decoder.atEnd earlier).feed handler chunk
    (kept →
        fed.dropsMalformed = false ∧
          (fed.dropsStalled = false →
            (fed.outcome = .ok [] ∨ ∃ stall, fed.outcome = .error (.stall stall)) ∧
              fed.decoder.pending = (decoder.atEnd earlier).pending ++ chunk ∧
              fed.decoder.pending = decoder.pending ++ chunks.flatten ++ chunk)) ∧
      (kept ∧ fed.dropsStalled = true ↔
        config.stallPolicy = .discard ∧
          StaysBelow config.maxPendingBytes decoder.pending.length chunks ∧ chunk ≠ [] ∧
          config.maxPendingBytes <
            decoder.pending.length + chunks.flatten.length + chunk.length) := by
  intro decoder earlier kept fed
  have hstuck : Head.IsStuck decoder.pending := hblocks.isStuck
  have hconfig : decoder.config = config := config_after (fresh config) turns
  -- What is pending before the last chunk is stuck too.
  have hholds : kept →
      (decoder.atEnd earlier).pending = decoder.pending ++ chunks.flatten ∧
        (decoder.atEnd earlier).Holds chunk fed := by
    intro hkept
    have hpending := pending_feedAll_of_isStuck hstuck hkept
    exact ⟨hpending, feed_of_isStuck (hpending ▸ hstuck.append _) handler chunk⟩
  have hkept_iff : kept ↔ (config.stallPolicy = .discard →
      StaysBelow config.maxPendingBytes decoder.pending.length chunks) := by
    rw [← hconfig]
    exact dropsStalled_feedAll_iff hstuck
  have hdrops_iff : kept → (fed.dropsStalled = true ↔ config.stallPolicy = .discard ∧ chunk ≠ [] ∧
      config.maxPendingBytes <
        decoder.pending.length + chunks.flatten.length + chunk.length) := by
    intro hkept
    obtain ⟨hpending, h⟩ := hholds hkept
    rw [h.dropsStalled_iff, config_feedAll, hconfig, hpending, List.length_append]
  constructor
  · intro hkept
    obtain ⟨hpending, h⟩ := hholds hkept
    refine ⟨h.dropsMalformed_eq, fun hnone ↦ ⟨h.outcome_eq hnone, h.pending_eq hnone, ?_⟩⟩
    rw [h.pending_eq hnone, hpending]
  · constructor
    · rintro ⟨hkept, hdrops⟩
      obtain ⟨hpolicy, hchunk, hover⟩ := (hdrops_iff hkept).1 hdrops
      exact ⟨hpolicy, hkept_iff.1 hkept hpolicy, hchunk, hover⟩
    · rintro ⟨hpolicy, hbelow, hchunk, hover⟩
      have hkept : kept := hkept_iff.2 fun _ ↦ hbelow
      exact ⟨hkept, (hdrops_iff hkept).2 ⟨hpolicy, hchunk, hover⟩⟩

/-- The code of no type, in a header whose declared size is still awaited: all is kept up to fifteen
bytes, where sixteen are allowed, and all is dropped with the next two. -/
theorem feedAll_of_blocks_unknown_code :
    let decoder := (fresh ⟨16, .discard, 30, by decide⟩).after
      [⟨.feed [20, 0, 0, 0, 0xE7, 3, 0, 0, 1, 0], .absent⟩, ⟨.feed [0, 0], .absent⟩]
    let earlier := decoder.feedAll .returns [[0, 0], [], [7]]
    let fed := (decoder.atEnd earlier).feed .returns [0, 0]
    Grammar.Blocks decoder.pending ∧ (∀ before ∈ earlier, before.dropsStalled = false) ∧
      fed.dropsStalled = true ∧ fed.dropsMalformed = false := by
  intro decoder earlier fed
  have hpending : decoder.pending = [20, 0, 0, 0, 0xE7, 3, 0, 0, 1, 0, 0, 0] := by
    decide +kernel
  have hblocks : Grammar.Blocks decoder.pending := by
    rw [hpending]
    exact .code (by decide) (show Bytes.int32? _ 8 = some 1 by decide) (by decide)
  obtain ⟨hholds, hfirst⟩ := feedAll_of_blocks ⟨16, .discard, 30, by decide⟩
    [⟨.feed [20, 0, 0, 0, 0xE7, 3, 0, 0, 1, 0], .absent⟩, ⟨.feed [0, 0], .absent⟩] hblocks .returns
    [[0, 0], [], [7]] [0, 0]
  have hbelow : StaysBelow 16 decoder.pending.length [[0, 0], [], [7]] := by
    rw [hpending]
    exact ⟨fun _ ↦ by decide, fun _ ↦ by decide, fun _ ↦ by decide, trivial⟩
  have hover : 16 < decoder.pending.length + [[0, 0], [], [(7 : UInt8)]].flatten.length +
      [(0 : UInt8), 0].length := by
    rw [hpending]
    decide
  obtain ⟨hkept, hdrops⟩ := hfirst.2 ⟨rfl, hbelow, by decide, hover⟩
  exact ⟨hblocks, hkept, hdrops, (hholds hkept).1⟩

end Decoder

end Rcon
