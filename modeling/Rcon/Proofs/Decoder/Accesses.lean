import Rcon.Frame.Packet
import Rcon.Proofs.Decoder.Reader
import Rcon.Proofs.Frame.Accesses
import Rcon.Proofs.Frame.Reply

/-!
# What a feed asks of its buffer

A feed puts its chunk behind the buffer, makes attempts at the offset and drops what is spent when
they are over. With all that is asked for kept beside it (`Reader.tracedFeed`), **no feed asks for
anything that is not there** (`Reader.yields_tracedFeed_of_reached`), and it comes to the end that
it has without those questions: a return or, where that is the policy, a stall, if the caller raises
nothing.

What there is no room for is the exception, and the only one: a buffer that holds the chunk too, the
text of a body, or the preview of it. The error leaves the reader in the middle of a run then
(`Refusal.left`), and such readers are among those that a feed may find (`Reader.Reached`).

The invariant is that the offset is within the buffer, for a frame that is spent was there
(`Reader.Sound.read`), wherever an error leaves the reader (`Reader.Sound.tracedRead`).
-/

namespace Rcon

namespace Reader

open Decoder (fresh config_after)

/-! ### Reading with accesses -/

/-- Behind a frame: if the log wants debug output there, the body is cut and its line breaks are
escaped, which makes a text each. The log may answer otherwise behind every frame. -/
def tracedPreview (room : Room) (debug : Reader → Bool) (frame : Frame) (spent : Reader) :
    Traced Reader Unit :=
  if debug spent then do
    let limit := spent.config.bodyPreviewChars
    let body := Units.ofString frame.text
    if limit < body.length then
      Traced.ask room (.text (limit + Note.ellipsis.length)) spent
    Traced.ask room (.text (Note.preview limit body).length) spent
  else return ()

/-- Attempts at the offset until one stops, and all that they ask for. An access that raises an
error stops them too, and leaves the reader as it is then. -/
def tracedRead (room : Room) (debug : Reader → Bool) (handler : DiscardHandler)
    (reader : Reader) : Traced Reader Reading :=
  let attempt := (Head.readAt room reader.buffer reader.offset).leaving reader
  match _hread : attempt.result with
  | .error refusal => ⟨attempt.accesses, .error refusal⟩
  | .ok (.frame frame) =>
    Traced.behind attempt.accesses do
      tracedPreview room debug frame (reader.spend frame)
      let reading ← tracedRead room debug handler (reader.spend frame)
      return reading.after ⟨reader.unread.length, .frame frame⟩
  | .ok (.malformed first second) =>
    match handler.raised? with
    | some what =>
      ⟨attempt.accesses,
        .ok ⟨reader.clear, [⟨reader.unread.length, .malformed first second⟩], some what⟩⟩
    | none =>
      (Reading.after ⟨reader.unread.length, .malformed first second⟩ <$>
        tracedRead room debug handler reader.clear).behind attempt.accesses
  | .ok (.waiting why) =>
    ⟨attempt.accesses, .ok ⟨reader, [⟨reader.unread.length, .waiting why⟩], none⟩⟩
  | .ok .short => ⟨attempt.accesses, .ok ⟨reader, [⟨reader.unread.length, .short⟩], none⟩⟩
termination_by reader.unread.length
decreasing_by
  all_goals
    -- What an attempt finds is what stands first in the bytes that are not spent.
    have hyields := (Head.yields_readAt room reader.buffer reader.offset).leaving reader
    have hread := hyields.eq_of_ok _hread
  · exact length_unread_spend_lt hread.symm
  · exact length_unread_clear_lt hread.symm

/-- What a run does about the verdict of an attempt. -/
def tracedOn (room : Room) (debug : Reader → Bool) (handler : DiscardHandler) (reader : Reader) :
    Head → Traced Reader Reading
  | .frame frame => do
    tracedPreview room debug frame (reader.spend frame)
    let reading ← (reader.spend frame).tracedRead room debug handler
    return reading.after ⟨reader.unread.length, .frame frame⟩
  | .malformed first second =>
    match handler.raised? with
    | some what =>
      return ⟨reader.clear, [⟨reader.unread.length, .malformed first second⟩], some what⟩
    | none => do
      let reading ← reader.clear.tracedRead room debug handler
      return reading.after ⟨reader.unread.length, .malformed first second⟩
  | .waiting why => return ⟨reader, [⟨reader.unread.length, .waiting why⟩], none⟩
  | .short => return ⟨reader, [⟨reader.unread.length, .short⟩], none⟩

/-- The bytes that are spent are dropped, by taking the range behind them. -/
def tracedCompact (reader : Reader) : Traced Reader Reader :=
  if reader.offset = 0 then return reader
  else do
    let kept ← Traced.range reader.buffer reader.offset reader.buffer.length
    return { reader with buffer := kept, offset := 0 }

/-- What a feed does behind a run of attempts in which nothing was raised. -/
def settle (left : Reader) (handler : DiscardHandler) (reading : Reading) :
    Reader × Outcome × List Discard :=
  let pending := left.unread.length
  let limit := left.config.maxPendingBytes
  if reading.frames = [] ∧ limit < pending then
    match left.config.stallPolicy with
    | .throw => (left, .error (.stall ⟨pending, limit⟩), reading.discards)
    | .discard => (left.clear, handler.outcome, reading.discards ++ [⟨.stalled, pending⟩])
  else (left, .ok (reading.frames.map Frame.response), reading.discards)

/-- Feeds a chunk: what `feed` does, and all that is asked for to do it. -/
def tracedFeed (room : Room) (debug : Reader → Bool) (reader : Reader) (handler : DiscardHandler)
    (chunk : Bytes) : Traced Reader (Reader × Outcome × List Discard) :=
  if chunk = [] then return (reader, .ok [], [])
  else do
    Traced.ask room (.buffer (reader.buffer.length + chunk.length)) reader
    let reading ← (reader.append chunk).tracedRead room debug handler
    match reading.raised with
    | some what => return (reading.reader, .error (.raised what), reading.discards)
    | none =>
      let left ← reading.reader.tracedCompact
      return left.settle handler reading

/-- The reader that a feed leaves, be it refused something or not. -/
def leftBy (traced : Traced Reader (Reader × Outcome × List Discard)) : Reader :=
  match traced.result with
  | .ok fed => fed.1
  | .error refusal => refusal.left

/-- The readers that a feed may find: what was done before is open, and so is what there was room
for then. -/
inductive Reached (config : Config) : Reader → Prop
  /-- A new one. -/
  | fresh : Reached config (ofDecoder (fresh config))
  /-- One that was reset. -/
  | reset {reader : Reader} (before : Reached config reader) : Reached config reader.clear
  /-- One that was fed. -/
  | fed {reader : Reader} (before : Reached config reader) (room : Room) (debug : Reader → Bool)
      (handler : DiscardHandler) (chunk : Bytes) :
      Reached config (leftBy (reader.tracedFeed room debug handler chunk))

/-! ### A run of attempts -/

variable {room : Room} {debug : Reader → Bool} {handler : DiscardHandler} {reader : Reader}

theorem yields_tracedPreview (room : Room) (debug : Reader → Bool) (frame : Frame)
    (spent : Reader) : (tracedPreview room debug frame spent).Yields room () := by
  have hask {length : Nat} : (Traced.ask room (.text length) spent).Yields room () := by
    refine Traced.yields_ask room ?_ spent
    trivial
  rw [tracedPreview]
  split
  · dsimp only
    split
    · exact hask.bind hask
    · exact hask
  · exact .pure ()

/-- A run is an attempt, and what is done about its verdict. -/
theorem tracedRead_eq (room : Room) (debug : Reader → Bool) (handler : DiscardHandler)
    (reader : Reader) :
    reader.tracedRead room debug handler =
      (Head.readAt room reader.buffer reader.offset).leaving reader >>=
        reader.tracedOn room debug handler := by
  rw [tracedRead]
  split
  · next refusal herror => rw [Traced.bind_of_error herror]
  · next frame hread => rw [Traced.bind_of_ok hread, tracedOn]
  · next first second hread =>
    rw [Traced.bind_of_ok hread, tracedOn]
    rcases handler.raised? with - | what
    · rfl
    · exact (Traced.behind_pure _ _).symm
  · next why hread =>
    rw [Traced.bind_of_ok hread]
    exact (Traced.behind_pure _ _).symm
  · next hread =>
    rw [Traced.bind_of_ok hread]
    exact (Traced.behind_pure _ _).symm

/-- An attempt finds what stands first in the bytes that are not spent. -/
theorem yields_attempt (room : Room) (reader : Reader) :
    ((Head.readAt room reader.buffer reader.offset).leaving reader).Yields room
      (Head.read reader.unread) :=
  (Head.yields_readAt room reader.buffer reader.offset).leaving reader

/-- What stands first says how a run goes on. -/
theorem yields_tracedRead_of {reading : Reading}
    (h : (reader.tracedOn room debug handler (Head.read reader.unread)).Yields room reading) :
    (reader.tracedRead room debug handler).Yields room reading := by
  rw [tracedRead_eq]
  exact (yields_attempt room reader).bind h

/-- **A run of attempts asks for nothing that is not there.** -/
theorem yields_tracedRead (room : Room) (debug : Reader → Bool) (handler : DiscardHandler)
    (reader : Reader) :
    (reader.tracedRead room debug handler).Yields room (reader.read handler) := by
  fun_induction read handler reader with
  | case1 reader frame hread ih =>
    refine yields_tracedRead_of ?_
    rw [hread, tracedOn]
    exact (yields_tracedPreview room debug frame _).bind (ih.bind (.pure _))
  | case2 reader first second hread what hraised =>
    refine yields_tracedRead_of ?_
    rw [hread, tracedOn]
    simp only [hraised]
    exact .pure _
  | case3 reader first second hread hraised ih =>
    refine yields_tracedRead_of ?_
    rw [hread, tracedOn]
    simp only [hraised]
    exact ih.bind (.pure _)
  | case4 reader why hread =>
    refine yields_tracedRead_of ?_
    rw [hread]
    exact .pure _
  | case5 reader hread =>
    refine yields_tracedRead_of ?_
    rw [hread]
    exact .pure _

/-! ### Where an error leaves the reader -/

/-- What holds of a reader at any moment. -/
structure Sound (config : Config) (reader : Reader) : Prop where
  /-- The settings stay what they are. -/
  config_eq : reader.config = config
  /-- The offset is within the buffer. -/
  offset_le : reader.offset ≤ reader.buffer.length

section Sound

variable {config : Config}

theorem Sound.clear (h : Sound config reader) : Sound config reader.clear :=
  ⟨h.config_eq, Nat.zero_le _⟩

theorem Sound.append (h : Sound config reader) (chunk : Bytes) :
    Sound config (reader.append chunk) := by
  refine ⟨h.config_eq, ?_⟩
  show reader.offset ≤ (reader.buffer ++ chunk).length
  rw [List.length_append]
  exact Nat.le_add_right_of_le h.offset_le

theorem Sound.spend (h : Sound config reader) {frame : Frame}
    (hread : Head.read reader.unread = .frame frame) : Sound config (reader.spend frame) := by
  have hle := Head.length_le_of_read hread
  have hoffset := h.offset_le
  rw [unread, List.length_drop] at hle
  refine ⟨h.config_eq, ?_⟩
  show reader.offset + frame.length ≤ reader.buffer.length
  omega

theorem Sound.compact (h : Sound config reader) : Sound config reader.compact := by
  rw [compact_eq]
  exact ⟨h.config_eq, Nat.zero_le _⟩

/-- **A run keeps the offset within the buffer.** -/
theorem Sound.read (h : Sound config reader) (handler : DiscardHandler) :
    Sound config (reader.read handler).reader := by
  fun_induction Reader.read handler reader with
  | case1 reader frame hread ih => exact ih (h.spend hread)
  | case2 reader first second hread what hraised => exact h.clear
  | case3 reader first second hread hraised ih => exact ih h.clear
  | case4 reader why hread => exact h
  | case5 reader hread => exact h

theorem leaves_tracedPreview {spent : Reader} (h : Sound config spent) (room : Room)
    (debug : Reader → Bool) (frame : Frame) :
    (tracedPreview room debug frame spent).Leaves (Sound config) := by
  rw [tracedPreview]
  split
  · dsimp only
    split
    · exact (Traced.leaves_ask h room _).bind fun _ _ ↦ Traced.leaves_ask h room _
    · exact Traced.leaves_ask h room _
  · exact .of_ok rfl

theorem Sound.tracedRead_of (h : Sound config reader)
    (hon : (reader.tracedOn room debug handler (Head.read reader.unread)).Leaves (Sound config)) :
    (reader.tracedRead room debug handler).Leaves (Sound config) := by
  rw [tracedRead_eq]
  refine (Traced.leaves_leaving h _).bind fun head hhead ↦ ?_
  rwa [(yields_attempt room reader).eq_of_ok hhead]

/-- **A run that an error stops keeps the offset within the buffer too.** -/
theorem Sound.tracedRead (h : Sound config reader) (room : Room) (debug : Reader → Bool)
    (handler : DiscardHandler) :
    (reader.tracedRead room debug handler).Leaves (Sound config) := by
  fun_induction Reader.read handler reader with
  | case1 reader frame hread ih =>
    refine h.tracedRead_of ?_
    rw [hread, tracedOn]
    have hspent := h.spend hread
    exact (leaves_tracedPreview hspent room debug frame).bind fun _ _ ↦
      (ih hspent).bind fun _ _ ↦ .of_ok rfl
  | case2 reader first second hread what hraised =>
    refine h.tracedRead_of ?_
    rw [hread, tracedOn]
    simp only [hraised]
    exact .of_ok rfl
  | case3 reader first second hread hraised ih =>
    refine h.tracedRead_of ?_
    rw [hread, tracedOn]
    simp only [hraised]
    exact (ih h.clear).bind fun _ _ ↦ .of_ok rfl
  | case4 reader why hread =>
    refine h.tracedRead_of ?_
    rw [hread]
    exact .of_ok rfl
  | case5 reader hread =>
    refine h.tracedRead_of ?_
    rw [hread]
    exact .of_ok rfl

end Sound

/-! ### A feed -/

theorem yields_tracedCompact (h : reader.offset ≤ reader.buffer.length) :
    reader.tracedCompact.Yields room reader.compact := by
  rw [tracedCompact, compact]
  split
  · exact .pure reader
  · have hrange := @Traced.yields_range Reader room reader.buffer _ _ h (Nat.le_refl _)
    rw [List.take_length] at hrange
    exact hrange.bind (.pure _)

theorem leaves_tracedCompact (p : Reader → Prop) (reader : Reader) :
    reader.tracedCompact.Leaves p := by
  rw [tracedCompact]
  split
  · exact .of_ok rfl
  · exact .of_ok rfl

/-- A feed in the parts of the traced one. -/
theorem feed_eq_settle {chunk : Bytes} (hchunk : chunk ≠ []) :
    reader.feed handler chunk =
      match ((reader.append chunk).read handler).raised with
      | some what =>
        (((reader.append chunk).read handler).reader, .error (.raised what),
          ((reader.append chunk).read handler).discards)
      | none =>
        ((reader.append chunk).read handler).reader.compact.settle handler
          ((reader.append chunk).read handler) := by
  rw [feed, if_neg hchunk]
  rfl

section Feed

variable {config : Config}

theorem yields_buffer (room : Room) (length : Nat) (left : Reader) :
    (Traced.ask room (.buffer length) left).Yields room () := by
  refine Traced.yields_ask room ?_ left
  trivial

/-- **A feed asks for nothing that is not there.** -/
theorem Sound.yields_tracedFeed (h : Sound config reader) (room : Room) (debug : Reader → Bool)
    (handler : DiscardHandler) (chunk : Bytes) :
    (reader.tracedFeed room debug handler chunk).Yields room (reader.feed handler chunk) := by
  rw [tracedFeed]
  split
  · next hchunk =>
    rw [feed, if_pos hchunk]
    exact .pure _
  · next hchunk =>
    refine (yields_buffer room _ reader).bind ?_
    refine (yields_tracedRead room debug handler (reader.append chunk)).bind ?_
    rw [feed_eq_settle hchunk]
    rcases ((reader.append chunk).read handler).raised with - | what
    · exact (yields_tracedCompact ((h.append chunk).read handler).offset_le).bind (.pure _)
    · exact .pure _

/-- A feed that is refused something leaves the offset within the buffer. -/
theorem Sound.leaves_tracedFeed (h : Sound config reader) (room : Room) (debug : Reader → Bool)
    (handler : DiscardHandler) (chunk : Bytes) :
    (reader.tracedFeed room debug handler chunk).Leaves (Sound config) := by
  rw [tracedFeed]
  split
  · exact .of_ok rfl
  · refine (Traced.leaves_ask h room _).bind fun _ _ ↦ ?_
    refine ((h.append chunk).tracedRead room debug handler).bind fun reading _ ↦ ?_
    rcases reading.raised with - | what
    · exact (leaves_tracedCompact _ _).bind fun _ _ ↦ .of_ok rfl
    · exact .of_ok rfl

theorem Sound.feed (h : Sound config reader) (handler : DiscardHandler) (chunk : Bytes) :
    Sound config (reader.feed handler chunk).1 := by
  by_cases hchunk : chunk = []
  · rw [Reader.feed, if_pos hchunk]
    exact h
  · have hread := (h.append chunk).read handler
    rw [feed_eq_settle hchunk]
    rcases ((reader.append chunk).read handler).raised with - | what
    · show Sound config (Reader.settle _ _ _).1
      rw [settle]
      split
      · split
        · exact hread.compact
        · exact hread.compact.clear
      · exact hread.compact
    · exact hread

theorem Reached.sound (h : Reached config reader) : Sound config reader := by
  induction h with
  | fresh => exact ⟨rfl, Nat.zero_le _⟩
  | reset before ih => exact ih.clear
  | fed before room debug handler chunk ih =>
    rw [leftBy]
    split
    · next fed hresult =>
      rw [(ih.yields_tracedFeed room debug handler chunk).eq_of_ok hresult]
      exact ih.feed handler chunk
    · next refusal hresult => exact ih.leaves_tracedFeed room debug handler chunk refusal hresult

/-- If the caller raises nothing, a feed returns or stalls. -/
theorem Sound.outcome_of_quiet (h : Sound config reader) (hquiet : handler.raised? = none)
    (chunk : Bytes) :
    (∃ responses, (reader.feed handler chunk).2.1 = .ok responses) ∨
      config.stallPolicy = .throw ∧
        ∃ stall, (reader.feed handler chunk).2.1 = .error (.stall stall) := by
  by_cases hchunk : chunk = []
  · rw [Reader.feed, if_pos hchunk]
    exact .inl ⟨[], rfl⟩
  · have hraised : ((reader.append chunk).read handler).raised = none :=
      (read_eq handler _).2.1.trans (raised_drain hquiet _)
    have hconfig := ((h.append chunk).read handler).compact.config_eq
    rw [feed_eq_settle hchunk, hraised]
    show (∃ responses, (Reader.settle _ _ _).2.1 = .ok responses) ∨
      _ ∧ ∃ stall, (Reader.settle _ _ _).2.1 = .error (.stall stall)
    rw [settle, hconfig]
    split
    · rcases config.stallPolicy with - | -
      · exact .inl ⟨[], by rw [DiscardHandler.outcome, hquiet]⟩
      · exact .inr ⟨rfl, _, rfl⟩
    · exact .inl ⟨_, rfl⟩

end Feed

/-- Where there is room for everything, turns leave a reader that a feed may find. -/
theorem reached_after (config : Config) (turns : List Turn) :
    Reached config (ofDecoder ((fresh config).after turns)) := by
  refine Decoder.after_induction (p := fun decoder ↦ Reached config (ofDecoder decoder)) .fresh ?_
    turns
  intro decoder turn before
  obtain ⟨operation, handler⟩ := turn
  cases operation with
  | feed chunk =>
    have hfed := before.fed .unlimited (fun _ ↦ false) handler chunk
    have hyields := before.sound.yields_tracedFeed .unlimited (fun _ ↦ false) handler chunk
    rw [leftBy, hyields.ok_of_unlimited, feed_ofDecoder] at hfed
    exact hfed
  | reset => exact before.reset

/-- **Nothing that is fed makes a decoder crash**, whatever its settings are and whatever was done
to it before, but what there is no room for. All that a feed asks of its buffer is there. So the
feed comes to the end that it has without those questions, and if the caller raises nothing it
returns or, where that is the policy, ends in a stall; or else a buffer or a text that it asked for
was refused, and the error leaves a reader of which all of this holds again. Where turns have come
to their end the feed is that of the decoder as they leave it. -/
theorem yields_tracedFeed_of_reached {config : Config} {reader : Reader}
    (hreached : Reached config reader) (room : Room) (debug : Reader → Bool)
    (handler : DiscardHandler) (chunk : Bytes) :
    let fed := reader.feed handler chunk
    let traced := reader.tracedFeed room debug handler chunk
    (∀ access ∈ traced.accesses, access.IsInside) ∧
      (traced.result = .ok fed ∧ (∀ access ∈ traced.accesses, room.grants access = true) ∨
        ∃ refusal, traced.result = .error refusal ∧ refusal.access ∈ traced.accesses ∧
          room.grants refusal.access = false ∧ Reached config refusal.left) ∧
      (handler.raised? = none →
        (∃ responses, fed.2.1 = .ok responses) ∨
          config.stallPolicy = .throw ∧ ∃ stall, fed.2.1 = .error (.stall stall)) ∧
      ∀ turns : List Turn,
        let decoder := (fresh config).after turns
        let fed := decoder.feed handler chunk
        Reached config (ofDecoder decoder) ∧
          (ofDecoder decoder).feed handler chunk =
            (ofDecoder fed.decoder, fed.outcome, fed.discards) ∧
          (handler.raised? = none →
            fed.outcome = .ok (fed.frames.map Frame.response) ∨
              config.stallPolicy = .throw ∧ ∃ stall, fed.outcome = .error (.stall stall)) := by
  intro fed traced
  have hyields : traced.Yields room fed :=
    hreached.sound.yields_tracedFeed room debug handler chunk
  refine ⟨hyields.isInside, ?_, fun hquiet ↦ hreached.sound.outcome_of_quiet hquiet chunk,
    fun turns ↦ ⟨reached_after config turns, feed_ofDecoder _ handler chunk, fun hquiet ↦ ?_⟩⟩
  · rcases hyields.ends with hends | ⟨refusal, herror, hmem, hrefused⟩
    · exact .inl hends
    · have hleft := hreached.fed room debug handler chunk
      rw [leftBy, herror] at hleft
      exact .inr ⟨refusal, herror, hmem, hrefused, hleft⟩
  · have hends := (((fresh config).after turns).feeds handler chunk).outcome_of_quiet hquiet
    rwa [config_after] at hends

/-- A frame that was cut in two, one of the least size there is, and a third whose body ends next to
the last byte: only the second of its terminators is missing. Its text is made all the same, and
where there is no room for it the reader is left behind the other two. -/
theorem yields_tracedFeed_of_reached_least_size :
    let packet := Packet.bytes ⟨10, -1, 2, [], 0, 0⟩
    let third := Packet.bytes ⟨10, -1, 0, [], 65, 0⟩
    let reader :=
      ofDecoder ((fresh .default).after [⟨.feed (packet.take 5), .raises (.error "no")⟩])
    let chunk := packet.drop 5 ++ Packet.bytes ⟨-2147483648, -1, 2, [], 0, 0⟩ ++ third
    let traced := reader.tracedFeed (.ofTexts 1) (fun _ ↦ true) .returns chunk
    let refused := reader.tracedFeed (.ofTexts 0) (fun _ ↦ true) .returns chunk
    Reached .default reader ∧
      traced.accesses =
        [.buffer 42, .int32 42 0, .int32 42 4, .int32 42 8, .range 42 12 14, .byte 42 12,
          .byte 42 13, .text 0, .int32 42 14, .int32 42 18, .int32 42 22, .byte 42 26, .byte 42 27,
          .text 0, .int32 42 28, .int32 42 32, .int32 42 36, .range 42 40 42, .range 42 40 41,
          .text 1, .range 42 28 42] ∧
      (∀ access ∈ traced.accesses, access.IsInside) ∧
      traced.result = .ok (reader.feed .returns chunk) ∧
      DiscardHandler.returns.raised? = none ∧
      (∃ responses, (reader.feed .returns chunk).2.1 = .ok responses) ∧
      (reader.feed .returns chunk).1 = ⟨.default, third, 0, 0⟩ ∧
      (reader.feed .returns chunk).2.1.toOption =
        some [⟨.auth, 10, -1, 2, ""⟩, ⟨.auth, -2147483648, -1, 2, ""⟩] ∧
      refused.accesses.getLast? = some (.text 1) ∧
      leftBy refused = ⟨.default, reader.buffer ++ chunk, 28, 0⟩ := by
  intro packet third reader chunk traced refused
  have hreached : Reached .default reader := reached_after .default _
  obtain ⟨hinside, hends, hreturns, -⟩ :=
    yields_tracedFeed_of_reached hreached (.ofTexts 1) (fun _ ↦ true) .returns chunk
  have hgranted : ∀ access ∈ traced.accesses, (Room.ofTexts 1).grants access = true := by
    decide +kernel
  refine ⟨hreached, by decide +kernel, hinside, ?_, rfl, ?_, by decide +kernel, by decide +kernel,
    by decide +kernel, by decide +kernel⟩
  · rcases hends with ⟨hok, -⟩ | ⟨refusal, -, hmem, hrefused, -⟩
    · exact hok
    · exact absurd (hgranted _ hmem) (Bool.eq_false_iff.1 hrefused)
  · exact (hreturns rfl).resolve_right fun hstalls ↦ absurd hstalls.1 (by decide)

/-! ### Texts that are too long -/

/-- What the first attempt asks for the feed asks for, if there is room for the buffer. -/
theorem mem_accesses_tracedFeed {chunk : Bytes} {access : Access} (hchunk : chunk ≠ [])
    (hroom : room.buffer (reader.buffer.length + chunk.length) = true)
    (hmem : access ∈ (Head.readAt room (reader.buffer ++ chunk) reader.offset).accesses) :
    access ∈ (reader.tracedFeed room debug handler chunk).accesses := by
  have hjoined : (Traced.ask room (.buffer (reader.buffer.length + chunk.length)) reader).result =
      .ok () := if_pos hroom
  have hattempt : access ∈ ((Head.readAt room (reader.append chunk).buffer
      (reader.append chunk).offset).leaving (reader.append chunk)).accesses := hmem
  rw [tracedFeed, if_neg hchunk, Traced.bind_of_ok hjoined, tracedRead_eq]
  exact List.mem_append_right _ (Traced.mem_accesses_bind (Traced.mem_accesses_bind hattempt _) _)

/-- A body in a frame of the proper size has its text made. -/
theorem text_mem_accesses_tracedFeed (hroom : ∀ length, room.buffer length = true)
    (config : Config) {body : Bytes} (hbody : 0 ∉ body) (hpos : 0 < body.length)
    (hsize : Bytes.isInt32 (FrameSpec.properSize body.length) = true) :
    .text body.length ∈
      ((ofDecoder (fresh config)).tracedFeed room debug handler
        (Packet.bytes ⟨FrameSpec.properSize body.length, -1, 0, body, 0, 0⟩)).accesses := by
  let packet : Packet := ⟨FrameSpec.properSize body.length, -1, 0, body, 0, 0⟩
  have hpacket : packet.bytes =
      [] ++ (Frame.header (FrameSpec.properSize body.length) (-1) 0 ++ (body ++ [0, 0])) :=
    List.append_assoc _ _ _
  have hend : Head.bodyEnd (FrameSpec.properSize body.length) (body ++ [0, 0]) = body.length := by
    rw [Reply.bodyEnd_append_cons_cons hbody, if_pos rfl]
  have hlength : (body ++ [0, 0]).length = body.length + 2 := List.length_append
  have hne : packet.bytes ≠ [] := by
    refine List.ne_nil_of_length_pos ?_
    rw [packet.length_bytes, Protocol.minFrameBytes]
    omega
  refine mem_accesses_tracedFeed hne (hroom _) ?_
  show .text body.length ∈ (Head.readAt room packet.bytes 0).accesses
  have hmem := @Head.text_mem_accesses_readAt room [] (body ++ [0, 0]) 0
    (FrameSpec.properSize body.length) (-1) .value hsize (by decide) rfl (by omega)
    (by rw [FrameSpec.properSize]; omega) (by decide) (by rwa [hend])
  rw [hend] at hmem
  rw [hpacket]
  exact hmem

/-- **A body that is longer than any text may be stops the feed**, though its frame is as good as
any. -/
theorem result_ne_ok_of_long_body {longest : Nat} (debug : Reader → Bool) (config : Config)
    (handler : DiscardHandler) {body : Bytes} (hbody : 0 ∉ body) (hlong : longest < body.length)
    (hsize : Bytes.isInt32 (FrameSpec.properSize body.length) = true)
    (fed : Reader × Outcome × List Discard) :
    ((ofDecoder (fresh config)).tracedFeed (.ofTexts longest) debug handler
      (Packet.bytes ⟨FrameSpec.properSize body.length, -1, 0, body, 0, 0⟩)).result ≠ .ok fed := by
  intro hok
  have hyields := (@Reached.fresh config).sound.yields_tracedFeed (.ofTexts longest) debug handler
    (Packet.bytes ⟨FrameSpec.properSize body.length, -1, 0, body, 0, 0⟩)
  have hgranted := hyields.grants_of_ok hok _
    (text_mem_accesses_tracedFeed (fun _ ↦ rfl) config hbody (by omega) hsize)
  exact Nat.not_le.2 hlong (of_decide_eq_true hgranted)

/-- **A feed may crash for want of room**: where texts may have 536870888 bytes, a body of one more
is refused. -/
theorem not_forall_ends_without_refusal :
    ¬∀ (room : Room) (debug : Reader → Bool) (config : Config) (handler : DiscardHandler)
        (chunk : Bytes),
      handler.raised? = none →
        ∃ fed,
          ((ofDecoder (fresh config)).tracedFeed room debug handler chunk).result = .ok fed := by
  intro h
  have hlength : (List.replicate 536870889 (65 : UInt8)).length = 536870889 := List.length_replicate
  have hbody : (0 : UInt8) ∉ List.replicate 536870889 (65 : UInt8) :=
    fun hmem ↦ absurd (List.eq_of_mem_replicate hmem) (by decide)
  obtain ⟨fed, hok⟩ := h (.ofTexts 536870888) (fun _ ↦ false) .default .returns _ rfl
  exact result_ne_ok_of_long_body (fun _ ↦ false) .default .returns hbody
    (by rw [hlength]; decide)
    (by rw [hlength]; decide) fed hok

end Reader

end Rcon
