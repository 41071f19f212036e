import Rcon.Proofs.Decoder.Turns
import Rcon.Proofs.Frame.Grammar

/-!
# A feed parses what is pending

`Grammar.Parses` is a parser by rules: as long as a frame stands first it is taken off, a malformed
packet drops everything, and bytes that wait are the rest. What a frame tells is said by places,
like everything else (`Grammar.Tells`): the three numbers of the header, the text of the bytes
behind it, and the kind that these make of it. `Grammar.conclude` is what the limit and the policy
make of a parse.

**Feeding a chunk to a decoder is the one parse of what is pending and the chunk, concluded**
(`feed_parses`), in whatever state turns have left the decoder. Nothing is kept that does not
wait, and no frame takes more than one byte beyond the size that it declares, unless the size is
that of no frame.
-/

namespace Rcon

namespace Grammar

/-! ### What a frame tells -/

/-- The kind of a response: the end of a split response if it has the reserved id and nothing but
blanks in its body, and what the code of its type says otherwise. -/
def kindOf (id code : Int) (body : String) : Response.Kind :=
  if id = 999 ∧ body.toList.all isBlank then .terminator
  else if code = 2 then .auth
  else .command

/-- The bytes begin with a frame that tells this response, and its body ends at `stop`. -/
structure Tells (bytes : Bytes) (response : Response) (stop : Nat) : Prop where
  /-- There is all it takes, with the numbers of the response in the header. -/
  complete : Complete bytes response.size response.id response.code stop
  /-- The byte behind the body is zero. -/
  first_zero : bytes[stop]? = some 0
  /-- The byte behind that is zero as well. -/
  second_zero : bytes[stop + 1]? = some 0
  /-- The body is the text of what stands between the header and the place where it ends. -/
  body_eq : response.body = Utf8.text ((bytes.take stop).drop 12)
  /-- The kind follows from the others. -/
  kind_eq : response.kind = kindOf response.id response.code response.body

theorem kind_eq_kindOf (frame : Frame) :
    frame.kind = kindOf frame.id frame.type.code frame.text := by
  have htype : Response.Kind.ofType frame.type =
      if frame.type.code = 2 then .auth else .command := by
    cases frame.type <;> rfl
  rw [Frame.kind, kindOf, htype]
  rfl

/-- **A frame tells its response.** -/
theorem IsFrame.tells {bytes : Bytes} {frame : Frame} {stop : Nat} (h : IsFrame bytes frame stop) :
    Tells bytes frame.response stop where
  complete := h.complete
  first_zero := h.first_zero
  second_zero := h.second_zero
  body_eq := congrArg Utf8.text h.body_eq
  kind_eq := kind_eq_kindOf frame

/-- **What is told is told by a frame.** -/
theorem Tells.exists_isFrame {bytes : Bytes} {response : Response} {stop : Nat}
    (h : Tells bytes response stop) :
    ∃ frame, IsFrame bytes frame stop ∧ frame.response = response := by
  obtain ⟨kind, size, id, code, body⟩ := response
  obtain ⟨hcomplete, hfirst, hsecond, hbody, hkind⟩ := h
  dsimp only at hcomplete hbody hkind
  obtain ⟨type, rfl⟩ := exists_code_eq hcomplete.code_known
  refine ⟨⟨size, id, type, (bytes.take stop).drop 12⟩, ⟨hcomplete, hfirst, hsecond, rfl⟩, ?_⟩
  rw [Frame.response, kind_eq_kindOf, hkind, hbody]
  rfl

/-! ### The parser -/

/-- What a parse takes off the bytes. -/
structure Parsed where
  /-- The response that a frame tells. -/
  response : Response
  /-- The place where the body of the frame ends. -/
  stop : Nat
  deriving DecidableEq

/-- A parse of bytes: the frames, the discards, and the bytes that are left. -/
inductive Parses : Bytes → List Parsed → List Discard → Bytes → Prop
  /-- A frame is taken off, with the two zeros behind its body. -/
  | frame {bytes : Bytes} {response : Response} {stop : Nat} {parsed : List Parsed}
      {discards : List Discard} {rest : Bytes} (head : Tells bytes response stop)
      (tail : Parses (bytes.drop (stop + 2)) parsed discards rest) :
      Parses bytes (⟨response, stop⟩ :: parsed) discards rest
  /-- A malformed packet drops everything. -/
  | malformed {bytes : Bytes} {parsed : List Parsed} {discards : List Discard} {rest : Bytes}
      (head : IsMalformed bytes) (tail : Parses [] parsed discards rest) :
      Parses bytes parsed (⟨.malformedTerminator, bytes.length⟩ :: discards) rest
  /-- Bytes that wait are left. -/
  | waits {bytes : Bytes} (head : Waits bytes) : Parses bytes [] [] bytes

/-- What comes of a parse: how the feed ends, the discards, and the bytes that are pending. -/
def conclude (config : Config) (parsed : List Parsed) (discards : List Discard) (rest : Bytes) :
    Outcome × List Discard × Bytes :=
  if parsed = [] ∧ config.maxPendingBytes < rest.length then
    match config.stallPolicy with
    | .discard => (.ok [], discards ++ [⟨.stalled, rest.length⟩], [])
    | .throw => (.error (.stall ⟨rest.length, config.maxPendingBytes⟩), discards, rest)
  else (.ok (parsed.map Parsed.response), discards, rest)

/-- What a parse makes of a frame. -/
def Parsed.ofFrame (frame : Frame) : Parsed :=
  ⟨frame.response, 12 + frame.body.length⟩

theorem IsFrame.ofFrame_eq {bytes : Bytes} {frame : Frame} {stop : Nat}
    (h : IsFrame bytes frame stop) : Parsed.ofFrame frame = ⟨frame.response, stop⟩ := by
  rw [Parsed.ofFrame, ← h.stop_eq]

variable {handler : DiscardHandler} {bytes rest : Bytes} {parsed : List Parsed}
  {discards : List Discard}

/-- **There is a parse**: the run of attempts makes it. -/
theorem parses_drain (hquiet : handler.raised? = none) (bytes : Bytes) :
    Parses bytes ((drain handler bytes).frames.map .ofFrame) (drain handler bytes).discards
      (drain handler bytes).rest := by
  fun_induction drain handler bytes with
  | case1 bytes frame hread ih =>
    obtain ⟨stop, hframe⟩ := isFrame_iff.2 hread
    rw [hframe.length_eq] at ih ⊢
    rw [Drain.frames_after_frame, List.map_cons, hframe.ofFrame_eq]
    exact .frame hframe.tells ih
  | case2 bytes first second hread what hraised =>
    rw [hquiet] at hraised
    cases hraised
  | case3 bytes first second hread hraised ih =>
    exact .malformed (isMalformed_iff.2 ⟨first, second, hread⟩) ih
  | case4 bytes why hread => exact .waits (waits_iff.2 (by rw [hread]; rfl))
  | case5 bytes hread => exact .waits (waits_iff.2 (by rw [hread]; rfl))

/-- **There is one parse only.** -/
theorem Parses.eq_drain (hquiet : handler.raised? = none)
    (h : Parses bytes parsed discards rest) :
    parsed = (drain handler bytes).frames.map .ofFrame ∧
      discards = (drain handler bytes).discards ∧ rest = (drain handler bytes).rest := by
  induction h with
  | frame head tail ih =>
    obtain ⟨rfl, rfl, rfl⟩ := ih
    obtain ⟨frame, hframe, rfl⟩ := head.exists_isFrame
    rw [drain_of_frame (isFrame_iff.1 ⟨_, hframe⟩), hframe.length_eq, Drain.frames_after_frame,
      List.map_cons, hframe.ofFrame_eq]
    exact ⟨rfl, rfl, rfl⟩
  | malformed head tail ih =>
    obtain ⟨rfl, rfl, rfl⟩ := ih
    obtain ⟨first, second, hread⟩ := isMalformed_iff.1 head
    rw [drain_of_malformed hquiet hread, drain_nil]
    exact ⟨rfl, rfl, rfl⟩
  | waits head =>
    have hwait := waits_iff.1 head
    rw [frames_drain_of_isWait hwait, discards_drain_of_isWait hwait, rest_drain_of_isWait hwait]
    exact ⟨rfl, rfl, rfl⟩

/-- **How much a frame takes**: the body and two bytes behind it, and so what its size declares only
if the body ends two bytes before that. -/
theorem Parses.stop_le (h : Parses bytes parsed discards rest) :
    ∀ entry ∈ parsed, (entry.stop : Int) + 2 ≤ max 14 (entry.response.size + 5) ∧
      ((entry.stop : Int) + 2 = 4 + entry.response.size ↔
        (entry.stop : Int) = entry.response.size + 2) := by
  induction h with
  | frame head tail ih =>
    refine List.forall_mem_cons.2 ⟨⟨head.complete.ends.add_two_le, ?_⟩, ih⟩
    dsimp only
    omega
  | malformed head tail ih => exact ih
  | waits head => exact fun entry hmem ↦ absurd hmem List.not_mem_nil

end Grammar

namespace Decoder

open Grammar

/-- What a feed shows is concluded from the frames, the discards and the rest of its run. -/
theorem feed_eq_conclude {decoder : Decoder} {handler : DiscardHandler} {chunk : Bytes}
    (hquiet : handler.raised? = none) (hchunk : chunk ≠ []) :
    ((decoder.feed handler chunk).outcome, (decoder.feed handler chunk).discards,
        (decoder.feed handler chunk).decoder.pending) =
      conclude decoder.config ((decoder.runOn handler chunk).frames.map .ofFrame)
        (decoder.runOn handler chunk).discards (decoder.runOn handler chunk).rest := by
  have hfeeds := feeds decoder handler chunk
  generalize decoder.feed handler chunk = fed at hfeeds ⊢
  rw [conclude, List.map_map]
  simp only [List.map_eq_nil_iff]
  cases hfeeds with
  | idle hempty => exact absurd hempty hchunk
  | calm _ hcalm =>
    have houtcome : (decoder.runOn handler chunk).outcome =
        .ok ((decoder.runOn handler chunk).frames.map Frame.response) := by
      rw [Drain.outcome, runOn, raised_drain hquiet]
    rw [if_neg (show ¬(_ ∧ _) from hcalm), feedEnding, houtcome]
    rfl
  | stalling _ hpolicy hover =>
    rw [if_pos (And.intro hover.1 hover.2), hpolicy, ← hover.rest_eq]
    rfl
  | dropping _ hpolicy hover =>
    rw [if_pos (And.intro hover.1 hover.2), hpolicy, hover.discards_eq, feedDropping,
      DiscardHandler.outcome, hquiet, ← hover.rest_eq]
    rfl

/-- The frames of a feed are those of its run, whatever is made of them. -/
theorem frames_feed {decoder : Decoder} {handler : DiscardHandler} {chunk : Bytes}
    (hchunk : chunk ≠ []) :
    (decoder.feed handler chunk).frames = (decoder.runOn handler chunk).frames := by
  have hfeeds := feeds decoder handler chunk
  generalize decoder.feed handler chunk = fed at hfeeds ⊢
  cases hfeeds with
  | idle hempty => exact absurd hempty hchunk
  | calm _ hcalm => rfl
  | stalling _ hpolicy hover => rfl
  | dropping _ hpolicy hover => rfl

/-- **A feed is the parse of what is pending and the chunk.** -/
theorem feed_parses (config : Config) (turns : List Turn) {handler : DiscardHandler}
    (hquiet : handler.raised? = none) :
    let decoder := (fresh config).after turns
    Waits decoder.pending ∧
      ∀ chunk : Bytes, chunk ≠ [] →
        let fed := decoder.feed handler chunk
        ∃ parsed discards rest,
          (∀ parsed' discards' rest',
            Parses (decoder.pending ++ chunk) parsed' discards' rest' ↔
              parsed' = parsed ∧ discards' = discards ∧ rest' = rest) ∧
          (fed.outcome, fed.discards, fed.decoder.pending) =
            conclude config parsed discards rest ∧
          Waits fed.decoder.pending ∧
          fed.frames.map Frame.length = (parsed.map fun entry ↦ entry.stop + 2) ∧
          ∀ entry ∈ parsed, (entry.stop : Int) + 2 ≤ max 14 (entry.response.size + 5) ∧
            ((entry.stop : Int) + 2 = 4 + entry.response.size ↔
              (entry.stop : Int) = entry.response.size + 2) := by
  intro decoder
  have hwait := isWait_after config turns
  have hconfig : decoder.config = config := config_after (fresh config) turns
  refine ⟨waits_iff.2 hwait, fun chunk hchunk ↦ ?_⟩
  have hparses := parses_drain hquiet (decoder.pending ++ chunk)
  refine ⟨_, _, _, fun parsed' discards' rest' ↦ ⟨fun h ↦ h.eq_drain hquiet, ?_⟩, ?_, ?_, ?_,
    hparses.stop_le⟩
  · rintro ⟨rfl, rfl, rfl⟩
    exact hparses
  · rw [← hconfig]
    exact feed_eq_conclude hquiet hchunk
  · exact waits_iff.2 (isWait_step handler (.feed chunk) hwait)
  · rw [frames_feed hchunk, List.map_map]
    refine List.map_congr_left fun frame _ ↦ ?_
    show Protocol.minFrameBytes + frame.body.length = 12 + frame.body.length + 2
    rw [Protocol.minFrameBytes]
    omega

/-- A frame that goes one byte beyond the size it declares, in two chunks, behind it the end of a
split response with a no-break space in its body, and three bytes of the next. -/
theorem feed_parses_beyond_size :
    let decoder := (fresh ⟨16, .throw, 30, by decide⟩).after
      [⟨.feed [11, 0, 0, 0, 1, 0xE1, 0xF5, 5, 0], .absent⟩]
    let chunk : Bytes := [0, 0, 0, 0x68, 0x69, 0, 0] ++
      [12, 0, 0, 0, 0xE7, 3, 0, 0, 2, 0, 0, 0, 0xC2, 0xA0, 0, 0] ++ [10, 0, 0]
    let fed := decoder.feed .returns chunk
    let first : Response := ⟨.command, 11, 100000001, 0, "hi"⟩
    let second : Response := ⟨.terminator, 12, 999, 2, "\u00A0"⟩
    DiscardHandler.returns.raised? = none ∧ chunk ≠ [] ∧
      Parses (decoder.pending ++ chunk) [⟨first, 14⟩, ⟨second, 14⟩] [] [10, 0, 0] ∧
      (fed.outcome, fed.discards, fed.decoder.pending) = (.ok [first, second], [], [10, 0, 0]) := by
  intro decoder chunk fed first second
  have hquiet : DiscardHandler.returns.raised? = none := rfl
  have hparsed : (drain .returns (decoder.pending ++ chunk)).frames.map Parsed.ofFrame =
      [⟨first, 14⟩, ⟨second, 14⟩] := by decide +kernel
  have hdiscards : (drain .returns (decoder.pending ++ chunk)).discards = [] := by decide +kernel
  have hrest : (drain .returns (decoder.pending ++ chunk)).rest = [10, 0, 0] := by decide +kernel
  have hparses : Parses (decoder.pending ++ chunk) [⟨first, 14⟩, ⟨second, 14⟩] [] [10, 0, 0] := by
    have h := parses_drain hquiet (decoder.pending ++ chunk)
    rwa [hparsed, hdiscards, hrest] at h
  obtain ⟨-, hfeed⟩ := feed_parses ⟨16, .throw, 30, by decide⟩
    [⟨.feed [11, 0, 0, 0, 1, 0xE1, 0xF5, 5, 0], .absent⟩] hquiet
  obtain ⟨parsed, discards, rest, honly, hshown, -⟩ := hfeed chunk (by decide)
  obtain ⟨rfl, rfl, rfl⟩ := (honly _ _ _).1 hparses
  exact ⟨hquiet, by decide, hparses, hshown⟩

end Decoder

end Rcon
