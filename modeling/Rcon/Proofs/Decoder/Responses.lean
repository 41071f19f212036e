import Rcon.Proofs.Decoder.Turns
import Rcon.Proofs.Frame.Grammar
import Rcon.Proofs.Text.Decoding

/-!
# What a response can be

Whoever writes the bytes, the responses that come of them are well formed
(`Response.IsWellFormed`): the id and the code are among those there are, the size is a signed
32-bit number, the body holds no `U+0000`, and it has at most as many UTF-16 units as the declared
size leaves room for. **The kind is decided by the text of the body**, not by its bytes.

A response comes of a frame (`Feeds.exists_frame_of_mem_responses`), and a frame stands at some
place of the stream as the grammar says (`exists_isFrame_of_mem_frames`). There the bound on the
body is that of the place where it ends: behind the header and within the declared size, or else
right behind the header.
-/

namespace Rcon

/-! ### Well-formed responses -/

/-- The code points of the blank characters: the tab, the line feed, the vertical tab, the form feed
and the carriage return, the space, the space separators behind it, the two separators of lines and
paragraphs, and the byte order mark. -/
def blankCodes : List Nat :=
  [0x09, 0x0A, 0x0B, 0x0C, 0x0D, 0x20, 0xA0, 0x1680, 0x2000, 0x2001, 0x2002, 0x2003, 0x2004, 0x2005,
    0x2006, 0x2007, 0x2008, 0x2009, 0x200A, 0x2028, 0x2029, 0x202F, 0x205F, 0x3000, 0xFEFF]

/-- The blank characters are those within the ranges of the table. -/
theorem isBlank_iff_mem (c : Char) : isBlank c = true ↔ c.toNat ∈ blankCodes := by
  simp only [isBlank, blankRanges, blankCodes, List.any_cons, List.any_nil, Bool.or_eq_true,
    Bool.and_eq_true, decide_eq_true_eq, Bool.or_false, List.mem_cons, List.not_mem_nil, or_false]
  omega

/-- What holds of every response that a decoder returns. -/
structure Response.IsWellFormed (response : Response) : Prop where
  /-- The id is one that a server may answer with. -/
  id_accepted : response.id = -1 ∨ response.id = 999 ∨
    100000000 ≤ response.id ∧ response.id ≤ 999999999
  /-- The code is that of a type. -/
  code_known : response.code = 0 ∨ response.code = 2
  /-- The size is a signed 32-bit number. -/
  size_fits : -2147483648 ≤ response.size ∧ response.size ≤ 2147483647
  /-- The body holds no `U+0000`. -/
  null_notMem_body : '\x00' ∉ response.body.toList
  /-- The body has no more units than the size leaves room for. -/
  length_body_le : ((Units.ofString response.body).length : Int) ≤ max 0 (response.size - 9)
  /-- The body is empty where the size leaves no room. -/
  body_eq_empty : response.size ≤ 9 → response.body = ""
  /-- A split response is ended by what has the reserved id and nothing but blanks in its body. -/
  kind_eq_terminator_iff : response.kind = .terminator ↔
    response.id = 999 ∧ ∀ c ∈ response.body.toList, c.toNat ∈ blankCodes
  /-- A response that ends no split response is what its code says. -/
  kind_eq_of_ne : response.kind ≠ .terminator →
    (response.kind = .command ↔ response.code = 0) ∧ (response.kind = .auth ↔ response.code = 2)

theorem Units.eq_empty_of_length_ofString {s : String} (h : (Units.ofString s).length = 0) :
    s = "" := by
  rw [← Units.toString_ofString s, List.length_eq_zero_iff.1 h]
  rfl

theorem Bytes.isInt32_of_int32? {bytes : Bytes} {i : Nat} {n : Int}
    (h : Bytes.int32? bytes i = some n) : Bytes.isInt32 n = true := by
  rw [int32?] at h
  split at h
  · rw [← Option.some.inj h]
    exact isInt32_toInt32 _ _ _ _
  · cases h

/-! ### The response of a frame -/

/-- **The kind of a frame**: it ends a split response or is what its type says. -/
theorem Frame.kind_cases (frame : Frame) :
    (frame.kind = .terminator ∧ frame.id = 999 ∧
        ∀ c ∈ frame.text.toList, c.toNat ∈ blankCodes) ∨
      frame.kind = .ofType frame.type ∧
        ¬(frame.id = 999 ∧ ∀ c ∈ frame.text.toList, c.toNat ∈ blankCodes) := by
  have hblank : frame.text.toList.all isBlank = true ↔
      ∀ c ∈ frame.text.toList, c.toNat ∈ blankCodes := by
    simp only [List.all_eq_true, isBlank_iff_mem]
  rw [← hblank, kind]
  split
  · next hterminator => exact .inl ⟨rfl, hterminator⟩
  · next hother => exact .inr ⟨rfl, hother⟩

namespace Grammar

variable {bytes : Bytes} {frame : Frame} {stop : Nat}

theorem IsFrame.zero_notMem_body (h : IsFrame bytes frame stop) : 0 ∉ frame.body := by
  rw [h.body_eq]
  cases h.complete.ends with
  | atZero behind within zero first =>
    intro hmem
    obtain ⟨k, hk⟩ := List.getElem?_of_mem hmem
    obtain ⟨hlt, -⟩ := List.getElem?_eq_some_iff.1 hk
    rw [List.length_drop, List.length_take] at hlt
    rw [List.getElem?_drop, List.getElem?_take_of_lt (by omega)] at hk
    exact first (12 + k) (by omega) (by omega) hk
  | atOnce =>
    rw [List.drop_take_self]
    exact List.not_mem_nil

/-- **A body is no longer than its size leaves room for**: the size counts the header behind it, and
a zero. -/
theorem IsFrame.length_body_le (h : IsFrame bytes frame stop) :
    (frame.body.length : Int) ≤ max 0 (frame.size - 9) := by
  have hstop := h.stop_eq
  cases h.complete.ends with
  | atZero behind within => omega
  | atOnce => omega

/-- **A frame that stands in the stream is a well-formed response.** -/
theorem IsFrame.isWellFormed_response (h : IsFrame bytes frame stop) :
    frame.response.IsWellFormed := by
  have hsize := Bytes.isInt32_of_int32? h.complete.size_at
  simp only [Bytes.isInt32, Bool.and_eq_true, decide_eq_true_eq] at hsize
  have hunits : ((Units.ofString frame.text).length : Int) ≤ max 0 (frame.size - 9) :=
    Int.le_trans (Int.ofNat_le.2 (Utf8.length_ofString_text_le frame.body)) h.length_body_le
  refine
    { id_accepted := h.complete.id_accepted
      code_known := h.complete.code_known
      size_fits := hsize
      null_notMem_body := Utf8.null_notMem_text h.zero_notMem_body
      length_body_le := hunits
      body_eq_empty := fun hsmall ↦ Units.eq_empty_of_length_ofString ?_
      kind_eq_terminator_iff := ?_
      kind_eq_of_ne := ?_ }
  · have hsmall' : frame.size ≤ 9 := hsmall
    show (Units.ofString frame.text).length = 0
    omega
  · show frame.kind = .terminator ↔ _
    rcases frame.kind_cases with ⟨hkind, hterminator⟩ | ⟨hkind, hother⟩
    · exact iff_of_true hkind hterminator
    · rw [hkind]
      refine iff_of_false (fun h ↦ ?_) hother
      rcases htype : frame.type with - | -
      · rw [htype] at h
        cases h
      · rw [htype] at h
        cases h
  · show frame.kind ≠ .terminator → (frame.kind = .command ↔ frame.type.code = 0) ∧
      (frame.kind = .auth ↔ frame.type.code = 2)
    intro hne
    rcases frame.kind_cases with ⟨hkind, -⟩ | ⟨hkind, -⟩
    · exact absurd hkind hne
    · rw [hkind]
      cases frame.type <;> decide

/-- Every frame of a run stands at some place of the bytes. -/
theorem exists_isFrame_of_mem_frames {handler : DiscardHandler}
    (h : frame ∈ (drain handler bytes).frames) : ∃ rest stop, IsFrame rest frame stop := by
  fun_induction drain handler bytes with
  | case1 bytes first hread ih =>
    rw [Drain.frames_after_frame] at h
    rcases List.mem_cons.1 h with rfl | hmem
    · exact ⟨bytes, isFrame_iff.2 hread⟩
    · exact ih hmem
  | case2 bytes first second hread what hraised => exact absurd h List.not_mem_nil
  | case3 bytes first second hread hraised ih => exact ih h
  | case4 bytes why hread => exact absurd h List.not_mem_nil
  | case5 bytes hread => exact absurd h List.not_mem_nil

end Grammar

/-! ### Responses of runs -/

namespace Decoder

/-- **Every response comes of a frame of the run.** -/
theorem Feeds.exists_frame_of_mem_responses {decoder : Decoder} {handler : DiscardHandler}
    {chunk : Bytes} {fed : Feed} (h : Feeds decoder handler chunk fed) {response : Response}
    (hresponse : response ∈ fed.responses) :
    ∃ frame ∈ (decoder.runOn handler chunk).frames, frame.response = response := by
  rw [Feed.responses] at hresponse
  rcases h.outcome_cases with houtcome | ⟨failure, houtcome⟩
  · rw [houtcome] at hresponse
    obtain ⟨frame, hframe, rfl⟩ := List.mem_map.1 hresponse
    refine ⟨frame, ?_, rfl⟩
    -- A feed completes the frames of its run, but for an empty chunk, which completes none.
    cases h with
    | idle hchunk => exact absurd hframe List.not_mem_nil
    | calm hchunk hcalm => exact hframe
    | stalling hchunk hpolicy hover => exact hframe
    | dropping hchunk hpolicy hover => exact hframe
  · rw [houtcome] at hresponse
    exact absurd hresponse List.not_mem_nil

/-- **Every response is well formed, whatever the bytes.** -/
theorem isWellFormed_of_mem_responses (config : Config) (turns : List Turn) {fed : Feed}
    (hfed : fed ∈ (fresh config).play turns) {response : Response}
    (hresponse : response ∈ fed.responses) : response.IsWellFormed := by
  obtain ⟨done, ⟨operation, handler⟩, rfl⟩ := exists_perform_of_mem_play hfed
  cases operation with
  | feed chunk =>
    obtain ⟨frame, hframe, rfl⟩ :=
      (feeds _ handler chunk).exists_frame_of_mem_responses hresponse
    obtain ⟨rest, stop, hstands⟩ := Grammar.exists_isFrame_of_mem_frames hframe
    exact hstands.isWellFormed_response
  | reset => exact absurd hresponse List.not_mem_nil

/-- A byte order mark is a blank, so the end of a split response may have one in its body; the size
that is declared here is one too small. -/
theorem isWellFormed_of_mem_responses_blank :
    let turns : List Turn :=
      [⟨.feed [12, 0, 0, 0, 0xE7, 3, 0, 0, 2, 0, 0, 0, 0xEF], .absent⟩,
        ⟨.feed [0xBB, 0xBF, 0, 0], .absent⟩]
    let response : Response := ⟨.terminator, 12, 999, 2, "\uFEFF"⟩
    (∃ fed ∈ (fresh .default).play turns, response ∈ fed.responses) ∧ response.IsWellFormed := by
  intro turns response
  have hreturned : ∃ fed ∈ (fresh .default).play turns, response ∈ fed.responses := by
    decide +kernel
  obtain ⟨fed, hfed, hresponse⟩ := hreturned
  exact ⟨⟨fed, hfed, hresponse⟩, isWellFormed_of_mem_responses .default turns hfed hresponse⟩

end Decoder

end Rcon
