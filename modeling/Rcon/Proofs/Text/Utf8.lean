import Rcon.Text.Utf8

/-!
# Reading UTF-8 that was written

The reader gives back every text that the writer wrote (`text_encode`), whatever character it holds.
The machine is followed through one character: its lead byte says how many bytes are owed and
between which bounds the next one lies (`start_leadTwo`, `start_leadThree`, `start_leadFour`), and
each of these takes six bits more (`run_tail`, `run_lastTail`). So each of the four forms is read as
its code point (`run_oneByte` to `run_fourBytes`): the bounds of the second byte are met because the
character is no surrogate, is not past `U+10FFFF`, and would otherwise have had a shorter form.

One byte more behind a text is one character more (`text_encode_append_singleton`). A zero is
written for `U+0000` and for no other character (`zero_mem_encode_iff`).
-/

namespace Rcon

namespace Utf8

/-! ### The parts of a character -/

/-- The lead byte of two: five bits, and one byte owed. -/
theorem start_leadTwo {x : Nat} (hx : 2 ≤ x) (hx' : x < 32) :
    start (UInt8.ofNat (x + 0xC0)) = (.inside 1 0x80 0xBF x, []) := by
  have h : ∀ x < 32, 2 ≤ x → start (UInt8.ofNat (x + 0xC0)) = (.inside 1 0x80 0xBF x, []) := by
    decide
  exact h x hx' hx

/-- The lead byte of three: four bits, and two bytes owed. -/
theorem start_leadThree {x : Nat} (hx : x < 16) :
    start (UInt8.ofNat (x + 0xE0)) =
      (.inside 2 (if x = 0 then 0xA0 else 0x80) (if x = 13 then 0x9F else 0xBF) x, []) := by
  revert x
  decide

/-- The lead byte of four: three bits, of which five values occur, and three bytes owed. -/
theorem start_leadFour {x : Nat} (hx : x < 5) :
    start (UInt8.ofNat (x + 0xF0)) =
      (.inside 3 (if x = 0 then 0x90 else 0x80) (if x = 4 then 0x8F else 0xBF) x, []) := by
  revert x
  decide

theorem run_lead {b : UInt8} {s : State} (h : start b = (s, [])) (bs : Bytes) :
    run .ready [] (b :: bs) = run s [] bs := by
  rw [run_cons, step, h, List.nil_append]

/-- A byte within the bounds takes six bits more. -/
theorem step_tail {owed code x : Nat} {low high : UInt8} (hx : x < 64) (hlow : low.toNat ≤ x + 0x80)
    (hhigh : x + 0x80 ≤ high.toNat) :
    step (.inside owed low high code) (UInt8.ofNat (x + 0x80)) =
      if owed ≤ 1 then (.ready, [charOfCode (code * 64 + x)])
      else (.inside (owed - 1) 0x80 0xBF (code * 64 + x), []) := by
  have hbyte : (UInt8.ofNat (x + 0x80)).toNat = x + 0x80 := by
    rw [UInt8.toNat_ofNat']
    omega
  have hin : low ≤ UInt8.ofNat (x + 0x80) ∧ UInt8.ofNat (x + 0x80) ≤ high := by
    rw [UInt8.le_iff_toNat_le, UInt8.le_iff_toNat_le, hbyte]
    exact ⟨hlow, hhigh⟩
  rw [step, if_pos hin, hbyte, Nat.add_sub_cancel]

theorem run_tail {owed code x : Nat} {low high : UInt8} (hx : x < 64) (hlow : low.toNat ≤ x + 0x80)
    (hhigh : x + 0x80 ≤ high.toNat) (bs : Bytes) :
    run (.inside (owed + 2) low high code) [] (UInt8.ofNat (x + 0x80) :: bs) =
      run (.inside (owed + 1) 0x80 0xBF (code * 64 + x)) [] bs := by
  rw [run_cons, step_tail hx hlow hhigh, if_neg (by omega)]
  rfl

/-- The last byte of a character, which always has the whole range of six bits. -/
theorem run_lastTail {code x : Nat} (hx : x < 64) (bs : Bytes) :
    run (.inside 1 0x80 0xBF code) [] (UInt8.ofNat (x + 0x80) :: bs) =
      charOfCode (code * 64 + x) :: run .ready [] bs := by
  have hlow : (0x80 : UInt8).toNat ≤ x + 0x80 := Nat.le_add_left 128 x
  have hhigh : x + 0x80 ≤ (0xBF : UInt8).toNat := by
    show x + 128 ≤ 191
    omega
  rw [run_cons, step_tail hx hlow hhigh, if_pos (Nat.le_refl 1)]
  rfl

theorem charOfCode_toNat (c : Char) : charOfCode c.toNat = c := by
  have hvalid : c.toNat.isValidChar := c.valid
  rw [charOfCode, if_pos hvalid, Char.ofNat_toNat]

/-! ### The four forms of a character -/

/-- One byte stands for itself. -/
theorem run_oneByte {v : Nat} (hv : v < 128) (bs : Bytes) :
    run .ready [] (UInt8.ofNat v :: bs) = charOfCode v :: run .ready [] bs := by
  have hbyte : (UInt8.ofNat v).toNat = v := by
    rw [UInt8.toNat_ofNat']
    omega
  have hlt : UInt8.ofNat v < 0x80 := by
    rw [UInt8.lt_iff_toNat_lt, hbyte]
    exact hv
  rw [run_cons, step, start, if_pos hlt, hbyte]
  rfl

/-- Two bytes hold eleven bits. -/
theorem run_twoBytes {v : Nat} (hlong : 128 ≤ v) (hv : v < 2048) (bs : Bytes) :
    run .ready [] (UInt8.ofNat (v / 64 % 32 + 0xC0) :: UInt8.ofNat (v % 64 + 0x80) :: bs) =
      charOfCode v :: run .ready [] bs := by
  rw [run_lead (start_leadTwo (by omega) (by omega)), run_lastTail (by omega),
    show v / 64 % 32 * 64 + v % 64 = v by omega]

/-- Three bytes hold sixteen bits. A shorter form would do below the low bound of the second, and
above the high one lie the surrogates. -/
theorem run_threeBytes {v : Nat} (hlong : 2048 ≤ v) (hv : v < 65536)
    (hvalid : v < 0xD800 ∨ 0xDFFF < v) (bs : Bytes) :
    run .ready [] (UInt8.ofNat (v / 4096 % 16 + 0xE0) :: UInt8.ofNat (v / 64 % 64 + 0x80) ::
        UInt8.ofNat (v % 64 + 0x80) :: bs) =
      charOfCode v :: run .ready [] bs := by
  have hlow : (if v / 4096 % 16 = 0 then (0xA0 : UInt8) else 0x80).toNat ≤
      v / 64 % 64 + 0x80 := by
    split
    · show 160 ≤ _
      omega
    · exact Nat.le_add_left 128 _
  have hhigh : v / 64 % 64 + 0x80 ≤
      (if v / 4096 % 16 = 13 then (0x9F : UInt8) else 0xBF).toNat := by
    split
    · show _ ≤ 159
      omega
    · show _ ≤ 191
      omega
  rw [run_lead (start_leadThree (by omega)), run_tail (by omega) hlow hhigh,
    run_lastTail (by omega), show (v / 4096 % 16 * 64 + v / 64 % 64) * 64 + v % 64 = v by omega]

/-- Four bytes hold the rest, up to `U+10FFFF`. -/
theorem run_fourBytes {v : Nat} (hlong : 65536 ≤ v) (hv : v < 0x110000) (bs : Bytes) :
    run .ready [] (UInt8.ofNat (v / 262144 % 8 + 0xF0) :: UInt8.ofNat (v / 4096 % 64 + 0x80) ::
        UInt8.ofNat (v / 64 % 64 + 0x80) :: UInt8.ofNat (v % 64 + 0x80) :: bs) =
      charOfCode v :: run .ready [] bs := by
  have hlow : (if v / 262144 % 8 = 0 then (0x90 : UInt8) else 0x80).toNat ≤
      v / 4096 % 64 + 0x80 := by
    split
    · show 144 ≤ _
      omega
    · exact Nat.le_add_left 128 _
  have hhigh : v / 4096 % 64 + 0x80 ≤
      (if v / 262144 % 8 = 4 then (0x8F : UInt8) else 0xBF).toNat := by
    split
    · show _ ≤ 143
      omega
    · show _ ≤ 191
      omega
  have hcode : ((v / 262144 % 8 * 64 + v / 4096 % 64) * 64 + v / 64 % 64) * 64 + v % 64 = v := by
    omega
  rw [run_lead (start_leadFour (by omega)), run_tail (by omega) hlow hhigh,
    run_tail (by omega) (Nat.le_add_left 128 _) (by show _ ≤ 191; omega),
    run_lastTail (by omega), hcode]

/-! ### A character and a text -/

/-- **A character that was written is read**, whatever follows it. -/
theorem run_utf8EncodeChar_append (c : Char) (bs : Bytes) :
    run .ready [] (String.utf8EncodeChar c ++ bs) = c :: run .ready [] bs := by
  have hcode : charOfCode c.val.toNat = c := charOfCode_toNat c
  have hvalid : c.val.toNat < 0xD800 ∨ 0xDFFF < c.val.toNat ∧ c.val.toNat < 0x110000 := c.valid
  simp only [String.utf8EncodeChar]
  generalize c.val.toNat = v at hcode hvalid ⊢
  rw [← hcode]
  split
  · exact run_oneByte (by omega) bs
  · split
    · exact run_twoBytes (by omega) (by omega) bs
    · split
      · exact run_threeBytes (by omega) (by omega) (by omega) bs
      · exact run_fourBytes (by omega) (by omega) bs

/-- Characters that were written are read, whatever follows them. -/
theorem decode_encodeChars_append (cs : List Char) (bs : Bytes) :
    decode (encodeChars cs ++ bs) = cs ++ decode bs := by
  induction cs with
  | nil => rfl
  | cons c cs ih =>
    rw [encodeChars_cons, List.append_assoc, decode, run_utf8EncodeChar_append]
    exact congrArg (c :: ·) ih

theorem decode_encodeChars (cs : List Char) : decode (encodeChars cs) = cs := by
  simpa using decode_encodeChars_append cs []

/-- **The text that was written is read.** -/
@[simp] theorem text_encode (s : String) : text (encode s) = s := by
  rw [text, encode, decode_encodeChars, String.ofList_toList]

/-! ### A byte by itself -/

/-- What a byte is read as that nothing follows. -/
def charOfByte (b : UInt8) : Char :=
  if b < 0x80 then Char.ofNat b.toNat else '\uFFFD'

/-- A byte that nothing follows is one character: the code point that it is, or a replacement. -/
theorem decode_singleton (b : UInt8) : decode [b] = [charOfByte b] := by
  rw [decode, run_cons, run_nil, step, start, charOfByte]
  by_cases hlow : b < 0x80
  · have hvalid : b.toNat.isValidChar := .inl (Nat.lt_trans hlow (by decide))
    rw [if_pos hlow, if_pos hlow, charOfCode, if_pos hvalid]
    rfl
  · rw [if_neg hlow, if_neg hlow]
    repeat' split
    all_goals rfl

/-- **A byte behind a text that was written** is one character more. -/
theorem text_encode_append_singleton (s : String) (b : UInt8) :
    text (encode s ++ [b]) = s.push (charOfByte b) := by
  rw [text, encode, decode_encodeChars_append, decode_singleton, ← String.toList_inj,
    String.toList_ofList, String.toList_push]

/-! ### Zeros -/

theorem zero_eq_ofNat_iff {n : Nat} (hn : n < 256) : 0 = UInt8.ofNat n ↔ n = 0 := by
  rw [← UInt8.toNat_inj, UInt8.toNat_ofNat', Nat.mod_eq_of_lt hn]
  exact eq_comm

/-- A zero is written for `U+0000` only. -/
theorem zero_mem_utf8EncodeChar_iff (c : Char) : 0 ∈ String.utf8EncodeChar c ↔ c = '\x00' := by
  have hchar : c = '\x00' ↔ c.val.toNat = 0 := by
    rw [← Char.toNat_inj]
    rfl
  rw [hchar]
  simp only [String.utf8EncodeChar]
  generalize c.val.toNat = v
  split
  · rw [List.mem_singleton, zero_eq_ofNat_iff (by omega)]
  · -- Every byte of a longer form has its highest bit set.
    split
    · simp only [List.mem_cons, List.not_mem_nil, or_false]
      rw [zero_eq_ofNat_iff (by omega), zero_eq_ofNat_iff (by omega)]
      omega
    · split <;> simp only [List.mem_cons, List.not_mem_nil, or_false]
      · rw [zero_eq_ofNat_iff (by omega), zero_eq_ofNat_iff (by omega),
          zero_eq_ofNat_iff (by omega)]
        omega
      · rw [zero_eq_ofNat_iff (by omega), zero_eq_ofNat_iff (by omega),
          zero_eq_ofNat_iff (by omega), zero_eq_ofNat_iff (by omega)]
        omega

/-- **The bytes of a text hold a zero exactly where the text holds `U+0000`.** -/
theorem zero_mem_encode_iff (s : String) : 0 ∈ encode s ↔ '\x00' ∈ s.toList := by
  simp [encode, encodeChars, List.mem_flatMap, zero_mem_utf8EncodeChar_iff]

end Utf8

end Rcon
