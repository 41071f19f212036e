import Rcon.Bytes

/-!
# Reading what was written

`Bytes.ofInt32` writes and `Bytes.int32?` reads: a signed 32-bit number comes back
(`int32?_ofInt32_append`), and every four bytes are those of the number that is read from them
(`ofInt32_toInt32`). So bytes that begin with a number can be taken apart into the number and what
follows it (`exists_ofInt32_append`), and nothing is left to say about single bytes of it.

Reads behind some bytes in front are reads at the start of the others (`int32?_append_right`,
`byte?_append_right`, `slice?_append_right`).
-/

namespace Rcon

namespace Bytes

/-! ### Numbers -/

/-- The four bytes of a word add up to it. -/
theorem sum_bytes (word : Nat) :
    word % 256 + 256 * (word / 256 % 256) + 65536 * (word / 65536 % 256) +
      16777216 * (word / 16777216) = word := by
  omega

/-- A signed 32-bit number is the signed reading of its word. -/
theorem bmod_word {n : Int} (hn : isInt32 n = true) :
    ((n % wordCount).toNat : Int).bmod wordCount = n := by
  simp only [isInt32, Bool.and_eq_true, decide_eq_true_eq] at hn
  simp only [int32Least, int32Greatest] at hn
  rw [Int.toNat_of_nonneg (Int.emod_nonneg n (by decide)), Int.emod_bmod]
  apply Int.bmod_eq_of_le <;>
    · simp only [wordCount]
      omega

/-- **A signed 32-bit number is read back as it was written.** -/
theorem int32?_ofInt32_append {n : Int} (hn : isInt32 n = true) (rest : Bytes) :
    int32? (ofInt32 n ++ rest) 0 = some n := by
  have hword : (n % wordCount).toNat < 4294967296 := by
    simp only [wordCount]
    omega
  show some (toInt32 _ _ _ _) = some n
  simp only [toInt32, UInt8.toNat_ofNat']
  rw [Nat.mod_eq_of_lt (by omega : (n % wordCount).toNat % 256 < 2 ^ 8),
    Nat.mod_eq_of_lt (by omega : (n % wordCount).toNat / 256 % 256 < 2 ^ 8),
    Nat.mod_eq_of_lt (by omega : (n % wordCount).toNat / 65536 % 256 < 2 ^ 8),
    Nat.mod_eq_of_lt (by omega : (n % wordCount).toNat / 16777216 < 2 ^ 8), sum_bytes, bmod_word hn]

/-- **Four bytes are those of the number read from them.** -/
theorem ofInt32_toInt32 (a b c d : UInt8) : ofInt32 (toInt32 a b c d) = [a, b, c, d] := by
  have ha := a.toNat_lt
  have hb := b.toNat_lt
  have hc := c.toNat_lt
  have hd := d.toNat_lt
  have hword : (toInt32 a b c d % wordCount).toNat =
      a.toNat + 256 * b.toNat + 65536 * c.toNat + 16777216 * d.toNat := by
    simp only [toInt32, wordCount, Int.bmod_def]
    omega
  simp only [ofInt32, hword, List.cons.injEq, and_true]
  refine ⟨?_, ?_, ?_, ?_⟩ <;>
    · apply UInt8.toNat_inj.1
      rw [UInt8.toNat_ofNat']
      omega

/-- Bytes that begin with a number are the number and what follows it. -/
theorem exists_ofInt32_append {bytes : Bytes} (h : 4 ≤ bytes.length) :
    ∃ n rest, isInt32 n = true ∧ bytes = ofInt32 n ++ rest := by
  match bytes, h with
  | a :: b :: c :: d :: rest, _ =>
    exact ⟨toInt32 a b c d, rest, isInt32_toInt32 a b c d, by rw [ofInt32_toInt32]; rfl⟩

/-! ### Reading behind other bytes -/

theorem int32?_append_right (front back : Bytes) {i : Nat} (k : Nat) (h : front.length = i) :
    int32? (front ++ back) (i + k) = int32? back k := by
  subst h
  simp only [int32?, List.drop_length_add_append]

theorem byte?_append_right (front back : Bytes) {i : Nat} (k : Nat) (h : front.length = i) :
    byte? (front ++ back) (i + k) = back[k]? := by
  subst h
  simp [byte?, List.getElem?_append_right]

theorem slice?_append_right {front back : Bytes} {i k : Nat} (h : front.length = i)
    (hk : k ≤ back.length) : slice? (front ++ back) i (i + k) = some (back.take k) := by
  subst h
  rw [slice?_eq_some (by omega) (by rw [List.length_append]; omega), List.take_length_add_append,
    List.drop_left]

end Bytes

end Rcon
