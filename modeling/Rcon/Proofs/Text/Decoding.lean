import Rcon.Text.Units
import Rcon.Text.Utf8

/-!
# Reading bytes that nobody vouches for

The text of any bytes, be they UTF-8 or not. Two bounds hold whatever they are:

* **The text has no more UTF-16 units than there are bytes** (`length_ofString_text_le`). A
  character cut short is one unit and has taken at least one byte; only four bytes make a pair. The
  machine is followed with the unit that it owes for a character it has begun (`State.owedUnits`).
* **`U+0000` stands for a zero byte only** (`null_notMem_text`). A character that is begun has a
  bit of its code point set, or will have with the next byte, since overlong forms are ruled out
  (`State.IsPositive`).

Both go through the machine byte by byte, and what a byte does at the start of a character is said
once (`start_cases`).
-/

namespace Rcon

namespace Utf8

/-! ### The characters that are read -/

/-- A code point is read as itself, or as the replacement. -/
theorem charOfCode_cases (code : Nat) :
    (charOfCode code).toNat = code ∨ charOfCode code = replacement := by
  rw [charOfCode]
  split
  · next hvalid =>
    left
    rw [Char.ofNat, dif_pos hvalid]
    rfl
  · exact .inr rfl

theorem length_ofChar_charOfCode {code : Nat} (h : code < 0x10000) :
    (Units.ofChar (charOfCode code)).length = 1 := by
  rcases charOfCode_cases code with hself | hreplaced
  · rw [Units.length_ofChar, hself, if_pos h]
  · rw [hreplaced]
    rfl

theorem charOfCode_ne_null {code : Nat} (h : 0 < code) : charOfCode code ≠ '\x00' := by
  intro hnull
  rcases charOfCode_cases code with hself | hreplaced
  · rw [hnull] at hself
    exact Nat.ne_of_lt h hself
  · exact absurd (hreplaced.symm.trans hnull) (by decide)

/-- Is the code point of a character that is begun positive, whichever bytes complete it? -/
def State.IsPositive : State → Prop
  | .ready => True
  | .inside _ low _ code => 0 < code ∨ 0x80 < low

/-- **What a byte does at the start of a character**: it is read as one of a single unit, which is
`U+0000` for a zero only, or it begins one whose code point is positive. -/
theorem start_cases (b : UInt8) :
    (∃ c, start b = (.ready, [c]) ∧ (Units.ofChar c).length = 1 ∧ (b ≠ 0 → c ≠ '\x00')) ∨
      ∃ owed low high code, start b = (.inside owed low high code, []) ∧
        (State.inside owed low high code).IsPositive := by
  have hreplaced : (Units.ofChar replacement).length = 1 ∧ (b ≠ 0 → replacement ≠ '\x00') :=
    ⟨rfl, fun _ ↦ by decide⟩
  have hne : ∀ {c : UInt8}, ¬b = c → b.toNat ≠ c.toNat := fun h heq ↦ h (UInt8.toNat_inj.1 heq)
  have hnull : b ≠ 0 → 0 < b.toNat := fun h ↦ Nat.pos_of_ne_zero (hne h)
  have hlt : ∀ {c : UInt8}, ¬b < c → c.toNat ≤ b.toNat := fun h ↦
    UInt8.le_iff_toNat_le.1 (UInt8.not_lt.1 h)
  -- Of the lead bytes only the first of three and the first of four have no bit of the code point
  -- set, and behind them the next byte has one.
  fun_cases start b with
  | case1 hone =>
    have hle : b.toNat < 0x80 := UInt8.lt_iff_toNat_lt.1 hone
    exact .inl ⟨_, rfl, length_ofChar_charOfCode (by omega), fun h ↦ charOfCode_ne_null (hnull h)⟩
  | case2 => exact .inl ⟨_, rfl, hreplaced⟩
  | case3 _ htwo =>
    have hle : 0xC2 ≤ b.toNat := hlt htwo
    exact .inr ⟨_, _, _, _, rfl, .inl (by omega)⟩
  | case4 => exact .inr ⟨_, _, _, _, rfl, .inr (by decide)⟩
  | case5 => exact .inr ⟨_, _, _, _, rfl, .inl (by decide)⟩
  | case6 _ _ hthree hfirst =>
    have hle : 0xE0 ≤ b.toNat := hlt hthree
    have hfirst : b.toNat ≠ 0xE0 := hne hfirst
    exact .inr ⟨_, _, _, _, rfl, .inl (by omega)⟩
  | case7 => exact .inr ⟨_, _, _, _, rfl, .inr (by decide)⟩
  | case8 _ _ _ _ _ hthree hfirst =>
    have hle : 0xF0 ≤ b.toNat := hlt hthree
    have hfirst : b.toNat ≠ 0xF0 := hne hfirst
    exact .inr ⟨_, _, _, _, rfl, .inl (by omega)⟩
  | case9 => exact .inr ⟨_, _, _, _, rfl, .inl (by decide)⟩
  | case10 => exact .inl ⟨_, rfl, hreplaced⟩

/-! ### How many units there are -/

/-- The units that are owed for a character that is begun. -/
def State.owedUnits : State → Nat
  | .ready => 0
  | .inside .. => 1

theorem length_ofChars_start (b : UInt8) :
    (Units.ofChars (start b).2).length + (start b).1.owedUnits = 1 := by
  rcases start_cases b with ⟨c, hstart, hlength, -⟩ | ⟨_, _, _, _, hstart, -⟩
  · rw [hstart, Units.ofChars, List.flatMap_singleton, hlength]
    rfl
  · rw [hstart]
    rfl

/-- **A byte adds one unit at most** to those there are and the one that is owed. -/
theorem length_ofChars_step_le (s : State) (b : UInt8) :
    (Units.ofChars (step s b).2).length + (step s b).1.owedUnits ≤ s.owedUnits + 1 := by
  have hstart := length_ofChars_start b
  cases s with
  | ready => exact Nat.le_of_eq (hstart.trans (Nat.zero_add 1).symm)
  | inside owed low high code =>
    rw [step]
    dsimp only
    split
    · split
      · -- The last byte of a character makes two units of the one owed and its own.
        rw [Units.ofChars, List.flatMap_singleton, Units.length_ofChar]
        split
        · exact Nat.le_succ 1
        · exact Nat.le_refl 2
      · exact Nat.le_succ 1
    · rw [Units.ofChars, List.flatMap_cons, List.length_append, ← Units.ofChars, Nat.add_assoc,
        hstart]
      exact Nat.le_refl 2

/-- Reading on makes no more units than are owed and bytes are left. -/
theorem length_ofChars_run_le (s : State) (bs : Bytes) :
    (Units.ofChars (run s [] bs)).length ≤ s.owedUnits + bs.length := by
  induction bs generalizing s with
  | nil =>
    cases s with
    | ready => exact Nat.le_refl 0
    | inside owed low high code => exact Nat.le_refl 1
  | cons b bs ih =>
    have hstep := length_ofChars_step_le s b
    have hrest := ih (step s b).1
    rw [run_cons, Units.ofChars_append, List.length_append, List.length_cons]
    omega

/-- **The text of bytes has no more units than there are bytes.** -/
theorem length_ofString_text_le (bs : Bytes) : (Units.ofString (text bs)).length ≤ bs.length := by
  have hrun := length_ofChars_run_le .ready bs
  rw [State.owedUnits, Nat.zero_add] at hrun
  rwa [Units.ofString, toList_text]

/-! ### Zeros -/

/-- A byte other than zero makes no `U+0000`, and begins no character that could become one. -/
theorem null_notMem_start {b : UInt8} (hb : b ≠ 0) :
    '\x00' ∉ (start b).2 ∧ (start b).1.IsPositive := by
  rcases start_cases b with ⟨c, hstart, -, hne⟩ | ⟨_, _, _, _, hstart, hpositive⟩
  · rw [hstart, List.mem_singleton]
    exact ⟨(hne hb).symm, trivial⟩
  · rw [hstart]
    exact ⟨List.not_mem_nil, hpositive⟩

/-- A byte other than zero makes no `U+0000` in any state, and leaves a character that could not
become one. -/
theorem null_notMem_step {s : State} (hs : s.IsPositive) {b : UInt8} (hb : b ≠ 0) :
    '\x00' ∉ (step s b).2 ∧ (step s b).1.IsPositive := by
  obtain ⟨hnull, hpositive⟩ := null_notMem_start hb
  cases s with
  | ready => exact ⟨hnull, hpositive⟩
  | inside owed low high code =>
    rw [step]
    split
    · next hbounds =>
      have hlow := UInt8.le_iff_toNat_le.1 hbounds.1
      have hcode : 0 < code * 64 + (b.toNat - 0x80) := by
        rcases hs with hcode | hoverlong
        · omega
        · have hoverlong' : 0x80 < low.toNat := hoverlong
          omega
      dsimp only
      split
      · rw [List.mem_singleton]
        exact ⟨(charOfCode_ne_null hcode).symm, trivial⟩
      · exact ⟨List.not_mem_nil, .inl hcode⟩
    · refine ⟨fun hmem ↦ ?_, hpositive⟩
      rcases List.mem_cons.1 hmem with hreplaced | hmem
      · exact absurd hreplaced (by decide)
      · exact hnull hmem

/-- Bytes without a zero are read as characters other than `U+0000`. -/
theorem null_notMem_run {s : State} (hs : s.IsPositive) {bs : Bytes} (hbs : 0 ∉ bs) :
    '\x00' ∉ run s [] bs := by
  induction bs generalizing s with
  | nil =>
    rw [run_nil]
    cases s with
    | ready => exact List.not_mem_nil
    | inside owed low high code =>
      show '\x00' ∉ [replacement]
      decide
  | cons b bs ih =>
    rw [List.mem_cons, not_or] at hbs
    obtain ⟨hnull, hpositive⟩ := null_notMem_step hs (Ne.symm hbs.1)
    rw [run_cons, List.mem_append, not_or]
    exact ⟨hnull, ih hpositive hbs.2⟩

/-- **The text of bytes without a zero is one without `U+0000`.** -/
theorem null_notMem_text {bs : Bytes} (hbs : 0 ∉ bs) : '\x00' ∉ (text bs).toList := by
  rw [toList_text]
  exact null_notMem_run (s := .ready) trivial hbs

/-- A pair is made of four bytes, and a replacement of each part that cannot be continued. -/
example : (Units.ofString (text [0xF0, 0x9F, 0x98, 0x80, 0xF0, 0x9F, 0xC0])).length = 4 := by
  decide +kernel

end Utf8

end Rcon
