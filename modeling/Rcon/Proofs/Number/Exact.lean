import Rcon.Number.Numeral
import Rcon.Number.Shortest

/-!
# Whole numbers are exact

Below the bound from which binary64 numbers are more than one apart, whole numbers survive: rounding
leaves them as they are (`Number.round_intCast`), their digits spell them whatever zeros stand in
front (`Number.ofNumeral_digits_of_lt`), and so they are read back from their own text
(`Number.ofNumeral_chars_ofInt`).

Digits may be as many as they will. **Behind a minus sign they spell no number above zero**
(`Number.isNonpos_ofNumeral_minus`), be it zero, an infinity or a number in between.
-/

namespace Rcon.Number

/-! ### Rounding -/

theorem nearest_intCast (n : Int) : nearest n = n := by
  rw [nearest, Rat.floor_intCast, Rat.sub_self]
  exact if_pos (by decide +kernel)

/-- What is not below zero is not nearest to a whole number below it. -/
theorem nearest_nonneg {q : Rat} (h : 0 ≤ q) : 0 ≤ nearest q := by
  have hfloor : 0 ≤ q.floor := Rat.le_floor_iff.2 h
  simp only [nearest]
  split
  · exact hfloor
  · split
    · omega
    · split <;> omega

/-- The leading power of a natural number is that of its binary digits. -/
theorem binaryExponent_natCast {n : Nat} (h : n ≠ 0) : binaryExponent n = n.log2 := by
  have hpower : (2 : Rat) ^ (n.log2 : Int) ≤ n := by
    rw [Rat.zpow_natCast]
    exact_mod_cast Nat.log2_self_le h
  have hone : Nat.log2 1 = 0 := by decide
  rw [binaryExponent]
  simp only [Rat.num_natCast, Rat.den_natCast, Int.natAbs_natCast, hone, Int.natCast_zero,
    Int.sub_zero, if_pos hpower]

/-- **Around a natural number below the bound the numbers are a unit fraction apart.** -/
theorem exists_spacing_natCast {n : Nat} (h : n ≠ 0) (hbound : (n : Int) < exactBound) :
    ∃ m : Nat, m ≠ 0 ∧ spacing n = (m : Rat)⁻¹ := by
  have hlog : n.log2 < 53 := by
    rw [Nat.log2_lt h]
    simp only [exactBound] at hbound
    omega
  refine ⟨2 ^ (52 - n.log2), Nat.pos_iff_ne_zero.1 (Nat.two_pow_pos _), ?_⟩
  rw [spacing, binaryExponent_natCast h,
    show max ((n.log2 : Int) - 52) (-1074) = -((52 - n.log2 : Nat) : Int) by omega, Rat.zpow_neg,
    Rat.zpow_natCast, Rat.natCast_pow]
  rfl

theorem abs_intCast (n : Int) : (n : Rat).abs = n.natAbs := by
  rcases Int.natAbs_eq n with h | h
  · rw [Rat.abs_of_nonneg (Rat.intCast_nonneg.2 (by omega)), ← Rat.intCast_natCast, ← h]
  · rw [Rat.abs_of_nonpos (Rat.intCast_nonpos.2 (by omega)), ← Rat.intCast_neg,
      ← Rat.intCast_natCast, Rat.intCast_inj]
    omega

/-- **A whole number below the bound is rounded to itself.** -/
theorem round_intCast {n : Int} (hbound : (n.natAbs : Int) < exactBound) : round n = ofInt n := by
  by_cases hzero : n = 0
  · subst hzero
    rfl
  have hsize : n.natAbs ≠ 0 := Int.natAbs_ne_zero.2 hzero
  obtain ⟨m, hm, hspacing⟩ := exists_spacing_natCast hsize hbound
  have hm' : (m : Rat) ≠ 0 := by exact_mod_cast hm
  -- The size is a multiple of the spacing, so going to the grid and back changes nothing.
  have hsteps : (n.natAbs : Rat) / (m : Rat)⁻¹ = ((n.natAbs * m : Nat) : Int) := by
    rw [Rat.div_def, Rat.inv_inv, Rat.intCast_natCast, Rat.natCast_mul]
  have hback : (((n.natAbs * m : Nat) : Int) : Rat) * (m : Rat)⁻¹ = n.natAbs := by
    rw [Rat.intCast_natCast, Rat.natCast_mul, Rat.mul_assoc, Rat.mul_inv_cancel _ hm',
      Rat.mul_one]
  have hsmall : ¬(2 : Rat) ^ (1024 : Int) ≤ n.natAbs := by
    have hlarge : (exactBound : Rat) ≤ (2 : Rat) ^ (1024 : Int) := by decide +kernel
    intro hle
    have hle' := Rat.intCast_le_intCast.1 (Rat.le_trans hlarge hle)
    exact absurd hbound (Int.not_lt.2 hle')
  have hzero' : (n : Rat) ≠ 0 := mt Rat.intCast_eq_zero_iff.1 hzero
  have hsign : (if n < 0 then -(n.natAbs : Rat) else n.natAbs) = n := by
    split
    · rw [← Rat.intCast_natCast, ← Rat.intCast_neg, Rat.intCast_inj]
      omega
    · rw [← Rat.intCast_natCast, Rat.intCast_inj]
      omega
  simp only [round, if_neg hzero', abs_intCast, hspacing, hsteps, nearest_intCast, hback,
    if_neg hsmall, Rat.intCast_neg_iff, hsign]
  rfl

/-! ### Numbers that are not above zero -/

/-- Is a number zero or below it? -/
def IsNonpos : Number → Prop
  | .nan => False
  | .infinite negative => negative = true
  | .finite q => q ≤ 0

/-- Rounding takes nothing above zero that is not above it. -/
theorem isNonpos_round {q : Rat} (h : q ≤ 0) : (round q).IsNonpos := by
  by_cases hzero : q = 0
  · rw [round, if_pos hzero]
    exact Rat.le_refl
  have hneg : q < 0 := Rat.lt_of_le_of_ne h hzero
  have hspacing : 0 < spacing q.abs := Rat.zpow_pos (by decide +kernel)
  have hsteps : 0 ≤ q.abs / spacing q.abs := by
    rw [Rat.div_def]
    exact Rat.mul_nonneg Rat.abs_nonneg (Rat.le_of_lt (Rat.inv_pos.2 hspacing))
  have hgrid : (0 : Rat) ≤ nearest (q.abs / spacing q.abs) :=
    Rat.intCast_nonneg.2 (nearest_nonneg hsteps)
  have hrounded := Rat.mul_nonneg hgrid (Rat.le_of_lt hspacing)
  simp only [round, if_neg hzero, if_pos hneg]
  split
  · exact decide_eq_true hneg
  · exact Rat.neg_le_iff.2 (by rwa [Rat.neg_zero])

/-- A decimal with a minus sign spells no number above zero. -/
theorem isNonpos_ofScientific (mantissa : Nat) (exponent : Int) :
    (ofScientific true mantissa exponent).IsNonpos := by
  simp only [ofScientific]
  split
  · exact Rat.le_refl
  · split
    · rfl
    · split
      · exact Rat.le_refl
      · refine isNonpos_round ?_
        have hpower : (0 : Rat) ≤ (10 : Rat) ^ exponent := Rat.zpow_nonneg (by decide +kernel)
        have hsize : (0 : Rat) ≤ mantissa * (10 : Rat) ^ exponent :=
          Rat.mul_nonneg Rat.natCast_nonneg hpower
        rw [if_pos trivial, Rat.neg_mul, Rat.one_mul, Rat.neg_mul]
        exact Rat.neg_le_iff.2 (by rwa [Rat.neg_zero])

/-- A whole number below the bound is the decimal of itself. -/
theorem ofScientific_natCast {n : Nat} (hbound : (n : Int) < exactBound) (negative : Bool) :
    ofScientific negative n 0 = ofInt (if negative then -n else n) := by
  by_cases hzero : n = 0
  · subst hzero
    cases negative <;> rfl
  have hdigits : (Nat.toDigits 10 n).length ≤ 16 := by
    rw [Nat.length_toDigits_le_iff (by decide) (by decide)]
    simp only [exactBound] at hbound
    omega
  have hvalue : (if negative then -1 else 1) * (n : Rat) * (10 : Rat) ^ (0 : Int) =
      ((if negative then -n else n : Int) : Rat) := by
    rw [Rat.zpow_zero, Rat.mul_one]
    cases negative with
    | true =>
      rw [if_pos rfl, if_pos rfl, Rat.neg_mul, Rat.one_mul, Rat.intCast_neg, Rat.intCast_natCast]
    | false =>
      rw [if_neg Bool.false_ne_true, if_neg Bool.false_ne_true, Rat.one_mul, Rat.intCast_natCast]
  simp only [ofScientific, if_neg hzero]
  rw [if_neg (by omega), if_neg (by omega), hvalue, round_intCast]
  split
  · rwa [Int.natAbs_neg]
  · exact hbound

/-! ### Digits -/

section Digits

variable {digits : List Char} (hdigits : ∀ c ∈ digits, c.isDigit = true)

include hdigits

/-- Digits are a decimal without a point and an exponent. -/
theorem decimal?_digits (h : digits ≠ []) :
    decimal? digits = some (Nat.ofDigitChars 10 digits 0, 0) := by
  have htake : (digits ++ []).takeWhile Char.isDigit = digits ++ [] :=
    List.takeWhile_append_of_pos hdigits
  have hdrop : (digits ++ []).dropWhile Char.isDigit = [] := List.dropWhile_append_of_pos hdigits
  rw [List.append_nil] at htake hdrop
  simp only [decimal?, htake, hdrop, fraction, List.append_nil, if_neg h, exponent?]
  rfl

theorem magnitude_digits (h : digits ≠ []) (negative : Bool) :
    magnitude negative digits = ofScientific negative (Nat.ofDigitChars 10 digits 0) 0 := by
  have hword : digits ≠ "Infinity".toList := by
    rintro rfl
    exact absurd (hdigits 'I' List.mem_cons_self) (by decide)
  rw [magnitude, if_neg hword, decimal?_digits hdigits h]

/-- **Digits spell the number that they are the decimal of.** -/
theorem ofNumeral_digits (h : digits ≠ []) :
    ofNumeral digits = ofScientific false (Nat.ofDigitChars 10 digits 0) 0 := by
  rw [← magnitude_digits hdigits h]
  -- Every other numeral has a character that is no digit among its first two.
  unfold ofNumeral
  split
  case h_9 => rfl
  all_goals simp [Char.isDigit] at hdigits

/-- Digits behind a minus sign spell the decimal with that sign. -/
theorem ofNumeral_minus (h : digits ≠ []) :
    ofNumeral ('-' :: digits) = ofScientific true (Nat.ofDigitChars 10 digits 0) 0 := by
  rw [← magnitude_digits hdigits h]
  rfl

theorem isNonpos_ofNumeral_minus (h : digits ≠ []) : (ofNumeral ('-' :: digits)).IsNonpos := by
  rw [ofNumeral_minus hdigits h]
  exact isNonpos_ofScientific _ 0

/-- **Digits that make a number below the bound spell that number.** -/
theorem ofNumeral_digits_of_lt (h : digits ≠ [])
    (hbound : (Nat.ofDigitChars 10 digits 0 : Int) < exactBound) :
    ofNumeral digits = ofNat (Nat.ofDigitChars 10 digits 0) := by
  rw [ofNumeral_digits hdigits h, ofScientific_natCast hbound]
  rfl

end Digits

/-! ### The text of a whole number -/

theorem isDigit_toDigits (n : Nat) : ∀ c ∈ Nat.toDigits 10 n, c.isDigit = true :=
  fun _ hc ↦ Nat.isDigit_of_mem_toDigits (by decide) (by decide) hc

theorem isDigit_zeros_append_toDigits (zeros n : Nat) :
    ∀ c ∈ List.replicate zeros '0' ++ Nat.toDigits 10 n, c.isDigit = true := by
  intro c hc
  rcases List.mem_append.1 hc with hzero | hdigit
  · rw [List.eq_of_mem_replicate hzero]
    rfl
  · exact isDigit_toDigits n c hdigit

/-- **A natural number below the bound is read from its digits**, whatever zeros stand in front. -/
theorem ofNumeral_zeros_append_toDigits {n : Nat} (hbound : (n : Int) < exactBound) (zeros : Nat) :
    ofNumeral (List.replicate zeros '0' ++ Nat.toDigits 10 n) = ofNat n := by
  have hvalue : Nat.ofDigitChars 10 (List.replicate zeros '0' ++ Nat.toDigits 10 n) 0 = n := by
    rw [Nat.ofDigitChars_append, Nat.ofDigitChars_replicate_zero, Nat.mul_zero,
      Nat.ofDigitChars_ten_toDigits]
  have hne : List.replicate zeros '0' ++ Nat.toDigits 10 n ≠ [] :=
    List.append_ne_nil_of_right_ne_nil _ Nat.toDigits_ne_nil
  rw [ofNumeral_digits_of_lt (isDigit_zeros_append_toDigits zeros n) hne (by rwa [hvalue]), hvalue]

theorem positiveChars_intCast {n : Int} (hbound : n < exactBound) :
    positiveChars n = Nat.toDigits 10 n.toNat := by
  rw [positiveChars]
  exact if_pos ⟨Rat.den_intCast n, hbound⟩

/-- A whole number below the bound is written by its digits, behind a minus sign if it is
negative. -/
theorem chars_ofInt {n : Int} (hbound : (n.natAbs : Int) < exactBound) :
    (ofInt n).chars =
      if n < 0 then '-' :: Nat.toDigits 10 n.natAbs else Nat.toDigits 10 n.natAbs := by
  show (if (n : Rat) = 0 then ['0'] else if (n : Rat) < 0 then '-' :: positiveChars (-n)
    else positiveChars n) = _
  by_cases hzero : n = 0
  · subst hzero
    decide
  rw [if_neg (mt Rat.intCast_eq_zero_iff.1 hzero)]
  by_cases hneg : n < 0
  · rw [if_pos (Rat.intCast_neg_iff.2 hneg), if_pos hneg, ← Rat.intCast_neg,
      positiveChars_intCast (by omega), show (-n).toNat = n.natAbs by omega]
  · rw [if_neg (mt Rat.intCast_neg_iff.1 hneg), if_neg hneg, positiveChars_intCast (by omega),
      show n.toNat = n.natAbs by omega]

/-- **A whole number below the bound is read back from its text.** -/
theorem ofNumeral_chars_ofInt {n : Int} (hbound : (n.natAbs : Int) < exactBound) :
    ofNumeral (ofInt n).chars = ofInt n := by
  rw [chars_ofInt hbound]
  split
  · next hneg =>
    rw [ofNumeral_minus (isDigit_toDigits _) Nat.toDigits_ne_nil, Nat.ofDigitChars_ten_toDigits,
      ofScientific_natCast hbound, if_pos rfl, show -(n.natAbs : Int) = n by omega]
  · next hneg =>
    rw [ofNumeral_digits_of_lt (isDigit_toDigits _) Nat.toDigits_ne_nil
        (by rwa [Nat.ofDigitChars_ten_toDigits]),
      Nat.ofDigitChars_ten_toDigits, ofNat, show (n.natAbs : Int) = n by omega]

end Rcon.Number
