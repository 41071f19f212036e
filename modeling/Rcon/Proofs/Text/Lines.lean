import Rcon.Number.Shortest
import Rcon.Text.Units

/-!
# Texts within one line

A text **is a line** if there is no line break in it (`Units.IsLine`), and it is **printable** if
there is no control character in it at all, that is, nothing below `U+0020` (`Units.IsPrintable`).
Putting texts together keeps either. Of a character only the line break itself has the unit of a
line break, since the halves of a surrogate pair are far above it; and the text of a number is
printable, whatever number it is (`Number.isPrintable_chars`).
-/

namespace Rcon

namespace Units

/-- Is there no line break in a text? -/
def IsLine (units : Units) : Prop :=
  0x0A ∉ units

/-- Is there no control character in a text? -/
def IsPrintable (units : Units) : Prop :=
  ∀ u ∈ units, 0x20 ≤ u

/-- Is there no control character among these? -/
def ArePrintable (cs : List Char) : Prop :=
  ∀ c ∈ cs, 0x20 ≤ c.toNat

instance (units : Units) : Decidable (IsLine units) :=
  inferInstanceAs (Decidable (0x0A ∉ units))

instance (units : Units) : Decidable (IsPrintable units) :=
  List.decidableBAll (fun u ↦ 0x20 ≤ u) units

instance (cs : List Char) : Decidable (ArePrintable cs) :=
  List.decidableBAll (fun c : Char ↦ 0x20 ≤ c.toNat) cs

variable {units more : Units} {u : UInt16}

/-- A line break is a control character. -/
theorem IsPrintable.isLine (h : IsPrintable units) : IsLine units :=
  fun hmem ↦ absurd (h _ hmem) (by decide)

/-! ### Putting texts together -/

@[simp] theorem isLine_nil : IsLine [] := List.not_mem_nil

@[simp] theorem isLine_cons_iff : IsLine (u :: units) ↔ u ≠ 0x0A ∧ IsLine units := by
  rw [IsLine, List.mem_cons, not_or, ne_comm]
  rfl

@[simp] theorem isLine_append_iff : IsLine (units ++ more) ↔ IsLine units ∧ IsLine more := by
  rw [IsLine, List.mem_append, not_or]
  rfl

@[simp] theorem isPrintable_nil : IsPrintable [] := fun _ h ↦ absurd h List.not_mem_nil

@[simp] theorem isPrintable_cons_iff :
    IsPrintable (u :: units) ↔ 0x20 ≤ u ∧ IsPrintable units := List.forall_mem_cons

@[simp] theorem isPrintable_append_iff :
    IsPrintable (units ++ more) ↔ IsPrintable units ∧ IsPrintable more := List.forall_mem_append

@[simp] theorem isPrintable_reverse_iff : IsPrintable units.reverse ↔ IsPrintable units := by
  simp only [IsPrintable, List.mem_reverse]

/-- Texts are joined to a printable text if they are printable and the separator is. -/
theorem isPrintable_joined {separator : UInt16} (hseparator : 0x20 ≤ separator)
    {parts : List Units} (h : ∀ part ∈ parts, IsPrintable part) :
    IsPrintable (joined separator parts) := by
  fun_induction joined separator parts with
  | case1 => exact isPrintable_nil
  | case2 part => exact h part (List.mem_singleton_self part)
  | case3 part next rest ih =>
    obtain ⟨hpart, hrest⟩ := List.forall_mem_cons.1 h
    exact isPrintable_append_iff.2 ⟨hpart, isPrintable_cons_iff.2 ⟨hseparator, ih hrest⟩⟩

/-! ### Characters -/

/-- A unit of a character is the character itself, or half of a pair. -/
theorem mem_ofChar {c : Char} (h : u ∈ ofChar c) : u.toNat = c.toNat ∨ 0xD800 ≤ u.toNat := by
  have hvalid : c.toNat < 0xD800 ∨ 0xDFFF < c.toNat ∧ c.toNat < 0x110000 := c.valid
  unfold ofChar at h
  split at h
  · next hsmall =>
    obtain rfl := List.mem_singleton.1 h
    left
    rw [UInt16.toNat_ofNat']
    omega
  · next hlarge =>
    right
    simp only [List.mem_cons, List.not_mem_nil, or_false] at h
    obtain rfl | rfl := h
    · rw [UInt16.toNat_ofNat']
      omega
    · rw [UInt16.toNat_ofNat']
      omega

/-- **Only a line break is written as a line break.** -/
theorem isLine_ofChars {cs : List Char} (h : '\n' ∉ cs) : IsLine (ofChars cs) := by
  intro hmem
  obtain ⟨c, hc, hu⟩ := List.mem_flatMap.1 hmem
  obtain hcode | hcode := mem_ofChar hu
  · have hnewline : c = '\n' := Char.toNat_inj.1 hcode.symm
    exact h (hnewline ▸ hc)
  · exact absurd hcode (by decide)

/-- Characters that are no control characters are printable. -/
theorem isPrintable_ofChars {cs : List Char} (h : ArePrintable cs) :
    IsPrintable (ofChars cs) := by
  intro u hmem
  obtain ⟨c, hc, hu⟩ := List.mem_flatMap.1 hmem
  rw [UInt16.le_iff_toNat_le]
  show 0x20 ≤ u.toNat
  have hle := h c hc
  obtain hcode | hcode := mem_ofChar hu
  · omega
  · omega

end Units

/-! ### Numbers -/

namespace Number

open Rcon.Units (ArePrintable)

theorem arePrintable_toDigits (n : Nat) : ArePrintable (Nat.toDigits 10 n) := by
  intro c hc
  have hdigit := Nat.isDigit_of_mem_toDigits (by decide) (by decide) hc
  simp only [Char.isDigit, Bool.and_eq_true, decide_eq_true_eq] at hdigit
  exact Nat.le_trans (by decide) (show 48 ≤ c.toNat from hdigit.1)

theorem arePrintable_significant (digits : Nat) : ArePrintable (significant digits) := by
  intro c hc
  refine arePrintable_toDigits digits c (List.mem_reverse.1 ?_)
  exact (List.dropWhile_sublist _).mem (List.mem_reverse.1 hc)

theorem arePrintable_replicate_zero (n : Nat) : ArePrintable (List.replicate n '0') := by
  intro c hc
  rw [List.eq_of_mem_replicate hc]
  decide

/-- Digits that are put in place stay free of control characters. -/
theorem arePrintable_place (l : Layout) {digits : List Char} (h : ArePrintable digits)
    (point : Int) : ArePrintable (place l digits point) := by
  have htake (k : Nat) : ArePrintable (digits.take k) :=
    fun c hc ↦ h c (List.mem_of_mem_take hc)
  have hpoint (k : Nat) : ArePrintable ('.' :: digits.drop k) :=
    List.forall_mem_cons.2 ⟨by decide, fun c hc ↦ h c (List.mem_of_mem_drop hc)⟩
  unfold place
  split
  · exact List.forall_mem_append.2 ⟨h, arePrintable_replicate_zero _⟩
  · split
    · exact List.forall_mem_append.2 ⟨htake _, hpoint _⟩
    · split
      · refine List.forall_mem_cons.2 ⟨by decide, List.forall_mem_cons.2 ⟨by decide, ?_⟩⟩
        exact List.forall_mem_append.2 ⟨arePrintable_replicate_zero _, h⟩
      · -- The first digit, the others behind a point, and the exponent with its sign.
        refine List.forall_mem_append.2 ⟨List.forall_mem_append.2 ⟨htake 1, ?_⟩, ?_⟩
        · split
          · exact fun c hc ↦ absurd hc List.not_mem_nil
          · exact hpoint 1
        · refine List.forall_mem_cons.2 ⟨by decide, List.forall_mem_cons.2 ⟨?_, ?_⟩⟩
          · split <;> decide
          · exact arePrintable_toDigits _

/-- **The text of a number is printable.** -/
theorem isPrintable_chars (n : Number) : Units.IsPrintable (Units.ofChars n.chars) := by
  refine Units.isPrintable_ofChars ?_
  have hpositive (q : Rat) : ArePrintable (positiveChars q) := by
    unfold positiveChars
    split
    · exact arePrintable_toDigits _
    · exact arePrintable_place layout (arePrintable_significant _) _
  unfold chars
  split
  · decide
  · decide
  · decide
  · split
    · decide
    · split
      · exact List.forall_mem_cons.2 ⟨by decide, hpositive _⟩
      · exact hpositive _

end Number

end Rcon
