import Rcon.Proofs.Text.Lines
import Rcon.Value.Display
import Rcon.Value.Json

/-!
# Values within one line

The JSON text of a value is printable, **whatever texts are in it and however deep**
(`Value.isPrintable_json`): control characters are escaped, and what an escape is written with is no
control character.

In plain text a value is shown as it is, and so a text with a line break is no line
(`Value.IsInline`). Numbers and truth values are.
-/

namespace Rcon

/-! ### Quoted text -/

namespace Units

theorem le_hexDigit (n : Nat) : 0x20 ≤ hexDigit n := by
  have hdigits : ∀ k < 16, 0x20 ≤ UInt16.ofNat (Nat.digitChar k).toNat := by decide
  exact hdigits (n % 16) (Nat.mod_lt n (by decide))

theorem isPrintable_of_shortEscape? {u : UInt16} {e : Units} (h : shortEscape? u = some e) :
    IsPrintable e := by
  unfold shortEscape? at h
  repeat' split at h
  all_goals first
    | (cases h; decide)
    | cases h

/-- **What stands for a unit within quotes is printable.** -/
theorem isPrintable_escapeUnit (u : UInt16) : IsPrintable (escapeUnit u) := by
  rw [escapeUnit]
  split
  · next e hescape => exact isPrintable_of_shortEscape? hescape
  · split
    · simp [hexEscape, le_hexDigit]
    · next hplain =>
      simp only [Bool.or_eq_true, decide_eq_true_eq, not_or, UInt16.not_lt] at hplain
      exact isPrintable_cons_iff.2 ⟨hplain.1, isPrintable_nil⟩

theorem le_of_isLead_of_isTrail {u v : UInt16} (h : (isLead u && isTrail v) = true) :
    0x20 ≤ u ∧ 0x20 ≤ v := by
  rw [Bool.and_eq_true, isLead_iff, isTrail_iff] at h
  rw [UInt16.le_iff_toNat_le, UInt16.le_iff_toNat_le]
  exact ⟨Nat.le_trans (by decide) h.1.1, Nat.le_trans (by decide) h.2.1⟩

/-- Text that is escaped stays printable where what is written already is. -/
theorem isPrintable_escapeOnto {seen : Units} (h : IsPrintable seen) (units : Units) :
    IsPrintable (escapeOnto seen units) := by
  fun_induction escapeOnto seen units with
  | case1 seen => exact isPrintable_reverse_iff.2 h
  | case2 seen u =>
    refine isPrintable_reverse_iff.2 (isPrintable_append_iff.2 ⟨?_, h⟩)
    exact isPrintable_reverse_iff.2 (isPrintable_escapeUnit u)
  | case3 seen u v rest hpair ih =>
    obtain ⟨hlead, htrail⟩ := le_of_isLead_of_isTrail hpair
    exact ih (isPrintable_cons_iff.2 ⟨htrail, isPrintable_cons_iff.2 ⟨hlead, h⟩⟩)
  | case4 seen u v rest hpair ih =>
    refine ih (isPrintable_append_iff.2 ⟨?_, h⟩)
    exact isPrintable_reverse_iff.2 (isPrintable_escapeUnit u)

/-- **Text in quotes is printable.** -/
theorem isPrintable_quoted (units : Units) : IsPrintable (quoted units) := by
  refine isPrintable_cons_iff.2 ⟨by decide, isPrintable_append_iff.2 ⟨?_, by decide⟩⟩
  exact isPrintable_escapeOnto isPrintable_nil units

end Units

namespace Value

open Rcon.Units (IsPrintable isPrintable_quoted isPrintable_joined isPrintable_cons_iff
  isPrintable_append_iff)

/-! ### JSON -/

/-- The JSON text of a number is printable. -/
theorem isPrintable_numberJson (n : Number) : IsPrintable (numberJson n) := by
  cases n with
  | finite q => exact Number.isPrintable_chars (.finite q)
  | nan => decide
  | infinite negative => exact (by decide : IsPrintable (Units.ofString "null"))

mutual

/-- **The JSON text of a value is printable.** -/
theorem isPrintable_json : ∀ v : Value, IsPrintable v.json
  | .undefined => by decide
  | .null => by decide
  | .bool true => by decide
  | .bool false => by decide
  | .number n => isPrintable_numberJson n
  | .text u => isPrintable_quoted u
  | .array items => by
    refine isPrintable_cons_iff.2 ⟨by decide, isPrintable_append_iff.2 ⟨?_, by decide⟩⟩
    exact isPrintable_joined (by decide) (isPrintable_jsonItems items)
  | .object fields => by
    refine isPrintable_cons_iff.2 ⟨by decide, isPrintable_append_iff.2 ⟨?_, by decide⟩⟩
    exact isPrintable_joined (by decide) (isPrintable_jsonFields fields)

theorem isPrintable_jsonItems : ∀ items : List Value, ∀ part ∈ jsonItems items, IsPrintable part
  | [] => fun _ h ↦ absurd h List.not_mem_nil
  | v :: rest => List.forall_mem_cons.2 ⟨isPrintable_json v, isPrintable_jsonItems rest⟩

theorem isPrintable_jsonFields :
    ∀ fields : List (Units × Value), ∀ part ∈ jsonFields fields, IsPrintable part
  | [] => fun _ h ↦ absurd h List.not_mem_nil
  | (key, v) :: rest => by
    have hfield : IsPrintable (Units.quoted key ++ 0x3A :: v.json) :=
      isPrintable_append_iff.2
        ⟨isPrintable_quoted key, isPrintable_cons_iff.2 ⟨by decide, isPrintable_json v⟩⟩
    have hrest := isPrintable_jsonFields rest
    cases v with
    | undefined => exact hrest
    | _ => exact List.forall_mem_cons.2 ⟨hfield, hrest⟩

end

/-! ### Plain text -/

/-- Is a value shown within one line, if it has a text? -/
def IsInline (v : Value) : Prop :=
  ∀ shown, v.display? = some shown → Units.IsLine shown

theorem isInline_number (n : Number) : (number n).IsInline := by
  rintro _ ⟨⟩
  exact (Number.isPrintable_chars n).isLine

theorem isInline_bool (b : Bool) : (bool b).IsInline := by
  cases b with
  | true =>
    rintro _ ⟨⟩
    decide
  | false =>
    rintro _ ⟨⟩
    decide

theorem isInline_text {units : Units} (h : Units.IsLine units) : (text units).IsInline := by
  rintro _ ⟨⟩
  exact h

theorem isInline_undefined : undefined.IsInline := by
  rintro _ ⟨⟩
  decide

end Value

end Rcon
