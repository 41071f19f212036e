import Rcon.Proofs.Number.Exact
import Rcon.Proofs.Value.Fields
import Rcon.Value.Json
import Rcon.Value.JsonText

/-!
# Reading back what is written

The JSON text of a value that JSON can hold (`Value.IsData`) is read as that value
(`JsonText.read_json`), **whatever its texts are and however deep it is**. So a text of one value is
the text of no other (`Value.IsData.eq_of_json_eq`).

Reading is a run of steps (`JsonText.State.steps`), and what a part of a text does there depends on
two things only. Before a value the state has to be one that expects a value (`State.Expects`);
behind it the state goes on as behind that value (`State.Ends`), and which value that is does not
depend on what it is part of. `JsonText.Spells` says so of a text and a value. Neither can a text in
quotes end early: what is written for its units leads from within the string to within the string
(`JsonText.steps_escapeOnto`).
-/

namespace Rcon

open Rcon.Units (toChar)

/-! ### Units as characters -/

namespace Units

/-- A unit that is no half of a pair is read as the character with its number. -/
theorem toNat_toChar {u : UInt16} (h : isSurrogate u = false) : (toChar u).toNat = u.toNat := by
  rw [isSurrogate, Bool.or_eq_false_iff, Bool.eq_false_iff, Bool.eq_false_iff, ne_eq, ne_eq,
    isLead_iff, isTrail_iff] at h
  have hlt := u.toNat_lt
  have hvalid : u.toNat.isValidChar := by
    unfold Nat.isValidChar
    omega
  rw [toChar, if_neg (by rw [isSurrogate, Bool.or_eq_true, isLead_iff, isTrail_iff]; omega),
    Char.ofNat, dif_pos hvalid]
  rfl

/-- Only the unit of an ASCII character is read as that character. -/
theorem eq_of_toChar_eq {u : UInt16} {c : Char} (hc : c.toNat < 0x80) (h : toChar u = c) :
    u = UInt16.ofNat c.toNat := by
  cases hu : isSurrogate u with
  | true =>
    rw [toChar, if_pos hu] at h
    subst h
    exact absurd hc (by decide)
  | false => rw [← h, toNat_toChar hu, UInt16.ofNat_toNat]

theorem toChar_ofNat {c : Char} (hc : c.toNat < 0x80) : toChar (UInt16.ofNat c.toNat) = c := by
  have hn : (UInt16.ofNat c.toNat).toNat = c.toNat := by
    rw [UInt16.toNat_ofNat']
    omega
  rw [toChar, if_neg (by rw [isSurrogate, Bool.or_eq_true, isLead_iff, isTrail_iff, hn]; omega), hn,
    Char.ofNat_toNat]

end Units

/-! ### Data -/

/-- A value that JSON can hold: nothing in it is left out or written as something else. -/
inductive Value.IsData : Value → Prop
  /-- The null. -/
  | null : IsData .null
  /-- A truth value. -/
  | bool (b : Bool) : IsData (.bool b)
  /-- A whole number, where every whole number is a number. -/
  | whole {n : Int} (h : (n.natAbs : Int) < Number.exactBound) : IsData (.ofInt n)
  /-- A text of any units. -/
  | text (units : Units) : IsData (.text units)
  /-- An array of data. -/
  | array {items : List Value} (h : ∀ v ∈ items, IsData v) : IsData (.array items)
  /-- An object of data. -/
  | object {fields : Fields} (hordered : fields.IsOrdered) (h : ∀ f ∈ fields, IsData f.2) :
      IsData (.object fields)

namespace Value

variable {v : Value}

theorem IsData.isDefined (h : v.IsData) : v.isDefined = true := by
  cases h <;> rfl

theorem jsonFields_cons {f : Units × Value} (h : f.2.isDefined = true) (rest : Fields) :
    jsonFields (f :: rest) = (Units.quoted f.1 ++ 0x3A :: f.2.json) :: jsonFields rest := by
  obtain ⟨key, v⟩ := f
  cases v with
  | undefined => cases h
  | _ => rfl

end Value

namespace JsonText

/-! ### Runs of steps -/

namespace State

/-- The state that a text leads to. -/
def steps (state : State) (text : Units) : Except Violation State :=
  text.foldlM step state

variable {state next last : State} {u : UInt16} {text more : Units}

@[simp] theorem steps_nil : state.steps [] = .ok state := rfl

theorem steps_cons (h : state.step u = .ok next) : state.steps (u :: text) = next.steps text := by
  rw [steps, List.foldlM_cons, h]
  rfl

/-- The second part of a text is read from where the first part ends. -/
theorem steps_append (h : state.steps text = .ok next) :
    state.steps (text ++ more) = next.steps more := by
  rw [steps, List.foldlM_append, ← steps, h]
  rfl

end State

open State

variable {state last : State} {contexts : List Context} {value : Value} {text : Units}
  {purpose : Purpose} {seen : Units} {u : UInt16}

/-- A text has the value of the state that it leads to. -/
theorem readFrom_eq_ok (hsteps : state.steps text = .ok last) (hfinish : last.finish = .ok value)
    (place : Nat) : readFrom state place text = .ok value := by
  induction text generalizing state place with
  | nil =>
    cases hsteps
    rw [readFrom, hfinish]
  | cons u rest ih =>
    cases hstep : state.step u with
    | error violation =>
      rw [steps, List.foldlM_cons, hstep] at hsteps
      cases hsteps
    | ok next =>
      rw [steps_cons hstep] at hsteps
      rw [readFrom, hstep]
      exact ih hsteps _

/-! ### Before a value and behind it -/

/-- Does a value start in a state, as part of this? -/
def State.Expects (state : State) (contexts : List Context) : Prop :=
  ∀ u, isSpace (toChar u) = false → toChar u ≠ ']' → state.step u = start contexts (toChar u)

/-- Does a value end in a state, as part of this? What may follow there is a comma or a bracket, or
nothing. -/
structure State.Ends (state : State) (contexts : List Context) (value : Value) : Prop where
  /-- What follows is read as what follows the value. -/
  step : ∀ u, toChar u ∈ [',', ']', '}'] → state.step u = follow contexts value (toChar u)
  /-- If nothing follows it is the value. -/
  finish : state.finish = finishValue contexts value

/-- Is a text read as a value, whatever that is part of? -/
def Spells (text : Units) (value : Value) : Prop :=
  ∀ state contexts, State.Expects state contexts →
    ∃ last, state.steps text = .ok last ∧ last.Ends contexts value

theorem expects_value (contexts : List Context) : State.Expects ⟨.value, contexts⟩ contexts := by
  intro u hspace _
  simp only [State.step, hspace]
  rfl

theorem expects_firstItem (contexts : List Context) :
    State.Expects ⟨.firstItem, contexts⟩ (.item [] :: contexts) := by
  intro u hspace hend
  simp only [State.step, hspace, if_neg hend]
  rfl

theorem ends_ended (contexts : List Context) (value : Value) :
    State.Ends ⟨.ended value, contexts⟩ contexts value :=
  ⟨fun _ _ ↦ rfl, rfl⟩

/-- Behind its whole digits a numeral does not go on with what may follow a value. -/
theorem next_eq_none {part : Part} (hpart : part = .zero ∨ part = .whole) {c : Char}
    (hc : c ∈ [',', ']', '}']) : part.next c = .ok none := by
  simp only [List.mem_cons, List.not_mem_nil, or_false] at hc
  obtain rfl | rfl := hpart
  · obtain rfl | rfl | rfl := hc <;> rfl
  · obtain rfl | rfl | rfl := hc <;> rfl

theorem ends_number {part : Part} (hpart : part = .zero ∨ part = .whole) (seen : List Char) :
    State.Ends ⟨.number part seen, contexts⟩ contexts (numeral seen) := by
  refine ⟨fun u hu ↦ ?_, ?_⟩
  · simp only [State.step, next_eq_none hpart hu]
  · obtain rfl | rfl := hpart <;> rfl

/-! ### Texts in quotes -/

theorem step_surrogate (h : Units.isSurrogate u = true) :
    State.step ⟨.string purpose seen, contexts⟩ u =
      .ok ⟨.string purpose (u :: seen), contexts⟩ := by
  simp only [State.step, toChar, if_pos h]
  rfl

/-- A unit that is neither escaped nor the end is read as itself. -/
theorem step_string (hquote : u ≠ 0x22) (hslash : u ≠ 0x5C) (hprint : 0x20 ≤ u) :
    State.step ⟨.string purpose seen, contexts⟩ u =
      .ok ⟨.string purpose (u :: seen), contexts⟩ := by
  cases hu : Units.isSurrogate u with
  | true => exact step_surrogate hu
  | false =>
    have hnoquote : toChar u ≠ '"' := fun h ↦ hquote (Units.eq_of_toChar_eq (by decide) h)
    have hnoslash : toChar u ≠ '\\' := fun h ↦ hslash (Units.eq_of_toChar_eq (by decide) h)
    have hnocontrol : ¬toChar u < ' ' := by
      rw [UInt16.le_iff_toNat_le, ← Units.toNat_toChar hu] at hprint
      exact Nat.not_lt.2 hprint
    simp only [State.step, if_neg hnoquote, if_neg hnoslash, if_neg hnocontrol]

theorem digit?_hexDigit (n : Nat) :
    Number.digit? 16 (toChar (Units.hexDigit n)) = some (n % 16) := by
  have hdigits : ∀ k < 16,
      Number.digit? 16 (toChar (UInt16.ofNat (Nat.digitChar k).toNat)) = some k := by decide
  exact hdigits (n % 16) (Nat.mod_lt n (by decide))

/-- A unit that is spelled by its hexadecimal digits is read as the unit. -/
theorem steps_hexEscape (u : UInt16) :
    State.steps ⟨.string purpose seen, contexts⟩ (Units.hexEscape u) =
      .ok ⟨.string purpose (u :: seen), contexts⟩ := by
  have hvalue : 16 * (16 * (16 * (16 * 0 + u.toNat / 4096 % 16) + u.toNat / 256 % 16) +
      u.toNat / 16 % 16) + u.toNat % 16 = u.toNat := by
    have hlt := u.toNat_lt
    omega
  have hdigit (code more : Nat) (d : Nat) :
      State.step ⟨.unitEscape purpose seen code (more + 1), contexts⟩ (Units.hexDigit d) =
        .ok ⟨.unitEscape purpose seen (16 * code + d % 16) more, contexts⟩ := by
    simp only [State.step, digit?_hexDigit]
  have hlast (code : Nat) (d : Nat) :
      State.step ⟨.unitEscape purpose seen code 0, contexts⟩ (Units.hexDigit d) =
        .ok ⟨.string purpose (UInt16.ofNat (16 * code + d % 16) :: seen), contexts⟩ := by
    simp only [State.step, digit?_hexDigit]
  have hslash : State.step ⟨.string purpose seen, contexts⟩ 0x5C =
      .ok ⟨.escape purpose seen, contexts⟩ := rfl
  have hunit : State.step ⟨.escape purpose seen, contexts⟩ 0x75 =
      .ok ⟨.unitEscape purpose seen 0 3, contexts⟩ := rfl
  rw [Units.hexEscape, steps_cons hslash, steps_cons hunit, steps_cons (hdigit ..),
    steps_cons (hdigit ..), steps_cons (hdigit ..), steps_cons (hlast ..), hvalue,
    UInt16.ofNat_toNat, steps_nil]

theorem steps_shortEscape {e : Units} (h : Units.shortEscape? u = some e) :
    State.steps ⟨.string purpose seen, contexts⟩ e =
      .ok ⟨.string purpose (u :: seen), contexts⟩ := by
  unfold Units.shortEscape? at h
  repeat' split at h
  all_goals first
    | (cases h; subst u; rfl)
    | cases h

/-- **What stands for a unit within quotes is read as the unit.** -/
theorem steps_escapeUnit (u : UInt16) :
    State.steps ⟨.string purpose seen, contexts⟩ (Units.escapeUnit u) =
      .ok ⟨.string purpose (u :: seen), contexts⟩ := by
  rw [Units.escapeUnit]
  split
  · next e hescape => exact steps_shortEscape hescape
  · next hnone =>
    split
    · exact steps_hexEscape u
    · next hplain =>
      simp only [Bool.or_eq_true, decide_eq_true_eq, not_or, UInt16.not_lt] at hplain
      have hquote : u ≠ 0x22 := by
        rintro rfl
        cases hnone
      have hslash : u ≠ 0x5C := by
        rintro rfl
        cases hnone
      exact steps_cons (step_string hquote hslash hplain.1)

/-- A surrogate pair is read as it stands. -/
theorem steps_pair {v : UInt16} (h : (Units.isLead u && Units.isTrail v) = true) :
    State.steps ⟨.string purpose seen, contexts⟩ [u, v] =
      .ok ⟨.string purpose (v :: u :: seen), contexts⟩ := by
  obtain ⟨hlead, htrail⟩ := Bool.and_eq_true_iff.1 h
  have hu : Units.isSurrogate u = true := by rw [Units.isSurrogate, hlead, Bool.true_or]
  have hv : Units.isSurrogate v = true := by rw [Units.isSurrogate, htrail, Bool.or_true]
  rw [steps_cons (step_surrogate hu), steps_cons (step_surrogate hv), steps_nil]

/-- **What is written for units is read as these units**, from within a string to within it. -/
theorem steps_escapeOnto {written : Units} (units : Units)
    (h : state.steps written.reverse = .ok ⟨.string purpose seen, contexts⟩) :
    state.steps (Units.escapeOnto written units) =
      .ok ⟨.string purpose (units.reverse ++ seen), contexts⟩ := by
  fun_induction Units.escapeOnto written units generalizing seen with
  | case1 written => exact h
  | case2 written u =>
    rw [List.reverse_append, List.reverse_reverse, steps_append h, steps_escapeUnit]
    rfl
  | case3 written u v rest hpair ih =>
    have hboth : state.steps (v :: u :: written).reverse =
        .ok ⟨.string purpose (v :: u :: seen), contexts⟩ := by
      rw [List.reverse_cons, List.reverse_cons, List.append_assoc, steps_append h]
      exact steps_pair hpair
    rw [ih hboth]
    simp
  | case4 written u v rest hpair ih =>
    have hone : state.steps ((Units.escapeUnit u).reverse ++ written).reverse =
        .ok ⟨.string purpose (u :: seen), contexts⟩ := by
      rw [List.reverse_append, List.reverse_reverse, steps_append h, steps_escapeUnit]
    rw [ih hone]
    simp

/-- A text in quotes is read to its end, behind the quote that it starts with. -/
theorem steps_quoted (units : Units) :
    State.steps ⟨.string purpose [], contexts⟩ (Units.escapeOnto [] units ++ [0x22]) =
      .ok (close contexts units purpose) := by
  have hunits : State.steps ⟨.string purpose [], contexts⟩ (Units.escapeOnto [] units) =
      .ok ⟨.string purpose (units.reverse ++ []), contexts⟩ := steps_escapeOnto units rfl
  have hend : State.step ⟨.string purpose (units.reverse ++ []), contexts⟩ 0x22 =
      .ok (close contexts (units.reverse ++ []).reverse purpose) := rfl
  rw [steps_append hunits, steps_cons hend, List.append_nil, List.reverse_reverse, steps_nil]

/-- **A text in quotes spells the text.** -/
theorem spells_quoted (units : Units) : Spells (Units.quoted units) (.text units) := by
  intro state contexts hexpects
  have hopen : state.step 0x22 = .ok ⟨.string .value [], contexts⟩ :=
    hexpects 0x22 (by decide) (by decide)
  refine ⟨⟨.ended (.text units), contexts⟩, ?_, ends_ended contexts _⟩
  rw [Units.quoted, steps_cons hopen, steps_quoted]
  rfl

/-! ### Words and numerals -/

theorem spells_null : Spells (Value.json .null) .null := by
  intro state contexts hexpects
  have hstart : state.step 0x6E = .ok ⟨.word 'u' ['l', 'l'] .null, contexts⟩ :=
    hexpects 0x6E (by decide) (by decide)
  refine ⟨⟨.ended .null, contexts⟩, ?_, ends_ended contexts _⟩
  show state.steps [0x6E, 0x75, 0x6C, 0x6C] = _
  rw [steps_cons hstart]
  rfl

theorem spells_bool (b : Bool) : Spells (Value.json (.bool b)) (.bool b) := by
  intro state contexts hexpects
  refine ⟨⟨.ended (.bool b), contexts⟩, ?_, ends_ended contexts _⟩
  cases b with
  | true =>
    have hstart : state.step 0x74 = .ok ⟨.word 'r' ['u', 'e'] (.bool true), contexts⟩ :=
      hexpects 0x74 (by decide) (by decide)
    show state.steps [0x74, 0x72, 0x75, 0x65] = _
    rw [steps_cons hstart]
    rfl
  | false =>
    have hstart : state.step 0x66 = .ok ⟨.word 'a' ['l', 's', 'e'] (.bool false), contexts⟩ :=
      hexpects 0x66 (by decide) (by decide)
    show state.steps [0x66, 0x61, 0x6C, 0x73, 0x65] = _
    rw [steps_cons hstart]
    rfl

theorem ofChars_cons {c : Char} (hc : c.toNat < 0x80) (cs : List Char) :
    Units.ofChars (c :: cs) = UInt16.ofNat c.toNat :: Units.ofChars cs := by
  rw [Units.ofChars, List.flatMap_cons, Units.ofChar, if_pos (by omega)]
  rfl

theorem toNat_lt_of_isDigit {c : Char} (h : c.isDigit = true) : c.toNat < 0x80 := by
  exact Nat.lt_of_le_of_lt (Char.isDigit_iff_toNat.1 h).2 (by decide)

theorem isSpace_of_isDigit {c : Char} (h : c.isDigit = true) : isSpace c = false := by
  rw [isSpace, Bool.or_eq_false_iff, Bool.or_eq_false_iff, Bool.or_eq_false_iff]
  refine ⟨⟨⟨?_, ?_⟩, ?_⟩, ?_⟩
  all_goals
    rw [decide_eq_false_iff_not]
    rintro rfl
    cases h

/-- Within the whole digits every digit is read as one more. -/
theorem step_digit {c : Char} (h : c.isDigit = true) (before : List Char) :
    State.step ⟨.number .whole before, contexts⟩ (UInt16.ofNat c.toNat) =
      .ok ⟨.number .whole (c :: before), contexts⟩ := by
  simp only [State.step, Units.toChar_ofNat (toNat_lt_of_isDigit h), Part.next, if_pos h]

/-- Digits are read to the last, from where one that is not zero is read as the first of them. -/
theorem steps_toDigits {front : List Char}
    (hfirst : ∀ c : Char, c.isDigit = true → c ≠ '0' →
      state.step (UInt16.ofNat c.toNat) = .ok ⟨.number .whole (c :: front), contexts⟩)
    {n : Nat} (hn : n ≠ 0) :
    state.steps (Units.ofChars (Nat.toDigits 10 n)) =
      .ok ⟨.number .whole ((Nat.toDigits 10 n).reverse ++ front), contexts⟩ := by
  induction n using Nat.base_induction 10 (by decide) with
  | single n hlt =>
    have hdigit : n.digitChar.isDigit = true := Nat.isDigit_digitChar.trans (decide_eq_true hlt)
    rw [Nat.toDigits_of_lt_base hlt, ofChars_cons (toNat_lt_of_isDigit hdigit)]
    exact steps_cons (hfirst _ hdigit (mt Nat.digitChar_eq_zero.1 hn))
  | digit m k hk hm ih =>
    have hdigit : k.digitChar.isDigit = true := Nat.isDigit_digitChar.trans (decide_eq_true hk)
    rw [← Nat.toDigits_append_toDigits (by decide) hm hk, Nat.toDigits_of_lt_base hk,
      Units.ofChars_append, steps_append (ih (Nat.ne_of_gt hm)),
      ofChars_cons (toNat_lt_of_isDigit hdigit), steps_cons (step_digit hdigit _)]
    simp

/-- A digit that is not zero starts a numeral. -/
theorem start_digit {c : Char} (h : c.isDigit = true) (hzero : c ≠ '0') (contexts : List Context) :
    start contexts c = .ok ⟨.number .whole [c], contexts⟩ := by
  have hminus : c ≠ '-' := by
    rintro rfl
    cases h
  have hfirst : Part.first? c = some .whole := by
    rw [Part.first?, if_neg hminus, if_neg hzero, if_pos h]
  unfold start
  split
  case h_7 => rw [hfirst]
  all_goals cases h

/-- A digit that is not zero starts a numeral where a value is expected. -/
theorem State.Expects.step_digit (hexpects : state.Expects contexts) {c : Char}
    (h : c.isDigit = true) (hzero : c ≠ '0') :
    state.step (UInt16.ofNat c.toNat) = .ok ⟨.number .whole [c], contexts⟩ := by
  have hexpected := hexpects (UInt16.ofNat c.toNat)
  rw [Units.toChar_ofNat (toNat_lt_of_isDigit h), start_digit h hzero] at hexpected
  refine hexpected (isSpace_of_isDigit h) ?_
  rintro rfl
  cases h

theorem step_sign_digit {c : Char} (h : c.isDigit = true) (hzero : c ≠ '0') (before : List Char) :
    State.step ⟨.number .sign before, contexts⟩ (UInt16.ofNat c.toNat) =
      .ok ⟨.number .whole (c :: before), contexts⟩ := by
  simp only [State.step, Units.toChar_ofNat (toNat_lt_of_isDigit h), Part.next, if_neg hzero,
    if_pos h]

/-- The text of a whole number is read to within its whole digits, or to a zero that is all of
it. -/
theorem exists_steps_chars {n : Int} (h : (n.natAbs : Int) < Number.exactBound)
    (hexpects : state.Expects contexts) :
    ∃ part, (part = .zero ∨ part = .whole) ∧
      state.steps (Units.ofChars (Number.ofInt n).chars) =
        .ok ⟨.number part (Number.ofInt n).chars.reverse, contexts⟩ := by
  rw [Number.chars_ofInt h]
  by_cases hneg : n < 0
  · have hsign : state.step 0x2D = .ok ⟨.number .sign ['-'], contexts⟩ :=
      hexpects 0x2D (by decide) (by decide)
    refine ⟨.whole, .inr rfl, ?_⟩
    rw [if_pos hneg, ofChars_cons (by decide), List.reverse_cons]
    exact (steps_cons hsign).trans
      (steps_toDigits (fun c hc hne ↦ step_sign_digit hc hne _) (by omega))
  · rw [if_neg hneg]
    by_cases hzero : n = 0
    · subst hzero
      exact ⟨.zero, .inl rfl, steps_cons (hexpects 0x30 (by decide) (by decide))⟩
    · refine ⟨.whole, .inr rfl, ?_⟩
      rw [← List.append_nil (Nat.toDigits 10 n.natAbs).reverse]
      exact steps_toDigits (fun c hc hne ↦ hexpects.step_digit hc hne) (by omega)

/-- **A whole number is spelled by its numeral.** -/
theorem spells_ofInt {n : Int} (h : (n.natAbs : Int) < Number.exactBound) :
    Spells (Value.ofInt n).json (Value.ofInt n) := by
  intro state contexts hexpects
  obtain ⟨part, hpart, hsteps⟩ := exists_steps_chars h hexpects
  have hvalue : numeral (Number.ofInt n).chars.reverse = Value.ofInt n := by
    rw [numeral, List.reverse_reverse, Number.ofNumeral_chars_ofInt h]
    rfl
  exact ⟨_, hsteps, hvalue ▸ ends_number hpart _⟩

/-! ### Arrays and objects -/

/-- Items are read to the end of their array, from where the first of them is expected. -/
theorem steps_jsonItems {v : Value} {rest before : List Value}
    (h : ∀ w ∈ v :: rest, Spells w.json w) (hexpects : state.Expects (.item before :: contexts)) :
    state.steps (Units.joined 0x2C (Value.jsonItems (v :: rest)) ++ [0x5D]) =
      .ok ⟨.ended (.array (before.reverse ++ v :: rest)), contexts⟩ := by
  -- Every item is read in a state of its own, with the items before it in the context.
  induction rest generalizing state v before with
  | nil =>
    obtain ⟨last, hsteps, hends⟩ := h v List.mem_cons_self state _ hexpects
    have hend : last.step 0x5D = .ok ⟨.ended (.array (v :: before).reverse), contexts⟩ :=
      hends.step 0x5D (by decide)
    show state.steps (v.json ++ [0x5D]) = _
    rw [steps_append hsteps, steps_cons hend, List.reverse_cons, steps_nil]
  | cons w rest ih =>
    obtain ⟨last, hsteps, hends⟩ := h v List.mem_cons_self state _ hexpects
    have hcomma : last.step 0x2C = .ok ⟨.value, .item (v :: before) :: contexts⟩ :=
      hends.step 0x2C (by decide)
    show state.steps
      ((v.json ++ 0x2C :: Units.joined 0x2C (Value.jsonItems (w :: rest))) ++ [0x5D]) = _
    rw [List.append_assoc, steps_append hsteps, List.cons_append, steps_cons hcomma,
      ih (fun x hx ↦ h x (List.mem_cons_of_mem _ hx)) (expects_value _), List.reverse_cons,
      List.append_assoc]
    rfl

/-- **An array is spelled by what spells its items.** -/
theorem spells_array {items : List Value} (h : ∀ v ∈ items, Spells v.json v) :
    Spells (Value.array items).json (.array items) := by
  intro state contexts hexpects
  have hopen : state.step 0x5B = .ok ⟨.firstItem, contexts⟩ :=
    hexpects 0x5B (by decide) (by decide)
  refine ⟨⟨.ended (.array items), contexts⟩, ?_, ends_ended contexts _⟩
  rw [Value.json, steps_cons hopen]
  cases items with
  | nil => rfl
  | cons v rest => exact steps_jsonItems h (expects_firstItem contexts)

/-- A field is read to the end of its value, from where its key is expected. -/
theorem steps_field {key : Units} {before : Fields} (h : Spells text value)
    (hkey : state.step 0x22 = .ok ⟨.string (.key before) [], contexts⟩) :
    ∃ last, state.steps (Units.quoted key ++ 0x3A :: text) = .ok last ∧
      last.Ends (.field before key :: contexts) value := by
  obtain ⟨last, hsteps, hends⟩ := h _ _ (expects_value (.field before key :: contexts))
  have hquoted : state.steps (Units.quoted key) = .ok ⟨.colon before key, contexts⟩ := by
    rw [Units.quoted, steps_cons hkey, steps_quoted]
    rfl
  have hcolon : State.step ⟨.colon before key, contexts⟩ 0x3A =
      .ok ⟨.value, .field before key :: contexts⟩ := rfl
  exact ⟨last, by rw [steps_append hquoted, steps_cons hcolon, hsteps], hends⟩

/-- Fields are read to the end of their object, from where the first key is expected. -/
theorem steps_jsonFields {f : Units × Value} {rest before : Fields}
    (h : ∀ g ∈ f :: rest, g.2.isDefined = true ∧ Spells g.2.json g.2)
    (hkey : state.step 0x22 = .ok ⟨.string (.key before) [], contexts⟩) :
    state.steps (Units.joined 0x2C (Value.jsonFields (f :: rest)) ++ [0x7D]) =
      .ok ⟨.ended (.object (Fields.ofPairs (before.reverse ++ f :: rest))), contexts⟩ := by
  induction rest generalizing state f before with
  | nil =>
    obtain ⟨hdefined, hspells⟩ := h f List.mem_cons_self
    obtain ⟨last, hsteps, hends⟩ := @steps_field state contexts _ _ f.1 before hspells hkey
    have hend : last.step 0x7D =
        .ok ⟨.ended (.object (Fields.ofPairs (f :: before).reverse)), contexts⟩ :=
      hends.step 0x7D (by decide)
    rw [Value.jsonFields_cons hdefined]
    show state.steps ((Units.quoted f.1 ++ 0x3A :: f.2.json) ++ [0x7D]) = _
    rw [steps_append hsteps, steps_cons hend, List.reverse_cons, steps_nil]
  | cons g rest ih =>
    obtain ⟨hdefined, hspells⟩ := h f List.mem_cons_self
    obtain ⟨last, hsteps, hends⟩ := @steps_field state contexts _ _ f.1 before hspells hkey
    have hcomma : last.step 0x2C = .ok ⟨.nextKey (f :: before), contexts⟩ :=
      hends.step 0x2C (by decide)
    have hrest : ∀ x ∈ g :: rest, x.2.isDefined = true ∧ Spells x.2.json x.2 :=
      fun x hx ↦ h x (List.mem_cons_of_mem _ hx)
    rw [Value.jsonFields_cons hdefined, Value.jsonFields_cons (hrest g List.mem_cons_self).1]
    show state.steps (((Units.quoted f.1 ++ 0x3A :: f.2.json) ++ 0x2C :: Units.joined 0x2C
      ((Units.quoted g.1 ++ 0x3A :: g.2.json) :: Value.jsonFields rest)) ++ [0x7D]) = _
    rw [List.append_assoc, steps_append hsteps, List.cons_append, steps_cons hcomma,
      ← Value.jsonFields_cons (hrest g List.mem_cons_self).1, ih hrest rfl, List.reverse_cons,
      List.append_assoc]
    rfl

/-- **An object is spelled by what spells its fields**, if these are in order and all have a
value. -/
theorem spells_object {fields : Fields} (hordered : fields.IsOrdered)
    (h : ∀ f ∈ fields, f.2.isDefined = true ∧ Spells f.2.json f.2) :
    Spells (Value.object fields).json (.object fields) := by
  intro state contexts hexpects
  have hopen : state.step 0x7B = .ok ⟨.firstKey, contexts⟩ :=
    hexpects 0x7B (by decide) (by decide)
  refine ⟨⟨.ended (.object fields), contexts⟩, ?_, ends_ended contexts _⟩
  rw [Value.json, steps_cons hopen]
  cases fields with
  | nil => rfl
  | cons f rest =>
    rw [steps_jsonFields h rfl, List.reverse_nil, List.nil_append, Fields.ofPairs_eq_self hordered]

/-! ### Reading data -/

/-- **Data are spelled by their JSON text.** -/
theorem spells_json (h : value.IsData) : Spells value.json value := by
  induction h with
  | null => exact spells_null
  | bool b => exact spells_bool b
  | whole h => exact spells_ofInt h
  | text units => exact spells_quoted units
  | array _ ih => exact spells_array ih
  | object hordered h ih => exact spells_object hordered fun f hf ↦ ⟨(h f hf).isDefined, ih f hf⟩

/-- **Data are read back from their JSON text.** -/
theorem read_json (h : value.IsData) : read value.json = .ok value := by
  obtain ⟨last, hsteps, hends⟩ := spells_json h {} [] (expects_value [])
  exact readFrom_eq_ok hsteps hends.finish 0

end JsonText

/-- The JSON text of data is that of no other data. -/
theorem Value.IsData.eq_of_json_eq {v w : Value} (hv : v.IsData) (hw : w.IsData)
    (h : v.json = w.json) : v = w := by
  have hread := JsonText.read_json hv
  rw [h, JsonText.read_json hw] at hread
  exact (Except.ok.inj hread).symm

end Rcon
