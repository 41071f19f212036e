/-!
# UTF-16 units

Log text is measured, cut and escaped by UTF-16 unit, so it is kept as the list of its units. A cut
may fall inside a surrogate pair, and what it leaves behind is a list of units that no `String`
spells: this is why `Units` is a type of its own and not a view of `String`.

* `Units.ofString` writes each character as one unit, or as a pair above `U+FFFF`.
* `Units.toString` reads the pairs back and puts `U+FFFD` in place of every unpaired surrogate. It
  undoes `Units.ofString` (`Units.toString_ofString`) and is total on everything else.
-/

namespace Rcon

/-- Text as the sequence of its UTF-16 units. -/
abbrev Units := List UInt16

namespace Units

/-! ### Surrogates -/

/-- The first half of a surrogate pair. -/
def isLead (u : UInt16) : Bool :=
  0xD800 ≤ u && u < 0xDC00

/-- The second half of a surrogate pair. -/
def isTrail (u : UInt16) : Bool :=
  0xDC00 ≤ u && u < 0xE000

/-- Either half of a surrogate pair. -/
def isSurrogate (u : UInt16) : Bool :=
  isLead u || isTrail u

theorem isLead_iff (u : UInt16) : isLead u = true ↔ 0xD800 ≤ u.toNat ∧ u.toNat < 0xDC00 := by
  simp only [isLead, Bool.and_eq_true, decide_eq_true_eq, UInt16.le_iff_toNat_le,
    UInt16.lt_iff_toNat_lt, UInt16.reduceToNat]

theorem isTrail_iff (u : UInt16) : isTrail u = true ↔ 0xDC00 ≤ u.toNat ∧ u.toNat < 0xE000 := by
  simp only [isTrail, Bool.and_eq_true, decide_eq_true_eq, UInt16.le_iff_toNat_le,
    UInt16.lt_iff_toNat_lt, UInt16.reduceToNat]

/-! ### Writing characters as units -/

/-- The units of one character: itself up to `U+FFFF`, a surrogate pair above. -/
def ofChar (c : Char) : Units :=
  if c.toNat < 0x10000 then [UInt16.ofNat c.toNat]
  else
    [UInt16.ofNat (0xD800 + (c.toNat - 0x10000) / 0x400),
      UInt16.ofNat (0xDC00 + (c.toNat - 0x10000) % 0x400)]

/-- The units of a list of characters, in order. -/
def ofChars (cs : List Char) : Units :=
  cs.flatMap ofChar

/-- The units of a string. -/
def ofString (s : String) : Units :=
  ofChars s.toList

@[simp] theorem ofChars_nil : ofChars [] = [] := rfl

@[simp] theorem ofChars_append (cs ds : List Char) :
    ofChars (cs ++ ds) = ofChars cs ++ ofChars ds := by
  simp [ofChars]

/-- A character takes one unit or two, and two exactly above `U+FFFF`. -/
theorem length_ofChar (c : Char) : (ofChar c).length = if c.toNat < 0x10000 then 1 else 2 := by
  unfold ofChar
  split <;> rfl

/-! ### Joining -/

/-- Texts joined by a separator unit. -/
def joined (separator : UInt16) : List Units → Units
  | [] => []
  | [u] => u
  | u :: v :: rest => u ++ separator :: joined separator (v :: rest)

/-! ### Reading units as characters -/

/-- The character that stands for a unit on its own. -/
def toChar (u : UInt16) : Char :=
  if isSurrogate u then '\uFFFD' else Char.ofNat u.toNat

/-- The character that a surrogate pair spells. -/
def pairChar (lead trail : UInt16) : Char :=
  Char.ofNat (0x10000 + (lead.toNat - 0xD800) * 0x400 + (trail.toNat - 0xDC00))

/-- The characters of a list of units, put before those already read, which are newest first. -/
def toCharsOnto (seen : List Char) : Units → List Char
  | [] => seen.reverse
  | [u] => (toChar u :: seen).reverse
  | u :: v :: rest =>
    if isLead u && isTrail v then toCharsOnto (pairChar u v :: seen) rest
    else toCharsOnto (toChar u :: seen) (v :: rest)

/-- The string that the units spell, with `U+FFFD` for every unpaired surrogate. -/
def toString (units : Units) : String :=
  String.ofList (toCharsOnto [] units)

/-! ### Reading back -/

/-- The characters already read come first and change nothing else. -/
theorem toCharsOnto_eq_append (seen : List Char) :
    ∀ units, toCharsOnto seen units = seen.reverse ++ toCharsOnto [] units
  | [] => by simp [toCharsOnto]
  | [u] => by simp [toCharsOnto]
  | u :: v :: rest => by
    rw [toCharsOnto, toCharsOnto]
    split
    · rw [toCharsOnto_eq_append (_ :: seen) rest, toCharsOnto_eq_append [_] rest]
      simp
    · rw [toCharsOnto_eq_append (_ :: seen) (v :: rest), toCharsOnto_eq_append [_] (v :: rest)]
      simp

/-- A unit that starts no pair is read by itself. -/
theorem toCharsOnto_cons {u : UInt16} (h : isLead u = false) (rest : Units) :
    toCharsOnto [] (u :: rest) = toChar u :: toCharsOnto [] rest := by
  cases rest with
  | nil => simp [toCharsOnto]
  | cons v rest =>
    rw [toCharsOnto, h, Bool.false_and, if_neg (by decide), toCharsOnto_eq_append]
    rfl

/-- A surrogate pair is read as one character. -/
theorem toCharsOnto_pair {u v : UInt16} (hu : isLead u = true) (hv : isTrail v = true)
    (rest : Units) :
    toCharsOnto [] (u :: v :: rest) = pairChar u v :: toCharsOnto [] rest := by
  rw [toCharsOnto, hu, hv, Bool.true_and, if_pos rfl, toCharsOnto_eq_append]
  rfl

/-- The units of a character are read as that character, whatever follows. -/
theorem toCharsOnto_ofChar (c : Char) (rest : Units) :
    toCharsOnto [] (ofChar c ++ rest) = c :: toCharsOnto [] rest := by
  have hvalid : c.toNat < 0xD800 ∨ 0xDFFF < c.toNat ∧ c.toNat < 0x110000 := c.valid
  unfold ofChar
  split
  · next hsmall =>
    -- A unit of its own is no surrogate, for no character has a surrogate as its code point.
    have hn : (UInt16.ofNat c.toNat).toNat = c.toNat := by
      rw [UInt16.toNat_ofNat']
      omega
    have hlead : isLead (UInt16.ofNat c.toNat) = false := by
      rw [Bool.eq_false_iff, ne_eq, isLead_iff, hn]
      omega
    have htrail : isTrail (UInt16.ofNat c.toNat) = false := by
      rw [Bool.eq_false_iff, ne_eq, isTrail_iff, hn]
      omega
    rw [List.singleton_append, toCharsOnto_cons hlead]
    simp [toChar, isSurrogate, hlead, htrail, hn]
  · next hlarge =>
    -- The two halves of a pair hold the quotient and the remainder by `0x400`.
    have hlead : (UInt16.ofNat (0xD800 + (c.toNat - 0x10000) / 0x400)).toNat =
        0xD800 + (c.toNat - 0x10000) / 0x400 := by
      rw [UInt16.toNat_ofNat']
      omega
    have htrail : (UInt16.ofNat (0xDC00 + (c.toNat - 0x10000) % 0x400)).toNat =
        0xDC00 + (c.toNat - 0x10000) % 0x400 := by
      rw [UInt16.toNat_ofNat']
      omega
    have hcode : 0x10000 + (0xD800 + (c.toNat - 0x10000) / 0x400 - 0xD800) * 0x400 +
        (0xDC00 + (c.toNat - 0x10000) % 0x400 - 0xDC00) = c.toNat := by
      omega
    rw [List.cons_append, List.singleton_append, toCharsOnto_pair]
    · rw [pairChar, hlead, htrail, hcode, Char.ofNat_toNat]
    · rw [isLead_iff, hlead]
      omega
    · rw [isTrail_iff, htrail]
      omega

/-- **A string is read back from its units.** -/
theorem toString_ofString (s : String) : toString (ofString s) = s := by
  have h (cs : List Char) : toCharsOnto [] (ofChars cs) = cs := by
    induction cs with
    | nil => rfl
    | cons c cs ih => rw [ofChars, List.flatMap_cons, toCharsOnto_ofChar, ← ofChars, ih]
  rw [toString, ofString, h, String.ofList_toList]

end Units

end Rcon
