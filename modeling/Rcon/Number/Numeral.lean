import Rcon.Number.Basic

/-!
# Numerals

The numbers that a setting may be spelled as.

* Decimal digits with an optional sign, point and exponent. The point may stand first or last, but
  at least one digit is there; an exponent has digits.
* `Infinity`, with an optional sign.
* Whole numbers of base sixteen, eight and two behind `0x`, `0o` and `0b`, in either case and
  without a sign.

`Number.ofNumeral` reads one, and everything else is `Number.nan`.
-/

namespace Rcon

namespace Number

/-! ### Digits -/

/-- The value of a digit of the given base. -/
def digit? (base : Nat) (c : Char) : Option Nat :=
  let value :=
    if '0' ≤ c ∧ c ≤ '9' then some (c.toNat - '0'.toNat)
    else if 'a' ≤ c ∧ c ≤ 'f' then some (c.toNat - 'a'.toNat + 10)
    else if 'A' ≤ c ∧ c ≤ 'F' then some (c.toNat - 'A'.toNat + 10)
    else none
  value.filter (· < base)

/-- The whole number that a nonempty list of digits spells. -/
def whole? (base : Nat) : List Char → Option Nat
  | [] => none
  | cs => cs.foldlM (fun n c ↦ (digit? base c).map (base * n + ·)) 0

/-- A whole number behind a sign, which may be absent. -/
def signed? : List Char → Option Int
  | '-' :: cs => (whole? 10 cs).map fun n ↦ -(n : Int)
  | '+' :: cs => (whole? 10 cs).map Int.ofNat
  | cs => (whole? 10 cs).map Int.ofNat

/-! ### Decimals -/

/-- The exponent at the end of a decimal: none is zero. -/
def exponent? : List Char → Option Int
  | [] => some 0
  | 'e' :: cs => signed? cs
  | 'E' :: cs => signed? cs
  | _ => none

/-- The digits behind a point, and what follows them. Without a point there are none. -/
def fraction : List Char → List Char × List Char
  | '.' :: cs => (cs.takeWhile Char.isDigit, cs.dropWhile Char.isDigit)
  | cs => ([], cs)

/-- An unsigned decimal as a mantissa and a power of ten. -/
def decimal? (cs : List Char) : Option (Nat × Int) :=
  let rest := fraction (cs.dropWhile Char.isDigit)
  let digits := cs.takeWhile Char.isDigit ++ rest.1
  if digits = [] then none
  else (exponent? rest.2).map fun e ↦ (Nat.ofDigitChars 10 digits 0, e - rest.1.length)

/-- An unsigned decimal or infinity, with the given sign. -/
def magnitude (negative : Bool) (cs : List Char) : Number :=
  if cs = "Infinity".toList then .infinite negative
  else
    match decimal? cs with
    | some (mantissa, exponent) => ofScientific negative mantissa exponent
    | none => .nan

/-! ### Numerals -/

/-- The number that a whole number of some base stands for. -/
def ofWhole : Option Nat → Number
  | some n => round (n : Int)
  | none => .nan

/-- The number that a numeral spells. -/
def ofNumeral : List Char → Number
  | '0' :: 'x' :: cs => ofWhole (whole? 16 cs)
  | '0' :: 'X' :: cs => ofWhole (whole? 16 cs)
  | '0' :: 'o' :: cs => ofWhole (whole? 8 cs)
  | '0' :: 'O' :: cs => ofWhole (whole? 8 cs)
  | '0' :: 'b' :: cs => ofWhole (whole? 2 cs)
  | '0' :: 'B' :: cs => ofWhole (whole? 2 cs)
  | '-' :: cs => magnitude true cs
  | '+' :: cs => magnitude false cs
  | cs => magnitude false cs

example : ofNumeral "5.".toList = .finite 5 := by decide +kernel

example : ofNumeral ".5e1".toList = .finite 5 := by decide +kernel

example : ofNumeral "-0x10".toList = .nan := by decide +kernel

example : ofNumeral "1e".toList = .nan := by decide +kernel

end Number

end Rcon
