/-!
# Numbers

Settings and log fields hold the numbers of IEEE 754 binary64. They are kept as exact values: a
number is not a number at all, an infinity, or a rational. Zero has no sign here, because no text
this library writes and no comparison it makes tells the two zeros apart.

* `Number.toInt?` is the whole number that a number is, and `Number.fitted?` the one that is written
  for it where only some whole numbers fit.
* `Number.round` is the binary64 number nearest to a rational, a half going to the even neighbour.
  It is what a numeral stands for, and reading back through it is what the shortest decimal is
  measured by.
-/

namespace Rcon

/-- A binary64 number, as the value it stands for. -/
inductive Number
  /-- The result that is no number. -/
  | nan
  /-- One of the two infinities. -/
  | infinite (negative : Bool)
  /-- A finite number. -/
  | finite (value : Rat)
  deriving DecidableEq

namespace Number

instance : Inhabited Number := ⟨.finite 0⟩

/-- A whole number as a number. -/
def ofInt (n : Int) : Number :=
  .finite n

/-- A natural number as a number. -/
def ofNat (n : Nat) : Number :=
  ofInt n

/-- The whole number that a number is, if it is one. -/
def toInt? : Number → Option Int
  | .finite q => if q.den = 1 then some q.num else none
  | _ => none

@[simp] theorem toInt?_ofInt (n : Int) : (ofInt n).toInt? = some n := by
  simp [ofInt, toInt?]

/-- The whole number that is written for a number where those from `least` to `greatest` fit. **The
bounds are for the number itself**: one that is beyond them by a fraction does not fit. Of a number
that does the fraction is dropped, and what is no number at all is written as zero. -/
def fitted? (least greatest : Int) : Number → Option Int
  | .nan => some 0
  | .infinite _ => none
  | .finite q =>
    if (least : Rat) ≤ q ∧ q ≤ (greatest : Rat) then some (Int.tdiv q.num q.den) else none

/-- A whole number within the bounds is written as it is. -/
@[simp] theorem fitted?_ofInt (least greatest n : Int) :
    (ofInt n).fitted? least greatest = if least ≤ n ∧ n ≤ greatest then some n else none := by
  simp only [ofInt, fitted?, Rat.intCast_le_intCast, Rat.num_intCast, Rat.den_intCast,
    Int.cast_ofNat_Int, Int.tdiv_one]

/-! ### Rounding to binary64 -/

/-- The whole number nearest to a rational, a half going to the even neighbour. -/
def nearest (q : Rat) : Int :=
  let low := q.floor
  let rest := q - low
  if rest < 1 / 2 then low
  else if 1 / 2 < rest then low + 1
  else if low % 2 = 0 then low
  else low + 1

/-- The exponent of the greatest power of two that is at most the positive `q`. The quotient of the
leading powers of numerator and denominator is that power or the one above it. -/
def binaryExponent (q : Rat) : Int :=
  let e : Int := (q.num.natAbs.log2 : Int) - (q.den.log2 : Int)
  if (2 : Rat) ^ e ≤ q then e else e - 1

/-- The distance between the binary64 numbers around the positive `q`: numbers have 53 binary
digits, and none is finer than `2 ^ (-1074)`. -/
def spacing (q : Rat) : Rat :=
  (2 : Rat) ^ max (binaryExponent q - 52) (-1074)

/-- The binary64 number nearest to a rational. From `2 ^ 1024` on it is an infinity. -/
def round (q : Rat) : Number :=
  if q = 0 then .finite 0
  else
    let size := q.abs
    let rounded := nearest (size / spacing size) * spacing size
    if (2 : Rat) ^ (1024 : Int) ≤ rounded then .infinite (q < 0)
    else .finite (if q < 0 then -rounded else rounded)

/-- The number that `mantissa * 10 ^ exponent` stands for. **The power is formed only where it
matters**: a value of more than 310 whole digits is infinite, one below `10 ^ (-330)` is zero. -/
def ofScientific (negative : Bool) (mantissa : Nat) (exponent : Int) : Number :=
  if mantissa = 0 then .finite 0
  else
    let places : Int := exponent + (Nat.toDigits 10 mantissa).length
    if 310 < places then .infinite negative
    else if places < -330 then .finite 0
    else round ((if negative then -1 else 1) * mantissa * (10 : Rat) ^ exponent)

example : (finite (-3 / 2)).fitted? (-2) 2 = some (-1) := by decide +kernel

example : (finite (5 / 2)).fitted? (-2) 2 = none := by decide +kernel

example : round (2 ^ 53 + 1) = .finite (2 ^ 53) := by decide +kernel

example : ofScientific false 1 400 = .infinite false := by decide +kernel

end Number

end Rcon
