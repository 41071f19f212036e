import Rcon.Number.Basic

/-!
# The shortest text of a number

A finite number is written with the fewest decimal digits that read back as the same number; of two
such decimals with as many digits the nearer is taken, and of two as near the even one.

* `Number.shortest` searches the decimal grids from one digit to seventeen. If a point of a grid
  reads back, one of the number's two neighbours on that grid does, so only those are tried;
  seventeen digits are always enough.
* `Number.Layout` is where positional notation ends, and `Number.text` writes the digits out.

A whole number below `2 ^ 53` is written by its own digits. That is the same rule: whole decimals
that read back as such a number are equal to it.
-/

namespace Rcon

namespace Number

/-! ### The digits -/

/-- A decimal `digits * 10 ^ exponent`. -/
structure Decimal where
  /-- The digits, as one whole number. -/
  digits : Nat
  /-- The power of ten of the last digit. -/
  exponent : Int
  deriving DecidableEq, Repr

/-- The exponent of the greatest power of ten that is at most the positive `q`. -/
def decimalExponent (q : Rat) : Int :=
  let e : Int :=
    ((Nat.toDigits 10 q.num.natAbs).length : Int) - ((Nat.toDigits 10 q.den).length : Int)
  if (10 : Rat) ^ e ≤ q then e else e - 1

/-- The point of the grid of step `10 ^ exponent` that reads back as the positive `q`, if there is
one: the nearer of the two neighbours of `q`, or the one of them that does. -/
def onGrid? (q : Rat) (exponent : Int) : Option Nat :=
  let step := (10 : Rat) ^ exponent
  let low := (q / step).floor.toNat
  let near := (nearest (q / step)).toNat
  let far := if near = low then low + 1 else low
  let readsBack (n : Nat) : Bool := round (n * step) = .finite q
  if readsBack near then some near
  else if readsBack far then some far
  else none

/-- The decimal with the fewest digits that reads back as the positive `q`. -/
def shortest (q : Rat) : Decimal :=
  let last := decimalExponent q - 16
  let grids := (List.range 17).map fun (k : Nat) ↦ decimalExponent q - k
  match grids.findSome? fun e ↦ (onGrid? q e).map (Decimal.mk · e) with
  | some d => d
  | none => ⟨(nearest (q / (10 : Rat) ^ last)).toNat, last⟩

/-! ### Writing the digits out -/

/-- Where positional notation ends: the point may stand at most `most` places after the first digit,
and more than `least` places before it. Outside that range an exponent is written. -/
structure Layout where
  /-- The greatest number of whole digits. -/
  most : Int
  /-- The bound on the place of the point, below which an exponent is written. -/
  least : Int

/-- Numbers are positional from `10 ^ (-6)` up to `10 ^ 21`. -/
def layout : Layout :=
  ⟨21, -6⟩

/-- The digits of a decimal, without the zeros at their end. -/
def significant (digits : Nat) : List Char :=
  ((Nat.toDigits 10 digits).reverse.dropWhile (· = '0')).reverse

/-- Digits with the point after the first `point` places, or with an exponent. -/
def place (l : Layout) (digits : List Char) (point : Int) : List Char :=
  if digits.length ≤ point ∧ point ≤ l.most then
    digits ++ List.replicate (point - digits.length).toNat '0'
  else if 0 < point ∧ point ≤ l.most then
    digits.take point.toNat ++ '.' :: digits.drop point.toNat
  else if l.least < point ∧ point ≤ 0 then
    '0' :: '.' :: (List.replicate (-point).toNat '0' ++ digits)
  else
    let exponent := point - 1
    let fraction := if digits.length ≤ 1 then [] else '.' :: digits.drop 1
    digits.take 1 ++ fraction ++ 'e' :: (if exponent < 0 then '-' else '+') ::
      Nat.toDigits 10 exponent.natAbs

/-- The bound `2 ^ 53` below which every whole number is a binary64 number. -/
def exactBound : Int := 9007199254740992

/-- The characters of a positive rational. -/
def positiveChars (q : Rat) : List Char :=
  if q.den = 1 ∧ q.num < exactBound then Nat.toDigits 10 q.num.toNat
  else
    let d := shortest q
    let places : Int := (Nat.toDigits 10 d.digits).length
    place layout (significant d.digits) (places + d.exponent)

/-- The characters of a number. -/
def chars : Number → List Char
  | .nan => "NaN".toList
  | .infinite false => "Infinity".toList
  | .infinite true => "-Infinity".toList
  | .finite q =>
    if q = 0 then ['0']
    else if q < 0 then '-' :: positiveChars (-q)
    else positiveChars q

/-- The text of a number. -/
def text (n : Number) : String :=
  String.ofList n.chars

example : chars (ofScientific false 1 (-7)) = "1e-7".toList := by decide +kernel

example : chars (ofScientific false 5 (-324)) = "5e-324".toList := by decide +kernel

example : chars (ofScientific true 123456789012345678901 0) = "-123456789012345680000".toList := by
  decide +kernel

example : chars (ofScientific false 15 20) = "1.5e+21".toList := by decide +kernel

end Number

end Rcon
