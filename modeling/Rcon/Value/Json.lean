import Rcon.Number.Shortest
import Rcon.Value.Basic

/-!
# Values in JSON

The JSON text of a value, on one line and without spaces. Numbers that JSON cannot write are `null`;
a field without a value is left out, and an item without a value is `null`.

Strings escape the quote, the backslash, the control characters and unpaired surrogates, and nothing
else: every other unit stands for itself, and so does a surrogate pair. So a text never ends early,
and no line break stands in it.
-/

namespace Rcon

namespace Units

/-! ### Quoted text -/

/-- A lower-case hexadecimal digit. -/
def hexDigit (n : Nat) : UInt16 :=
  UInt16.ofNat ((Nat.digitChar (n % 16)).toNat)

/-- A unit as `\u` and four hexadecimal digits. -/
def hexEscape (u : UInt16) : Units :=
  let n := u.toNat
  [0x5C, 0x75, hexDigit (n / 4096), hexDigit (n / 256), hexDigit (n / 16), hexDigit n]

/-- The escapes of two units. -/
def shortEscape? (u : UInt16) : Option Units :=
  if u = 0x22 then some [0x5C, 0x22]
  else if u = 0x5C then some [0x5C, 0x5C]
  else if u = 0x08 then some [0x5C, 0x62]
  else if u = 0x09 then some [0x5C, 0x74]
  else if u = 0x0A then some [0x5C, 0x6E]
  else if u = 0x0C then some [0x5C, 0x66]
  else if u = 0x0D then some [0x5C, 0x72]
  else none

/-- A unit within quotes, when it is half of no pair. -/
def escapeUnit (u : UInt16) : Units :=
  match shortEscape? u with
  | some e => e
  | none => if u < 0x20 || isSurrogate u then hexEscape u else [u]

/-- Units within quotes, put before those already written, which are newest first. -/
def escapeOnto (seen : Units) : Units → Units
  | [] => seen.reverse
  | [u] => ((escapeUnit u).reverse ++ seen).reverse
  | u :: v :: rest =>
    if isLead u && isTrail v then escapeOnto (v :: u :: seen) rest
    else escapeOnto ((escapeUnit u).reverse ++ seen) (v :: rest)

/-- Text in quotes. -/
def quoted (units : Units) : Units :=
  0x22 :: (escapeOnto [] units ++ [0x22])

end Units

namespace Value

/-! ### Values -/

/-- The JSON text of a number. -/
def numberJson : Number → Units
  | .finite q => Units.ofChars (Number.finite q).chars
  | _ => Units.ofString "null"

mutual

/-- The JSON text of a value; one that is not given is `null`. -/
def json : Value → Units
  | .undefined => Units.ofString "null"
  | .null => Units.ofString "null"
  | .bool true => Units.ofString "true"
  | .bool false => Units.ofString "false"
  | .number n => numberJson n
  | .text u => Units.quoted u
  | .array items => 0x5B :: (Units.joined 0x2C (jsonItems items) ++ [0x5D])
  | .object fields => 0x7B :: (Units.joined 0x2C (jsonFields fields) ++ [0x7D])

/-- The JSON texts of the items of an array. -/
def jsonItems : List Value → List Units
  | [] => []
  | v :: rest => json v :: jsonItems rest

/-- The JSON texts of the fields of an object that have a value. -/
def jsonFields : List (Units × Value) → List Units
  | [] => []
  | (_, .undefined) :: rest => jsonFields rest
  | (key, v) :: rest => (Units.quoted key ++ 0x3A :: json v) :: jsonFields rest

end

end Value

end Rcon
