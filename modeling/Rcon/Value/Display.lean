import Rcon.Number.Shortest
import Rcon.Value.Basic

/-!
# Values in plain text

How a value reads in a plain log line. Texts stand as they are, without quotes; the items of an
array are joined by commas, `null` and `undefined` among them as nothing, and an array within it in
the same way; an object shows only that it is one.

**An object with a field `toString` has no text**: the name is kept for what makes the text of an
object, and no value can do that. So neither has an array that holds such an object, at any depth; a
field of an object does not matter, because it is not shown.
-/

namespace Rcon

namespace Value

/-- The key under which an object would say how it reads as text. -/
def textKey : Units :=
  Units.ofString "toString"

mutual

/-- The plain text of a value, if it has one. -/
def display? : Value → Option Units
  | .undefined => some (Units.ofString "undefined")
  | .null => some (Units.ofString "null")
  | .bool true => some (Units.ofString "true")
  | .bool false => some (Units.ofString "false")
  | .number n => some (Units.ofChars n.chars)
  | .text u => some u
  | .array items => (displayItems? items).map (Units.joined 0x2C)
  | .object fields =>
    match Fields.get? textKey fields with
    | some _ => none
    | none => some (Units.ofString "[object Object]")

/-- The plain texts of the items of an array, if they all have one. -/
def displayItems? : List Value → Option (List Units)
  | [] => some []
  | .null :: rest => (displayItems? rest).map ([] :: ·)
  | .undefined :: rest => (displayItems? rest).map ([] :: ·)
  | v :: rest => do
    let shown ← display? v
    let others ← displayItems? rest
    return shown :: others

end

end Value

end Rcon
