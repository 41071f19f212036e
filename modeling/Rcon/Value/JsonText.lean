import Rcon.Number.Numeral
import Rcon.Value.Basic

/-!
# Reading JSON

The value that a JSON text spells, or where the text stops being JSON and what is said of it. A text
is read unit by unit: `State.step` says where a unit leads, or which rule of the format it breaks,
and `State.finish` is the value if nothing follows, or the rule that is broken then. So reading is a
run of steps, and what a text leads to is what its second part leads to from where its first part
ends.

* `JsonText.read` is the value of a text, or its first fault.
* `Fault.message` is the wording of a fault. Rules with words of their own give the place; of any
  other unit the text around it is shown. Places are counted in UTF-16 units, and the text is taken
  to be a single line.
-/

namespace Rcon

namespace JsonText

/-! ### Faults -/

/-- A rule of the format that is broken. -/
inductive Violation
  /-- No value starts or goes on this way. -/
  | unexpected
  /-- An object that has just been opened goes on with neither a key nor its end. -/
  | noFirstKey
  /-- No key follows a comma. -/
  | noNextKey
  /-- No colon follows a key. -/
  | noColon
  /-- A field is followed by neither a comma nor the end of the object. -/
  | noFieldEnd
  /-- An item is followed by neither a comma nor the end of the array. -/
  | noItemEnd
  /-- No digit follows a sign. -/
  | noDigit
  /-- No digit follows a point. -/
  | noFraction
  /-- An exponent has no digits. -/
  | noExponent
  /-- A string does not end. -/
  | openString
  /-- A control character stands in a string. -/
  | control
  /-- Nothing is escaped this way. -/
  | escape
  /-- A unit is spelled by fewer than four hexadecimal digits. -/
  | unitEscape
  /-- Something follows the value. -/
  | more
  deriving DecidableEq, Repr

/-- A broken rule and the number of units before the place where it is broken. -/
structure Fault where
  /-- The rule. -/
  violation : Violation
  /-- The place. -/
  place : Nat
  deriving DecidableEq, Repr

/-! ### Numerals -/

/-- How far a numeral has been read. -/
inductive Part
  /-- Behind the sign. -/
  | sign
  /-- Behind a zero at the front. -/
  | zero
  /-- Within the whole digits. -/
  | whole
  /-- Behind the point. -/
  | point
  /-- Within the digits behind the point. -/
  | fraction
  /-- Behind the mark of the exponent. -/
  | mark
  /-- Behind the sign of the exponent. -/
  | markSign
  /-- Within the digits of the exponent. -/
  | exponent
  deriving DecidableEq, Repr

namespace Part

/-- The part that a numeral starts with. -/
def first? (c : Char) : Option Part :=
  if c = '-' then some .sign
  else if c = '0' then some .zero
  else if c.isDigit then some .whole
  else none

/-- Does a character mark an exponent? -/
def isMark (c : Char) : Bool :=
  c = 'e' || c = 'E'

/-- The part that a character leads to; there is none if the numeral has ended before it. -/
def next (part : Part) (c : Char) : Except Violation (Option Part) :=
  match part with
  | .sign =>
    if c = '0' then .ok (some .zero)
    else if c.isDigit then .ok (some .whole)
    else .error .noDigit
  | .zero =>
    if c.isDigit then .error .unexpected
    else if c = '.' then .ok (some .point)
    else .ok (if isMark c then some .mark else none)
  | .whole =>
    if c.isDigit then .ok (some .whole)
    else if c = '.' then .ok (some .point)
    else .ok (if isMark c then some .mark else none)
  | .point => if c.isDigit then .ok (some .fraction) else .error .noFraction
  | .fraction =>
    if c.isDigit then .ok (some .fraction)
    else .ok (if isMark c then some .mark else none)
  | .mark =>
    if c = '+' || c = '-' then .ok (some .markSign)
    else if c.isDigit then .ok (some .exponent)
    else .error .noExponent
  | .markSign => if c.isDigit then .ok (some .exponent) else .error .noExponent
  | .exponent => .ok (if c.isDigit then some .exponent else none)

/-- The rule that is broken by a numeral that ends with this part. -/
def ending? : Part → Option Violation
  | .sign => some .noDigit
  | .point => some .noFraction
  | .mark | .markSign => some .noExponent
  | .zero | .whole | .fraction | .exponent => none

end Part

/-! ### States -/

/-- What a value is part of, with what stands before it there, newest first. -/
inductive Context
  /-- An item of an array. -/
  | item (before : List Value)
  /-- The value of a field. -/
  | field (before : List (Units × Value)) (key : Units)

/-- What a string is read for. -/
inductive Purpose
  /-- The string is a value. -/
  | value
  /-- The string is a key, behind these fields. -/
  | key (before : List (Units × Value))

/-- What has been read last, and so what may follow. -/
inductive Phase
  /-- A value follows. -/
  | value
  /-- The first item of an array follows, or the end of it. -/
  | firstItem
  /-- The first key of an object follows, or the end of it. -/
  | firstKey
  /-- A key follows, behind these fields. -/
  | nextKey (before : List (Units × Value))
  /-- A colon follows, behind this key. -/
  | colon (before : List (Units × Value)) (key : Units)
  /-- A value is complete. -/
  | ended (value : Value)
  /-- Within a string of which this has been read, newest first. -/
  | string (purpose : Purpose) (seen : Units)
  /-- Behind the backslash of a string. -/
  | escape (purpose : Purpose) (seen : Units)
  /-- Within the spelling of a unit: the number so far, and how many digits follow the next one. -/
  | unitEscape (purpose : Purpose) (seen : Units) (code more : Nat)
  /-- Within a word for a value, of which these characters are missing. -/
  | word (next : Char) (rest : List Char) (value : Value)
  /-- Within a numeral of which this has been read, newest first. -/
  | number (part : Part) (seen : List Char)

/-- How far a text has been read. -/
structure State where
  /-- What has been read last. -/
  phase : Phase := .value
  /-- What the present value is part of, innermost first. -/
  contexts : List Context := []

/-- The characters that may stand between the parts of a text. -/
def isSpace (c : Char) : Bool :=
  c = ' ' || c = '\t' || c = '\n' || c = '\r'

/-- The unit that a letter behind a backslash stands for. -/
def unescaped? (c : Char) : Option UInt16 :=
  match c with
  | '"' => some 0x22
  | '\\' => some 0x5C
  | '/' => some 0x2F
  | 'b' => some 0x08
  | 'f' => some 0x0C
  | 'n' => some 0x0A
  | 'r' => some 0x0D
  | 't' => some 0x09
  | _ => none

namespace State

/-- Starts a value. -/
def start (contexts : List Context) (c : Char) : Except Violation State :=
  match c with
  | '"' => .ok ⟨.string .value [], contexts⟩
  | '{' => .ok ⟨.firstKey, contexts⟩
  | '[' => .ok ⟨.firstItem, contexts⟩
  | 't' => .ok ⟨.word 'r' ['u', 'e'] (.bool true), contexts⟩
  | 'f' => .ok ⟨.word 'a' ['l', 's', 'e'] (.bool false), contexts⟩
  | 'n' => .ok ⟨.word 'u' ['l', 'l'] .null, contexts⟩
  | c =>
    match Part.first? c with
    | some part => .ok ⟨.number part [c], contexts⟩
    | none => .error .unexpected

/-- Goes on behind a value. -/
def follow (contexts : List Context) (value : Value) (c : Char) : Except Violation State :=
  if isSpace c then .ok ⟨.ended value, contexts⟩
  else
    match contexts with
    | [] => .error .more
    | .item before :: outer =>
      if c = ',' then .ok ⟨.value, .item (value :: before) :: outer⟩
      else if c = ']' then .ok ⟨.ended (.array (value :: before).reverse), outer⟩
      else .error .noItemEnd
    | .field before key :: outer =>
      if c = ',' then .ok ⟨.nextKey ((key, value) :: before), outer⟩
      else if c = '}' then
        .ok ⟨.ended (.object (Fields.ofPairs ((key, value) :: before).reverse)), outer⟩
      else .error .noFieldEnd

/-- Ends a string. -/
def close (contexts : List Context) (text : Units) : Purpose → State
  | .value => ⟨.ended (.text text), contexts⟩
  | .key before => ⟨.colon before text, contexts⟩

/-- The number that a numeral read so far stands for. -/
def numeral (seen : List Char) : Value :=
  .number (Number.ofNumeral seen.reverse)

/-- Reads a unit. -/
def step (state : State) (u : UInt16) : Except Violation State :=
  let contexts := state.contexts
  let c := Units.toChar u
  match state.phase with
  | .value => if isSpace c then .ok state else start contexts c
  | .firstItem =>
    if isSpace c then .ok state
    else if c = ']' then .ok ⟨.ended (.array []), contexts⟩
    else start (.item [] :: contexts) c
  | .firstKey =>
    if isSpace c then .ok state
    else if c = '"' then .ok ⟨.string (.key []) [], contexts⟩
    else if c = '}' then .ok ⟨.ended (.object []), contexts⟩
    else .error .noFirstKey
  | .nextKey before =>
    if isSpace c then .ok state
    else if c = '"' then .ok ⟨.string (.key before) [], contexts⟩
    else .error .noNextKey
  | .colon before key =>
    if isSpace c then .ok state
    else if c = ':' then .ok ⟨.value, .field before key :: contexts⟩
    else .error .noColon
  | .ended value => follow contexts value c
  | .string purpose seen =>
    if c = '"' then .ok (close contexts seen.reverse purpose)
    else if c = '\\' then .ok ⟨.escape purpose seen, contexts⟩
    else if c < ' ' then .error .control
    else .ok ⟨.string purpose (u :: seen), contexts⟩
  | .escape purpose seen =>
    if c = 'u' then .ok ⟨.unitEscape purpose seen 0 3, contexts⟩
    else
      match unescaped? c with
      | some v => .ok ⟨.string purpose (v :: seen), contexts⟩
      | none => .error .escape
  | .unitEscape purpose seen code more =>
    match Number.digit? 16 c, more with
    | none, _ => .error .unitEscape
    | some d, 0 => .ok ⟨.string purpose (UInt16.ofNat (16 * code + d) :: seen), contexts⟩
    | some d, n + 1 => .ok ⟨.unitEscape purpose seen (16 * code + d) n, contexts⟩
  | .word next rest value =>
    if c = next then
      match rest with
      | [] => .ok ⟨.ended value, contexts⟩
      | next :: rest => .ok ⟨.word next rest value, contexts⟩
    else .error .unexpected
  | .number part seen =>
    match part.next c with
    | .ok (some part) => .ok ⟨.number part (c :: seen), contexts⟩
    | .ok none => follow contexts (numeral seen) c
    | .error violation => .error violation

/-- The value of a text that ends behind a value. -/
def finishValue (contexts : List Context) (value : Value) : Except Violation Value :=
  match contexts with
  | [] => .ok value
  | .item _ :: _ => .error .noItemEnd
  | .field .. :: _ => .error .noFieldEnd

/-- The value of a text that ends here. -/
def finish (state : State) : Except Violation Value :=
  match state.phase with
  | .value | .firstItem | .word .. => .error .unexpected
  | .firstKey => .error .noFirstKey
  | .nextKey _ => .error .noNextKey
  | .colon .. => .error .noColon
  | .ended value => finishValue state.contexts value
  | .string .. | .escape .. => .error .openString
  | .unitEscape .. => .error .unitEscape
  | .number part seen =>
    match part.ending? with
    | some violation => .error violation
    | none => finishValue state.contexts (numeral seen)

end State

/-! ### Reading -/

/-- The value of a text that is read from a state on, behind so many units. -/
def readFrom (state : State) (place : Nat) : Units → Except Fault Value
  | [] =>
    match state.finish with
    | .ok value => .ok value
    | .error violation => .error ⟨violation, place⟩
  | u :: rest =>
    match state.step u with
    | .ok next => readFrom next (place + 1) rest
    | .error violation => .error ⟨violation, place⟩

/-- The value of a text, or its first fault. -/
def read (text : Units) : Except Fault Value :=
  readFrom {} 0 text

/-- A fault is found at a unit of the text or at its end. -/
theorem place_le_of_readFrom {fault : Fault} :
    ∀ {text : Units} {state : State} {place : Nat},
      readFrom state place text = .error fault → fault.place ≤ place + text.length
  | [], state, place, h => by
    rw [readFrom] at h
    split at h
    · cases h
    · cases h
      exact Nat.le_add_right ..
  | u :: rest, state, place, h => by
    rw [readFrom] at h
    split at h
    · have := place_le_of_readFrom h
      rw [List.length_cons]
      omega
    · cases h
      exact Nat.le_add_right ..

/-! ### Wording -/

/-- The words of a rule that has some. -/
def Violation.text? : Violation → Option String
  | .unexpected => none
  | .noFirstKey => some "Expected property name or '\x7d' in JSON"
  | .noNextKey => some "Expected double-quoted property name in JSON"
  | .noColon => some "Expected ':' after property name in JSON"
  | .noFieldEnd => some "Expected ',' or '\x7d' after property value in JSON"
  | .noItemEnd => some "Expected ',' or ']' after array element in JSON"
  | .noDigit => some "No number after minus sign in JSON"
  | .noFraction => some "Unterminated fractional number in JSON"
  | .noExponent => some "Exponent part is missing a number in JSON"
  | .openString => some "Unterminated string in JSON"
  | .control => some "Bad control character in string literal in JSON"
  | .escape => some "Bad escaped character in JSON"
  | .unitEscape => some "Bad Unicode escape in JSON"
  | .more => some "Unexpected non-whitespace character after JSON"

/-- Words for a place. -/
def located (words : String) (place : Nat) : String :=
  words ++ " at position " ++ toString place ++ " (line 1 column " ++ toString (place + 1) ++ ")"

/-- The text around a place, in quotes: ten units to either side, with dots where something is left
out. A text of at most twenty units is shown whole. -/
def excerpt (text : Units) (place : Nat) : Units :=
  let dots := Units.ofString "..."
  if text.length ≤ 20 then 0x22 :: (text ++ [0x22])
  else
    (if 10 ≤ place then dots else []) ++
      0x22 :: ((text.take (place + 10)).drop (place - 10) ++ [0x22]) ++
      (if place + 10 < text.length then dots else [])

/-- What is said of the unit at a place that may not stand there, or of the end of the text. -/
def unexpected (text : Units) (place : Nat) : String :=
  match text[place]? with
  | none => "Unexpected end of JSON input"
  | some u =>
    let c := Units.toChar u
    if c.isDigit || c = '-' then located "Unexpected number in JSON" place
    else if c = '"' then located "Unexpected string in JSON" place
    else
      "Unexpected token '" ++ Units.toString [u] ++ "', " ++ Units.toString (excerpt text place) ++
        " is not valid JSON"

/-- The wording of a fault of a text. -/
def Fault.message (fault : Fault) (text : Units) : String :=
  match fault.violation.text? with
  | some words => located words fault.place
  | none => unexpected text fault.place

example : read (Units.ofString "[true, \"\\ud83d\"]") =
    .ok (.array [.bool true, .text [0xD83D]]) := by rfl

example : read (Units.ofString "[1,]") = .error ⟨.unexpected, 3⟩ := by rfl

example : read (Units.ofString "[-Infinity]") = .error ⟨.noDigit, 2⟩ := by rfl

end JsonText

end Rcon
