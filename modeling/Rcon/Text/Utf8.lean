import Rcon.Bytes

/-!
# UTF-8 text

Frame bodies are UTF-8. A sender may be wrong about that, so reading never fails: every maximal part
of a character that cannot be continued becomes one `U+FFFD`, and a byte order mark is a character
like any other.

* `Utf8.encode` is the writer.
* `Utf8.decode` is the reader, a machine over `Utf8.State`. Between two characters the state is
  `ready`; inside one it says how many bytes are owed and between which bounds the next one has to
  lie. The bounds of the second byte are what rules out surrogates, overlong forms and code points
  past `U+10FFFF`.
* `Utf8.run_eq_append` and `Utf8.run_cons` open the machine one byte at a time.

A text may have any length here. That a program may have no room for one is a matter of what it asks
for (`Traced.ask`), not of how bytes are read.
-/

namespace Rcon

namespace Utf8

/-! ### Writing -/

/-- The UTF-8 bytes of a list of characters. -/
def encodeChars (cs : List Char) : Bytes :=
  cs.flatMap String.utf8EncodeChar

/-- The UTF-8 bytes of a string. -/
def encode (s : String) : Bytes :=
  encodeChars s.toList

@[simp] theorem encodeChars_nil : encodeChars [] = [] := rfl

@[simp] theorem encodeChars_cons (c : Char) (cs : List Char) :
    encodeChars (c :: cs) = String.utf8EncodeChar c ++ encodeChars cs := by
  simp [encodeChars]

/-! ### The reading machine -/

/-- What the bytes read so far leave open. -/
inductive State
  /-- Every character so far is complete. -/
  | ready
  /-- A character with the bits `code` so far is owed `owed` more bytes, the next of which lies
  between `low` and `high`. -/
  | inside (owed : Nat) (low high : UInt8) (code : Nat)
  deriving DecidableEq, Repr

/-- The character that stands for what cannot be read. -/
def replacement : Char := '\uFFFD'

/-- The character of a finished code point. -/
def charOfCode (code : Nat) : Char :=
  if code.isValidChar then Char.ofNat code else replacement

/-- One byte read at the start of a character: the state it leaves and the characters it
finishes. -/
def start (b : UInt8) : State × List Char :=
  if b < 0x80 then (.ready, [charOfCode b.toNat])
  else if b < 0xC2 then (.ready, [replacement])
  else if b < 0xE0 then (.inside 1 0x80 0xBF (b.toNat - 0xC0), [])
  else if b = 0xE0 then (.inside 2 0xA0 0xBF 0, [])
  else if b = 0xED then (.inside 2 0x80 0x9F 0xD, [])
  else if b < 0xF0 then (.inside 2 0x80 0xBF (b.toNat - 0xE0), [])
  else if b = 0xF0 then (.inside 3 0x90 0xBF 0, [])
  else if b < 0xF4 then (.inside 3 0x80 0xBF (b.toNat - 0xF0), [])
  else if b = 0xF4 then (.inside 3 0x80 0x8F 4, [])
  else (.ready, [replacement])

/-- One byte read in any state. **A byte out of bounds is read again** as the start of the next
character, after a replacement for the part it cut short. -/
def step : State → UInt8 → State × List Char
  | .ready, b => start b
  | .inside owed low high code, b =>
    if low ≤ b ∧ b ≤ high then
      let code := code * 64 + (b.toNat - 0x80)
      if owed ≤ 1 then (.ready, [charOfCode code]) else (.inside (owed - 1) 0x80 0xBF code, [])
    else ((start b).1, replacement :: (start b).2)

/-- The characters owed when the bytes end: a replacement for a character cut short. -/
def finish : State → List Char
  | .ready => []
  | .inside .. => [replacement]

/-- Runs the machine, with the characters read so far newest first. -/
def run (s : State) (seen : List Char) : Bytes → List Char
  | [] => seen.reverse ++ finish s
  | b :: bs => run (step s b).1 ((step s b).2.reverse ++ seen) bs

/-- The characters of a sequence of bytes. -/
def decode (bs : Bytes) : List Char :=
  run .ready [] bs

/-- The text of a sequence of bytes. -/
def text (bs : Bytes) : String :=
  String.ofList (decode bs)

/-! ### The machine one byte at a time -/

/-- The characters already read come first and change nothing else. -/
theorem run_eq_append (s : State) (seen : List Char) (bs : Bytes) :
    run s seen bs = seen.reverse ++ run s [] bs := by
  induction bs generalizing s seen with
  | nil => simp [run]
  | cons b bs ih =>
    rw [run, run, ih, ih _ (_ ++ [])]
    simp

@[simp] theorem run_nil (s : State) : run s [] [] = finish s := by
  simp [run]

theorem run_cons (s : State) (b : UInt8) (bs : Bytes) :
    run s [] (b :: bs) = (step s b).2 ++ run (step s b).1 [] bs := by
  rw [run, run_eq_append]
  simp

@[simp] theorem decode_nil : decode [] = [] := rfl

@[simp] theorem toList_text (bs : Bytes) : (text bs).toList = decode bs := by
  simp [text]

/-- A byte below `0x80` is a character by itself. -/
example : decode [0x6F, 0x6B] = ['o', 'k'] := by decide

/-- A sequence cut short by another start is one replacement, and the start is read. -/
example : decode [0xE2, 0x82, 0x41] = ['\uFFFD', 'A'] := by decide

/-- An encoded surrogate is three parts, none of which can be continued. -/
example : decode [0xED, 0xA0, 0x80] = ['\uFFFD', '\uFFFD', '\uFFFD'] := by decide

end Utf8

end Rcon
