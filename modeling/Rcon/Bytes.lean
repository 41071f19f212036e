/-!
# Bytes

Reading and writing at places within a sequence of bytes. Whole numbers on the wire have 32 bits,
least significant byte first, and are signed.

**A read outside the bytes has no result.** `Bytes.byte?`, `Bytes.int32?` and `Bytes.slice?` are
`none` there, and `some` exactly where every byte they ask for is present.
-/

namespace Rcon

/-- A sequence of bytes. -/
abbrev Bytes := List UInt8

namespace Bytes

/-! ### Signed 32-bit numbers -/

/-- How many numbers 32 bits can tell apart. -/
def wordCount : Nat := 4294967296

/-- The signed number of four bytes, least significant first. -/
def toInt32 (a b c d : UInt8) : Int :=
  ((a.toNat + 256 * b.toNat + 65536 * c.toNat + 16777216 * d.toNat : Nat) : Int).bmod wordCount

/-- The four bytes of a number, least significant first; bits above the 32nd are dropped. -/
def ofInt32 (n : Int) : Bytes :=
  let word := (n % wordCount).toNat
  [UInt8.ofNat (word % 256), UInt8.ofNat (word / 256 % 256), UInt8.ofNat (word / 65536 % 256),
    UInt8.ofNat (word / 16777216)]

/-- The least signed 32-bit number. -/
def int32Least : Int := -2147483648

/-- The greatest signed 32-bit number. -/
def int32Greatest : Int := 2147483647

/-- Is a number a signed 32-bit number? -/
def isInt32 (n : Int) : Bool :=
  int32Least ≤ n && n ≤ int32Greatest

@[simp] theorem length_ofInt32 (n : Int) : (ofInt32 n).length = 4 := rfl

theorem isInt32_bmod (n : Int) : isInt32 (n.bmod wordCount) = true := by
  have hlt := Int.bmod_lt (x := n) (m := wordCount) (by decide)
  have hle := Int.le_bmod (x := n) (m := wordCount) (by decide)
  simp only [isInt32, Bool.and_eq_true, decide_eq_true_eq]
  simp only [wordCount, int32Least, int32Greatest] at hlt hle ⊢
  omega

/-- Every number on the wire is a signed 32-bit number. -/
theorem isInt32_toInt32 (a b c d : UInt8) : isInt32 (toInt32 a b c d) = true :=
  isInt32_bmod _

/-! ### Reading at a place -/

/-- The byte at a place. -/
def byte? (bytes : Bytes) (i : Nat) : Option UInt8 :=
  bytes[i]?

/-- The signed 32-bit number at a place. -/
def int32? (bytes : Bytes) (i : Nat) : Option Int :=
  match bytes.drop i with
  | a :: b :: c :: d :: _ => some (toInt32 a b c d)
  | _ => none

/-- The bytes from one place up to another. -/
def slice? (bytes : Bytes) (first last : Nat) : Option Bytes :=
  let upTo := bytes.take last
  if first ≤ last ∧ upTo.length = last then some (upTo.drop first) else none

theorem byte?_isSome (bytes : Bytes) (i : Nat) : (byte? bytes i).isSome ↔ i < bytes.length := by
  simp [byte?]

theorem int32?_isSome (bytes : Bytes) (i : Nat) :
    (int32? bytes i).isSome ↔ i + 4 ≤ bytes.length := by
  have hlen : (bytes.drop i).length = bytes.length - i := List.length_drop
  unfold int32?
  split
  · next heq =>
    rw [heq] at hlen
    simp only [List.length_cons] at hlen
    simp only [Option.isSome_some, true_iff]
    omega
  · next hne =>
    simp only [Option.isSome_none, Bool.false_eq_true, false_iff]
    intro h
    match hd : bytes.drop i with
    | a :: b :: c :: d :: rest => exact hne a b c d rest hd
    | [] | [_] | [_, _] | [_, _, _] =>
      rw [hd] at hlen
      simp only [List.length_cons, List.length_nil] at hlen
      omega

theorem slice?_isSome (bytes : Bytes) (first last : Nat) :
    (slice? bytes first last).isSome ↔ first ≤ last ∧ last ≤ bytes.length := by
  have h : (bytes.take last).length = last ↔ last ≤ bytes.length := by
    rw [List.length_take]
    omega
  simp only [slice?, h]
  split <;> simp_all

theorem slice?_eq_some {bytes : Bytes} {first last : Nat} (h : first ≤ last)
    (h' : last ≤ bytes.length) :
    slice? bytes first last = some ((bytes.take last).drop first) := by
  have hlen : (bytes.take last).length = last := by
    rw [List.length_take]
    omega
  simp only [slice?, hlen]
  simp [h]

example : toInt32 0xFF 0xFF 0xFF 0xFF = -1 := by decide

example : ofInt32 (-2) = [0xFE, 0xFF, 0xFF, 0xFF] := by decide

end Bytes

end Rcon
