import Rcon.Number.Basic
import Rcon.Text.Units

/-!
# Dynamic values

Settings and log fields are data of any shape, so both are read as a `Value`: `undefined`, `null`,
truth values, numbers, texts, and arrays and objects of these at any depth. A key that is present
without a value has the value `undefined`.

**Objects are plain**: there is no more to one than its fields. Nothing is said of functions,
symbols, big integers, objects without a prototype or objects that contain themselves, nor of
objects with a function among their fields.

An object is the list of its fields in the order in which they are written out. `Fields.set` keeps
that order: a key that is already there keeps its place and takes the new value; a key that is an
array index goes before every other key, among the indices by size; any other key goes last.
-/

namespace Rcon

/-- Data of any shape. -/
inductive Value
  | undefined
  | null
  | bool (b : Bool)
  | number (n : Number)
  | text (units : Units)
  | array (items : List Value)
  | object (fields : List (Units × Value))
  deriving Inhabited

/-- Fields in the order in which they are written out. -/
abbrev Fields := List (Units × Value)

namespace Value

/-- A string as a value. -/
def ofString (s : String) : Value :=
  .text (Units.ofString s)

/-- A whole number as a value. -/
def ofInt (n : Int) : Value :=
  .number (.ofInt n)

/-- A natural number as a value. -/
def ofNat (n : Nat) : Value :=
  .number (.ofNat n)

/-- Is a value given at all? -/
def isDefined : Value → Bool
  | .undefined => false
  | _ => true

end Value

namespace Fields

/-! ### Array indices -/

/-- The first number that is too great for an array index. -/
def indexBound : Nat := 4294967295

/-- The array index that a key spells: a decimal below the bound without a zero in front. -/
def index? (key : Units) : Option Nat :=
  let digits := key.map Units.toChar
  let n := Nat.ofDigitChars 10 digits 0
  if Nat.toDigits 10 n = digits ∧ n < indexBound then some n else none

/-- Does a new key stand before an old one? Only an index does: before all that is no index, and
before the indices above it. -/
def precedes (new old : Units) : Bool :=
  match index? new, index? old with
  | some m, some n => m < n
  | some _, none => true
  | none, _ => false

/-! ### Reading and writing fields -/

/-- The value of a key. -/
def get? (key : Units) : Fields → Option Value
  | [] => none
  | (k, v) :: rest => if k = key then some v else get? key rest

/-- The value of a key, `undefined` where there is none. -/
def get (fields : Fields) (key : Units) : Value :=
  (fields.get? key).getD .undefined

/-- Puts a new key where it belongs. -/
def insert (key : Units) (value : Value) : Fields → Fields
  | [] => [(key, value)]
  | (k, v) :: rest =>
    if precedes key k then (key, value) :: (k, v) :: rest else (k, v) :: insert key value rest

/-- Gives a key that is there a new value, in its place. -/
def replace (key : Units) (value : Value) : Fields → Fields
  | [] => []
  | (k, v) :: rest => if k = key then (k, value) :: rest else (k, v) :: replace key value rest

/-- Gives a key a value, in its place or where it belongs. -/
def set (fields : Fields) (key : Units) (value : Value) : Fields :=
  if (fields.get? key).isSome then replace key value fields else insert key value fields

/-- Gives the keys of `more` their values, one after the other. -/
def merge (fields more : Fields) : Fields :=
  more.foldl (fun fs f ↦ set fs f.1 f.2) fields

/-- The fields that writing the given pairs one after the other makes. -/
def ofPairs (pairs : List (Units × Value)) : Fields :=
  merge [] pairs

/-- The keys, in order. -/
def keys (fields : Fields) : List Units :=
  fields.map Prod.fst

/-! ### What writing does to reading -/

theorem get?_insert (fields : Fields) (key : Units) (value : Value) (other : Units)
    (h : fields.get? key = none) :
    (insert key value fields).get? other =
      if key = other then some value else fields.get? other := by
  induction fields with
  | nil => simp [insert, get?]
  | cons f rest ih =>
    obtain ⟨k, v⟩ := f
    have hk : k ≠ key := by
      intro hk
      simp [get?, hk] at h
    have hrest : get? key rest = none := by simpa [get?, hk] using h
    unfold insert
    split
    · simp [get?]
    · by_cases ho : k = other
      · subst ho
        simp [get?, Ne.symm hk]
      · simp [get?, ho, ih hrest]

theorem get?_replace (fields : Fields) (key : Units) (value : Value) (other : Units)
    (h : (fields.get? key).isSome = true) :
    (replace key value fields).get? other =
      if key = other then some value else fields.get? other := by
  induction fields with
  | nil => simp [get?] at h
  | cons f rest ih =>
    obtain ⟨k, v⟩ := f
    unfold replace
    by_cases hk : k = key
    · subst hk
      by_cases ho : k = other <;> simp [get?, ho]
    · have hrest : (get? key rest).isSome = true := by simpa [get?, hk] using h
      by_cases ho : k = other
      · subst ho
        simp [get?, hk, Ne.symm hk]
      · simp [get?, hk, ho, ih hrest]

/-- **A written key reads as written, and every other key as before.** -/
theorem get?_set (fields : Fields) (key : Units) (value : Value) (other : Units) :
    (fields.set key value).get? other = if key = other then some value else fields.get? other := by
  unfold set
  split
  · next h => exact get?_replace fields key value other h
  · next h => exact get?_insert fields key value other (by simpa using h)

/-! ### What writing keeps -/

theorem mem_of_mem_insert {key : Units} {value : Value} {fields : Fields} {f : Units × Value}
    (h : f ∈ insert key value fields) : f = (key, value) ∨ f ∈ fields := by
  induction fields with
  | nil => exact .inl (List.mem_singleton.1 h)
  | cons g rest ih =>
    obtain ⟨k, v⟩ := g
    unfold insert at h
    split at h
    · exact List.mem_cons.1 h
    · obtain rfl | h := List.mem_cons.1 h
      · exact .inr (List.mem_cons_self ..)
      · exact (ih h).imp_right (List.mem_cons_of_mem _)

theorem mem_of_mem_replace {key : Units} {value : Value} {fields : Fields} {f : Units × Value}
    (h : f ∈ replace key value fields) : f = (key, value) ∨ f ∈ fields := by
  induction fields with
  | nil => cases h
  | cons g rest ih =>
    obtain ⟨k, v⟩ := g
    unfold replace at h
    split at h
    · next hk =>
      obtain rfl | h := List.mem_cons.1 h
      · exact .inl (by rw [hk])
      · exact .inr (List.mem_cons_of_mem _ h)
    · obtain rfl | h := List.mem_cons.1 h
      · exact .inr (List.mem_cons_self ..)
      · exact (ih h).imp_right (List.mem_cons_of_mem _)

theorem mem_of_mem_set {fields : Fields} {key : Units} {value : Value} {f : Units × Value}
    (h : f ∈ fields.set key value) : f = (key, value) ∨ f ∈ fields := by
  unfold set at h
  split at h
  · exact mem_of_mem_replace h
  · exact mem_of_mem_insert h

/-- Fields that are merged come from one side or the other. -/
theorem mem_of_mem_merge {fields more : Fields} {f : Units × Value} (h : f ∈ merge fields more) :
    f ∈ fields ∨ f ∈ more := by
  induction more generalizing fields with
  | nil => exact .inl h
  | cons g rest ih =>
    obtain hset | hrest := ih h
    · obtain rfl | hset := mem_of_mem_set hset
      · exact .inr (List.mem_cons_self ..)
      · exact .inl hset
    · exact .inr (List.mem_cons_of_mem _ hrest)

end Fields

end Rcon
