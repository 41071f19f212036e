import Rcon.Log.Settings
import Rcon.Value.Display
import Rcon.Value.Json

/-!
# Log lines

A line is the text of an entry, and an entry is a list of fields: the time, the level, the
component, the message, and whatever else a record says. A record may give any of the first four a
value of its own; the field then keeps its place.

In plain text the four stand first, in brackets where they had no name, and the other fields follow
as `key=value`. As JSON an entry is one object. An entry with a value that has no text has no plain
line.
-/

namespace Rcon.Log

/-- A time, as lines show it. -/
structure Timestamp where
  /-- The text of the time. -/
  text : String
  /-- The text stays within its line. -/
  newline_notMem : '\n' ∉ text.toList := by decide
  deriving DecidableEq, Repr

/-- What is logged: a level, a message, and fields. -/
structure Record where
  /-- How serious it is. -/
  level : Level
  /-- What happened. -/
  message : String
  /-- What is to be said about it. -/
  fields : Fields := []

namespace Entry

/-- The key of the time. -/
def timeKey : Units := Units.ofString "ts"

/-- The key of the level. -/
def levelKey : Units := Units.ofString "level"

/-- The key of the component. -/
def componentKey : Units := Units.ofString "component"

/-- The key of the message. -/
def messageKey : Units := Units.ofString "msg"

/-- The entry of a record. -/
def ofRecord (time : Timestamp) (component : String) (record : Record) : Fields :=
  Fields.merge
    [(timeKey, .ofString time.text), (levelKey, .ofString record.level.name),
      (componentKey, .ofString component), (messageKey, .ofString record.message)]
    record.fields

/-- Has a key a place of its own in a plain line? -/
def isLeading (key : Units) : Bool :=
  key = timeKey || key = levelKey || key = componentKey || key = messageKey

/-- The fields of a plain line that have no place of their own. -/
def plainFields? : Fields → Option Units
  | [] => some []
  | (key, value) :: rest =>
    if isLeading key then plainFields? rest
    else do
      let shown ← value.display?
      let others ← plainFields? rest
      return 0x20 :: (key ++ 0x3D :: (shown ++ others))

/-- An entry as plain text. -/
def plain? (entry : Fields) : Option Units := do
  let time ← (entry.get timeKey).display?
  let level ← (entry.get levelKey).display?
  let component ← (entry.get componentKey).display?
  let message ← (entry.get messageKey).display?
  let others ← plainFields? entry
  return time ++ [0x20, 0x5B] ++ level ++ [0x5D, 0x20, 0x5B] ++ component ++ [0x5D, 0x20] ++
    message ++ others

/-- An entry as a line, if it has one. -/
def line? (format : Format) (entry : Fields) : Option Units :=
  match format with
  | .plain => plain? entry
  | .json => some (Value.object entry).json

theorem isSome_plainFields? {entry : Fields} (h : ∀ f ∈ entry, f.2.display?.isSome = true) :
    (plainFields? entry).isSome = true := by
  induction entry with
  | nil => rfl
  | cons f rest ih =>
    obtain ⟨key, value⟩ := f
    obtain ⟨shown, hshown⟩ := Option.isSome_iff_exists.1 (h _ (List.mem_cons_self ..))
    obtain ⟨others, hothers⟩ :=
      Option.isSome_iff_exists.1 (ih fun f hf ↦ h f (List.mem_cons_of_mem _ hf))
    rw [plainFields?, hshown, hothers]
    split <;> rfl

/-- A value of an entry has a text if all values of the entry have. -/
theorem isSome_display?_get {entry : Fields} (h : ∀ f ∈ entry, f.2.display?.isSome = true)
    (key : Units) : (entry.get key).display?.isSome = true := by
  induction entry with
  | nil => rfl
  | cons f rest ih =>
    have hrest := ih fun f hf ↦ h f (List.mem_cons_of_mem _ hf)
    unfold Fields.get at hrest ⊢
    rw [Fields.get?]
    split
    · exact h _ (List.mem_cons_self ..)
    · exact hrest

/-- **An entry has a line if its values all have a text.** As JSON every entry has one. -/
theorem isSome_line? (format : Format) {entry : Fields}
    (h : ∀ f ∈ entry, f.2.display?.isSome = true) : (line? format entry).isSome = true := by
  cases format with
  | json => rfl
  | plain =>
    obtain ⟨time, htime⟩ := Option.isSome_iff_exists.1 (isSome_display?_get h timeKey)
    obtain ⟨level, hlevel⟩ := Option.isSome_iff_exists.1 (isSome_display?_get h levelKey)
    obtain ⟨component, hcomponent⟩ :=
      Option.isSome_iff_exists.1 (isSome_display?_get h componentKey)
    obtain ⟨message, hmessage⟩ := Option.isSome_iff_exists.1 (isSome_display?_get h messageKey)
    obtain ⟨others, hothers⟩ := Option.isSome_iff_exists.1 (isSome_plainFields? h)
    rw [line?, plain?, htime, hlevel, hcomponent, hmessage, hothers]
    rfl

/-- A record has a line if its fields all have a text: what else an entry says is text. -/
theorem isSome_line?_ofRecord (format : Format) (time : Timestamp) (component : String)
    {record : Record} (h : ∀ f ∈ record.fields, f.2.display?.isSome = true) :
    (line? format (ofRecord time component record)).isSome = true := by
  refine isSome_line? format fun f hf ↦ ?_
  obtain hf | hf := Fields.mem_of_mem_merge hf
  · simp only [List.mem_cons, List.not_mem_nil, or_false] at hf
    obtain rfl | rfl | rfl | rfl := hf <;> rfl
  · exact h f hf

end Entry

end Rcon.Log
