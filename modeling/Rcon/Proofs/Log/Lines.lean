import Rcon.Decoder.Note
import Rcon.Log.Journal
import Rcon.Proofs.Value.Lines

/-!
# One record, one line

What is logged of a record is one line: on the console a text without a line break, and in a file a
text with one line break, which is its last unit (`Effect.IsOneLine`).

As JSON this is so for every record. In plain text it is so for a record whose message, keys and
values are each within one line (`Record.IsInline`), for what a line puts between them is. Then it
makes no difference what the settings are and which of the four leading fields the record replaces
(`Journal.isOneLine_of_mem_log`).
-/

namespace Rcon.Log

open Rcon.Units (IsLine isLine_cons_iff isLine_append_iff)

/-! ### Effects -/

/-- Is what an effect writes one line? -/
def Effect.IsOneLine : Effect → Prop
  | .standardOutput line | .standardError line => IsLine line
  | .makeDirectory _ => True
  | .append _ text => ∃ line, text = line ++ [0x0A] ∧ IsLine line

/-! ### Entries -/

/-- Are keys and values each within one line? -/
def Entry.IsInline (entry : Fields) : Prop :=
  ∀ f ∈ entry, IsLine f.1 ∧ f.2.IsInline

/-- Are the message and the fields of a record each within one line? -/
structure Record.IsInline (record : Record) : Prop where
  /-- There is no line break in the message. -/
  message : '\n' ∉ record.message.toList
  /-- There is no line break in the fields. -/
  fields : Entry.IsInline record.fields

namespace Entry

variable {entry : Fields} {line : Units}

theorem isInline_nil : IsInline [] := fun _ h ↦ absurd h List.not_mem_nil

theorem IsInline.cons {key : String} {value : Value} (hkey : '\n' ∉ key.toList)
    (hvalue : value.IsInline) (h : IsInline entry) :
    IsInline ((Units.ofString key, value) :: entry) :=
  List.forall_mem_cons.2 ⟨⟨Units.isLine_ofChars hkey, hvalue⟩, h⟩

theorem IsInline.get (h : IsInline entry) (key : Units) : (entry.get key).IsInline := by
  unfold Fields.get
  induction entry with
  | nil => exact Value.isInline_undefined
  | cons f rest ih =>
    obtain ⟨hfirst, hrest⟩ := List.forall_mem_cons.1 h
    rw [Fields.get?]
    split
    · exact hfirst.2
    · exact ih hrest

/-- The fields that have no place of their own stay within one line. -/
theorem IsInline.isLine_plainFields? (h : IsInline entry) (hline : plainFields? entry = some line) :
    IsLine line := by
  induction entry generalizing line with
  | nil =>
    cases hline
    exact Units.isLine_nil
  | cons f rest ih =>
    obtain ⟨key, value⟩ := f
    obtain ⟨⟨hkey, hvalue⟩, hrest⟩ := List.forall_mem_cons.1 h
    rw [plainFields?] at hline
    split at hline
    · exact ih hrest hline
    · simp only [Option.bind_eq_bind, Option.bind_eq_some_iff, Option.pure_def,
        Option.some.injEq] at hline
      obtain ⟨shown, hshown, others, hothers, rfl⟩ := hline
      simp [hkey, hvalue shown hshown, ih hrest hothers]

/-- **An entry within one line is a line in plain text.** -/
theorem IsInline.isLine_plain? (h : IsInline entry) (hline : plain? entry = some line) :
    IsLine line := by
  simp only [plain?, Option.bind_eq_bind, Option.bind_eq_some_iff, Option.pure_def,
    Option.some.injEq] at hline
  obtain ⟨time, htime, level, hlevel, component, hcomponent, message, hmessage, others, hothers,
    rfl⟩ := hline
  simp [h.get _ _ htime, h.get _ _ hlevel, h.get _ _ hcomponent, h.get _ _ hmessage,
    h.isLine_plainFields? hothers]

theorem IsInline.isLine_line? (h : IsInline entry) {format : Format}
    (hline : line? format entry = some line) : IsLine line := by
  cases format with
  | plain => exact h.isLine_plain? hline
  | json =>
    obtain rfl := Option.some.inj hline
    exact (Value.isPrintable_json _).isLine

/-- The entry of a record is within one line if the record is: the time and the level are. -/
theorem isInline_ofRecord {record : Record} (h : record.IsInline) (time : Timestamp)
    {component : String} (hcomponent : '\n' ∉ component.toList) :
    IsInline (ofRecord time component record) := by
  have htext {s : String} (hs : '\n' ∉ s.toList) : (Value.ofString s).IsInline :=
    Value.isInline_text (Units.isLine_ofChars hs)
  have hlevel : '\n' ∉ record.level.name.toList := by
    cases record.level <;> decide
  intro f hf
  rcases Fields.mem_of_mem_merge hf with hleading | hfield
  · simp only [List.mem_cons, List.not_mem_nil, or_false] at hleading
    obtain rfl | rfl | rfl | rfl := hleading
    · exact ⟨(by decide : IsLine timeKey), htext time.newline_notMem⟩
    · exact ⟨(by decide : IsLine levelKey), htext hlevel⟩
    · exact ⟨(by decide : IsLine componentKey), htext hcomponent⟩
    · exact ⟨(by decide : IsLine messageKey), htext h.message⟩
  · exact h.fields f hfield

end Entry

/-! ### Journals -/

namespace Journal

variable {journal : Journal} {effect : Effect}

theorem isOneLine_of_mem_write {destination : Destination} {level : Level} {line : Units}
    (h : IsLine line) (hmem : effect ∈ (journal.write destination level line).1) :
    effect.IsOneLine := by
  unfold write at hmem
  split at hmem
  · split at hmem
    · obtain rfl := List.mem_singleton.1 hmem
      exact h
    · obtain rfl := List.mem_singleton.1 hmem
      exact h
  · dsimp only at hmem
    split at hmem
    · obtain rfl := List.mem_singleton.1 hmem
      exact ⟨line, rfl, h⟩
    · simp only [List.mem_cons, List.not_mem_nil, or_false] at hmem
      obtain rfl | rfl := hmem
      · trivial
      · exact ⟨line, rfl, h⟩

/-- **A record within one line is logged as one line**, whatever the settings are. -/
theorem isOneLine_of_mem_log {settings : Settings} {component : String}
    (hcomponent : '\n' ∉ component.toList) {record : Record} (h : record.IsInline)
    (hmem : effect ∈ (journal.log settings component record).1) : effect.IsOneLine := by
  rw [log] at hmem
  split at hmem
  · split at hmem
    · next line hline =>
      have hentry := Entry.isInline_ofRecord h journal.time hcomponent
      exact isOneLine_of_mem_write (hentry.isLine_line? hline) hmem
    · exact absurd hmem List.not_mem_nil
  · exact absurd hmem List.not_mem_nil

theorem isOneLine_of_mem_logAll {settings : Settings} {component : String}
    (hcomponent : '\n' ∉ component.toList) {records : List Record}
    (h : ∀ record ∈ records, record.IsInline)
    (hmem : effect ∈ (journal.logAll settings component records).1) : effect.IsOneLine := by
  induction records generalizing journal with
  | nil => exact absurd hmem List.not_mem_nil
  | cons record rest ih =>
    obtain ⟨hrecord, hrest⟩ := List.forall_mem_cons.1 h
    rcases List.mem_append.1 hmem with hfirst | hothers
    · exact isOneLine_of_mem_log hcomponent hrecord hfirst
    · exact ih hrest hothers

end Journal

end Rcon.Log
