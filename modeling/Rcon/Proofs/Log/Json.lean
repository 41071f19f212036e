import Rcon.Log.Line
import Rcon.Proofs.Value.Lines
import Rcon.Proofs.Value.Reading

/-!
# JSON lines say what was logged

With JSON lines asked for an entry of data is one printable line, and **reading the line gives the
entry back**, key for key and in order (`Entry.read_line`). So no other entry has that line: no
value of a field can be taken for a key or for a part of the field next to it, whatever texts are
logged.

The entry of a record is one of data if the fields of the record are (`Entry.isData_ofRecord`).
-/

namespace Rcon.Log

namespace Entry

/-- A record with fields of data has an entry of data: what else it says is text, and merging keeps
the order of the keys. -/
theorem isData_ofRecord {record : Record} (h : ∀ f ∈ record.fields, f.2.IsData) (time : Timestamp)
    (component : String) : (Value.object (ofRecord time component record)).IsData := by
  have hnodup : [timeKey, levelKey, componentKey, messageKey].Nodup := by decide
  have hpairwise : [timeKey, levelKey, componentKey, messageKey].Pairwise
      fun k l ↦ Fields.precedes l k = false := by decide
  have hordered : Fields.IsOrdered
      [(timeKey, .ofString time.text), (levelKey, .ofString record.level.name),
        (componentKey, .ofString component), (messageKey, .ofString record.message)] :=
    ⟨hnodup, hpairwise⟩
  refine .object (hordered.merge _) fun f hf ↦ ?_
  rcases Fields.mem_of_mem_merge hf with hleading | hfield
  · simp only [List.mem_cons, List.not_mem_nil, or_false] at hleading
    obtain rfl | rfl | rfl | rfl := hleading <;> exact .text _
  · exact h f hfield

/-- **A JSON line gives its entry back.** Every entry of data has a line, in which there is no
control character and which is read as that entry; entries with the same line are the same, at every
depth. And of records whose fields are data the entries are of this kind. -/
theorem read_line (env : Environment) (hjson : env.logJson = some "1") :
    let format := (Settings.ofEnvironment env).format
    (∀ entry : Fields, (Value.object entry).IsData →
      ∃ line, line? format entry = some line ∧ line.IsPrintable ∧
        JsonText.read line = .ok (.object entry)) ∧
      (∀ entry other : Fields, (Value.object entry).IsData → (Value.object other).IsData →
        line? format entry = line? format other → entry = other) ∧
      ∀ (time : Timestamp) (component : String) (record : Record),
        (∀ f ∈ record.fields, f.2.IsData) →
          (Value.object (ofRecord time component record)).IsData := by
  intro format
  have hformat : format = .json := if_pos hjson
  rw [hformat]
  refine ⟨fun entry hdata ↦ ⟨_, rfl, Value.isPrintable_json _, JsonText.read_json hdata⟩,
    fun entry other hentry hother hline ↦ ?_, fun time component record h ↦
      isData_ofRecord h time component⟩
  exact Value.object.inj (hentry.eq_of_json_eq hother (Option.some.inj hline))

/-- A record with a quote and a backslash in its message and a field that is named like the level,
with half of a pair in it; the other fields hold an array and an object. -/
theorem read_line_escaped :
    let env : Environment := { logJson := some "1" }
    let record : Record :=
      ⟨.warn, "a\"\\\n",
        [(Units.ofString "7", .array [.null, .bool true, .ofInt (-9007199254740991), .array []]),
          (levelKey, .text [0xD83D, 0x22]),
          (Units.ofString "x", .object [(Units.ofString "\",", .text [0xDE00, 0xD83D])])]⟩
    let entry := ofRecord ⟨"2026-01-01T00:00:00.000Z", by decide⟩ "decoder" record
    let line := Units.ofString ("\x7b\"7\":[null,true,-9007199254740991,[]]," ++
      "\"ts\":\"2026-01-01T00:00:00.000Z\",\"level\":\"\\ud83d\\\"\",\"component\":\"decoder\"," ++
      "\"msg\":\"a\\\"\\\\\\n\",\"x\":\x7b\"\\\",\":\"\\ude00\\ud83d\"\x7d\x7d")
    env.logJson = some "1" ∧ (Value.object entry).IsData ∧
      line? (Settings.ofEnvironment env).format entry = some line ∧ line.IsPrintable ∧
        JsonText.read line = .ok (.object entry) := by
  intro env record entry line
  obtain ⟨hline, -, hrecord⟩ := read_line env rfl
  have hdata : (Value.object entry).IsData := by
    refine hrecord _ _ _ (List.forall_mem_cons.2 ⟨.array ?_, List.forall_mem_cons.2 ⟨.text _,
      List.forall_mem_singleton.2 (.object (by decide) ?_)⟩⟩)
    · have hempty : (Value.array []).IsData := .array fun _ h ↦ absurd h List.not_mem_nil
      simpa using ⟨.null, .bool true, .whole (by decide), hempty⟩
    · exact List.forall_mem_singleton.2 (.text _)
  have hshown : line? (Settings.ofEnvironment env).format entry = some line := by
    refine congrArg some ?_
    decide +kernel
  obtain ⟨written, hwritten, hprintable, hread⟩ := hline entry hdata
  obtain rfl : line = written := Option.some.inj (hshown.symm.trans hwritten)
  exact ⟨rfl, hdata, hshown, hprintable, hread⟩

end Entry

end Rcon.Log
