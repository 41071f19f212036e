import Rcon.Proofs.Value.Fields
import Rcon.Value.Display

/-!
# Values without a text

Which values have no plain text: objects with a field `toString`, and arrays that hold such an
object **at any depth** (`Value.display?_eq_none_iff`). What is within the other fields of an object
makes no difference.
-/

namespace Rcon.Value

/-- Is a value one that has no plain text? -/
inductive IsTextless : Value → Prop
  /-- An object that would say itself how it reads. -/
  | object {fields : Fields} (h : textKey ∈ fields.keys) : IsTextless (.object fields)
  /-- An array of which an item has no text. -/
  | array {items : List Value} {v : Value} (hmem : v ∈ items) (h : IsTextless v) :
      IsTextless (.array items)

theorem isTextless_array_iff {items : List Value} :
    (array items).IsTextless ↔ ∃ v ∈ items, v.IsTextless :=
  ⟨fun | .array hmem h => ⟨_, hmem, h⟩, fun ⟨_, hmem, h⟩ ↦ .array hmem h⟩

theorem isTextless_object_iff {fields : Fields} :
    (object fields).IsTextless ↔ textKey ∈ fields.keys :=
  ⟨fun | .object h => h, .object⟩

/-- The items have no texts if the first or another has none; one that is nothing is shown as
nothing. -/
theorem displayItems?_cons_eq_none_iff (v : Value) (rest : List Value) :
    displayItems? (v :: rest) = none ↔ v.display? = none ∨ displayItems? rest = none := by
  cases v with
  | null => simp [displayItems?, display?]
  | undefined => simp [displayItems?, display?]
  | _ =>
    rw [displayItems?]
    · simp only [Option.bind_eq_bind, Option.pure_def]
      cases display? _ with
      | none => simp
      | some shown => cases displayItems? rest <;> simp
    all_goals exact nofun

mutual

/-- **The textless values have no plain text, and all others have one.** -/
theorem display?_eq_none_iff : ∀ v : Value, v.display? = none ↔ v.IsTextless
  | .undefined => iff_of_false nofun nofun
  | .null => iff_of_false nofun nofun
  | .bool true => iff_of_false nofun nofun
  | .bool false => iff_of_false nofun nofun
  | .number _ => iff_of_false nofun nofun
  | .text _ => iff_of_false nofun nofun
  | .array items => by
    rw [display?, Option.map_eq_none_iff, displayItems?_eq_none_iff, isTextless_array_iff]
  | .object fields => by
    rw [isTextless_object_iff, display?]
    cases hget : Fields.get? textKey fields with
    | none => exact iff_of_false nofun (Fields.get?_eq_none_iff.1 hget)
    | some _ => exact iff_of_true rfl (Fields.mem_keys_of_get? hget)

theorem displayItems?_eq_none_iff :
    ∀ items : List Value, displayItems? items = none ↔ ∃ v ∈ items, v.IsTextless
  | [] => by simp [displayItems?]
  | v :: rest => by
    rw [displayItems?_cons_eq_none_iff, display?_eq_none_iff v, displayItems?_eq_none_iff rest]
    simp only [List.mem_cons, exists_eq_or_imp]

end

end Rcon.Value
