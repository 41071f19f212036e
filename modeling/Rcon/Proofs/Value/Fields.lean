import Rcon.Value.Basic

/-!
# Reading merged fields

What a key reads as where fields are merged: as the later fields have it, and else as the earlier do
(`Fields.get?_merge`). This asks that no key is twice among the later ones, as in any object
(`Fields.nodup_keys_ofPairs`).

The fields of an object are in the order of their keys (`Fields.IsOrdered`): array indices first, by
size, and no key twice. Writing keeps that order, and fields that have it are what writing them pair
by pair makes (`Fields.ofPairs_eq_self`).
-/

namespace Rcon.Fields

variable {fields more : Fields} {key : Units} {value : Value}

/-! ### Keys -/

theorem get?_eq_none_iff : fields.get? key = none ↔ key ∉ fields.keys := by
  induction fields with
  | nil => simp [get?, keys]
  | cons f rest ih =>
    obtain ⟨k, v⟩ := f
    by_cases hk : k = key
    · simp [get?, keys, hk]
    · rw [get?, if_neg hk, ih]
      simp [keys, Ne.symm hk]

theorem mem_keys_of_get? (h : fields.get? key = some value) : key ∈ fields.keys :=
  Decidable.not_not.1 fun hnot ↦ nomatch h.symm.trans (get?_eq_none_iff.2 hnot)

/-- A field has the value of its key, if no key is there twice. -/
theorem get?_of_mem (h : fields.keys.Nodup) (hmem : (key, value) ∈ fields) :
    fields.get? key = some value := by
  induction fields with
  | nil => cases hmem
  | cons f rest ih =>
    obtain ⟨k, v⟩ := f
    obtain ⟨hk, hrest⟩ := List.nodup_cons.1 h
    rw [get?]
    obtain heq | hmem := List.mem_cons.1 hmem
    · cases heq
      exact if_pos rfl
    · have hkey : key ∈ rest.map Prod.fst := List.mem_map_of_mem hmem
      have hne : k ≠ key := fun heq ↦ hk (heq ▸ hkey)
      rw [if_neg hne]
      exact ih hrest hmem

theorem keys_replace (key : Units) (value : Value) (fields : Fields) :
    (replace key value fields).keys = fields.keys := by
  induction fields with
  | nil => rfl
  | cons f rest ih =>
    obtain ⟨k, v⟩ := f
    rw [replace]
    split
    · rfl
    · exact congrArg (k :: ·) ih

theorem keys_insert_perm (key : Units) (value : Value) (fields : Fields) :
    (insert key value fields).keys.Perm (key :: fields.keys) := by
  induction fields with
  | nil => exact .refl _
  | cons f rest ih =>
    obtain ⟨k, v⟩ := f
    rw [insert]
    split
    · exact .refl _
    · exact (List.Perm.cons k ih).trans (.swap key k _)

/-- **No key is written twice.** -/
theorem nodup_keys_set (h : fields.keys.Nodup) (key : Units) (value : Value) :
    (fields.set key value).keys.Nodup := by
  rw [set]
  split
  · rwa [keys_replace]
  · next hnew =>
    rw [(keys_insert_perm key value fields).nodup_iff, List.nodup_cons]
    exact ⟨get?_eq_none_iff.1 (by simpa using hnew), h⟩

theorem nodup_keys_merge (h : fields.keys.Nodup) (more : Fields) :
    (merge fields more).keys.Nodup := by
  induction more generalizing fields with
  | nil => exact h
  | cons f rest ih => exact ih (nodup_keys_set h f.1 f.2)

/-- **No key is twice in an object that is written pair by pair.** -/
theorem nodup_keys_ofPairs (pairs : List (Units × Value)) : (ofPairs pairs).keys.Nodup :=
  @nodup_keys_merge [] List.nodup_nil pairs

/-! ### Values -/

/-- **A key reads as the later fields have it**, and else as the earlier do. -/
theorem get?_merge (h : more.keys.Nodup) (fields : Fields) (key : Units) :
    (merge fields more).get? key = (more.get? key).or (fields.get? key) := by
  induction more generalizing fields with
  | nil => rfl
  | cons f rest ih =>
    obtain ⟨k, v⟩ := f
    obtain ⟨hk, hrest⟩ := List.nodup_cons.1 h
    show (merge (fields.set k v) rest).get? key = _
    rw [ih hrest, get?_set, get?]
    split
    · next heq =>
      subst heq
      rw [get?_eq_none_iff.2 hk]
      rfl
    · rfl

/-- Of the fields with a value of some kind a key reads as it does, if its value is of that kind. -/
theorem get?_filter (h : fields.keys.Nodup) (p : Value → Bool) (key : Units) :
    get? key (fields.filter fun f ↦ p f.2) = (fields.get? key).filter p := by
  induction fields with
  | nil => rfl
  | cons f rest ih =>
    obtain ⟨k, v⟩ := f
    obtain ⟨hk, hrest⟩ := List.nodup_cons.1 h
    have ih := ih hrest
    by_cases hkey : k = key
    · subst hkey
      rw [get?_eq_none_iff.2 hk] at ih
      cases hp : p v <;> simp [get?, hp, ih, Option.filter]
    · cases hp : p v <;> simp [get?, hkey, hp, ih]

theorem nodup_keys_filter (h : fields.keys.Nodup) (p : Units × Value → Bool) :
    keys (fields.filter p) |>.Nodup :=
  h.sublist (List.filter_sublist.map Prod.fst)

/-! ### Order -/

theorem precedes_trans {k l m : Units} (hkl : precedes k l = true) (hlm : precedes l m = true) :
    precedes k m = true := by
  unfold precedes at *
  cases hk : index? k with
  | none => simp [hk] at hkl
  | some i =>
    cases hm : index? m with
    | none => rfl
    | some j =>
      cases hl : index? l with
      | none => simp [hl] at hlm
      | some n =>
        simp only [hk, hl, hm, decide_eq_true_eq] at hkl hlm ⊢
        exact Nat.lt_trans hkl hlm

@[simp] theorem precedes_self (key : Units) : precedes key key = false := by
  rw [precedes]
  cases index? key with
  | none => rfl
  | some n => simp

/-- Fields as an object has them. -/
structure IsOrdered (fields : Fields) : Prop where
  /-- No key is there twice. -/
  nodup : fields.keys.Nodup
  /-- No key belongs before one in front of it. -/
  pairwise : fields.keys.Pairwise fun k l ↦ precedes l k = false

instance (fields : Fields) : Decidable fields.IsOrdered :=
  decidable_of_iff (fields.keys.Nodup ∧ fields.keys.Pairwise fun k l ↦ precedes l k = false)
    ⟨fun h ↦ ⟨h.1, h.2⟩, fun h ↦ ⟨h.nodup, h.pairwise⟩⟩

theorem IsOrdered.replace (h : fields.IsOrdered) (key : Units) (value : Value) :
    (replace key value fields).IsOrdered := by
  constructor <;> rw [keys_replace]
  · exact h.nodup
  · exact h.pairwise

/-- A new key is put where no key behind it belongs before it. -/
theorem pairwise_keys_insert (h : fields.keys.Pairwise fun k l ↦ precedes l k = false) (key : Units)
    (value : Value) :
    (insert key value fields).keys.Pairwise fun k l ↦ precedes l k = false := by
  induction fields with
  | nil => exact List.pairwise_singleton _ _
  | cons f rest ih =>
    obtain ⟨k, v⟩ := f
    obtain ⟨hk, hrest⟩ := List.pairwise_cons.1 h
    rw [insert]
    split
    · next hprecedes =>
      refine List.pairwise_cons.2 ⟨fun l hl ↦ Bool.eq_false_iff.2 fun hlk ↦ ?_, h⟩
      have hbefore := precedes_trans hlk hprecedes
      obtain rfl | hl := List.mem_cons.1 hl
      · rw [precedes_self] at hbefore
        cases hbefore
      · rw [hk l hl] at hbefore
        cases hbefore
    · next hprecedes =>
      refine List.pairwise_cons.2 ⟨fun l hl ↦ ?_, ih hrest⟩
      obtain rfl | hl := List.mem_cons.1 ((keys_insert_perm key value rest).mem_iff.1 hl)
      · exact Bool.eq_false_iff.2 hprecedes
      · exact hk l hl

/-- **Writing a key keeps the order.** -/
theorem IsOrdered.set (h : fields.IsOrdered) (key : Units) (value : Value) :
    (fields.set key value).IsOrdered := by
  refine ⟨nodup_keys_set h.nodup key value, ?_⟩
  rw [Fields.set]
  split
  · exact (h.replace key value).pairwise
  · exact pairwise_keys_insert h.pairwise key value

theorem IsOrdered.merge (h : fields.IsOrdered) (more : Fields) : (merge fields more).IsOrdered := by
  induction more generalizing fields with
  | nil => exact h
  | cons f rest ih => exact ih (h.set f.1 f.2)

/-- A key that belongs before none goes last. -/
theorem insert_eq_append (h : ∀ k ∈ fields.keys, precedes key k = false) (value : Value) :
    insert key value fields = fields ++ [(key, value)] := by
  induction fields with
  | nil => rfl
  | cons f rest ih =>
    obtain ⟨k, v⟩ := f
    obtain ⟨hk, hrest⟩ := List.forall_mem_cons.1 h
    rw [insert, hk, if_neg Bool.false_ne_true, ih hrest]
    rfl

/-- Fields in order that are merged into those in front of them go behind them. -/
theorem merge_eq_append (h : IsOrdered (fields ++ more)) : merge fields more = fields ++ more := by
  induction more generalizing fields with
  | nil => exact (List.append_nil fields).symm
  | cons f rest ih =>
    obtain ⟨k, v⟩ := f
    have hkeys : keys (fields ++ (k, v) :: rest) = fields.keys ++ k :: keys rest := by
      simp [keys]
    have hnew : get? k fields = none := by
      have hnodup := h.nodup
      rw [hkeys, List.nodup_append] at hnodup
      exact get?_eq_none_iff.2 fun hmem ↦ hnodup.2.2 k hmem k List.mem_cons_self rfl
    have hlast : ∀ l ∈ fields.keys, precedes k l = false := by
      have hpairwise := h.pairwise
      rw [hkeys, List.pairwise_append] at hpairwise
      exact fun l hl ↦ hpairwise.2.2 l hl k List.mem_cons_self
    have hset : Fields.set fields k v = fields ++ [(k, v)] := by
      rw [Fields.set, hnew, if_neg (by simp), insert_eq_append hlast]
    show merge (Fields.set fields k v) rest = _
    rw [hset, ih (by rwa [List.append_assoc]), List.append_assoc]
    rfl

/-- **Fields in order are what writing them pair by pair makes.** -/
theorem ofPairs_eq_self (h : fields.IsOrdered) : ofPairs fields = fields :=
  @merge_eq_append [] fields h

end Rcon.Fields
