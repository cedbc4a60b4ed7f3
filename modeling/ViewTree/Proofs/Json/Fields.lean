import Mathlib.Data.List.Nodup
import ViewTree.Json.Basic

/-
  ViewTree.Proofs.Json.Fields — fields whose keys are all different.

  Putting keeps the keys different (`nodup_merge`), and fields that are put one behind the
  other into none are those fields again when their keys are different
  (`ofPairs_of_nodup`). A look-up in merged fields finds the update first and the base
  behind it (`get?_merge`); a look-up in the fields that some keys leave over finds nothing
  under those keys and everything under the others (`get?_filter_keys`).
-/

namespace ViewTree.Fields

variable {base update fields : Fields}

@[simp] theorem keys_nil : keys [] = [] := rfl

@[simp] theorem keys_cons (field : String × Json) (rest : Fields) :
    keys (field :: rest) = field.1 :: keys rest := rfl

@[simp] theorem keys_append (fields more : Fields) :
    keys (fields ++ more) = keys fields ++ keys more := List.map_append ..

/-! ## Look-up -/

theorem get?_eq_none_iff {key : String} : fields.get? key = none ↔ key ∉ fields.keys := by
  induction fields with
  | nil => simp
  | cons field rest ih =>
    obtain ⟨k, v⟩ := field
    by_cases h : k = key
    · simp [get?, h]
    · simp [get?, h, ih, Ne.symm h]

theorem mem_of_get? {key : String} {v : Json} (h : fields.get? key = some v) :
    (key, v) ∈ fields := by
  induction fields with
  | nil => simp at h
  | cons field rest ih =>
    obtain ⟨k, w⟩ := field
    by_cases hk : k = key
    · rw [get?, if_pos hk] at h
      rw [← hk, Option.some_inj.mp h]
      exact List.mem_cons_self
    · rw [get?, if_neg hk] at h
      exact List.mem_cons_of_mem _ (ih h)

theorem given?_eq_some_iff {key : String} {v : Json} :
    fields.given? key = some v ↔ fields.get? key = some v ∧ v ≠ .null := by
  unfold given?
  split
  · rename_i hget
    rw [hget]
    exact ⟨nofun, fun ⟨hnull, hne⟩ => absurd (Option.some_inj.mp hnull).symm hne⟩
  · rename_i hget
    exact ⟨fun h => ⟨h, fun hnull => hget (hnull ▸ h)⟩, And.left⟩

theorem given?_eq_none_iff {key : String} :
    fields.given? key = none ↔ fields.get? key = none ∨ fields.get? key = some .null := by
  unfold given?
  split
  · rename_i hget
    exact ⟨fun _ => .inr hget, fun _ => rfl⟩
  · rename_i hget
    exact ⟨.inl, fun h => h.resolve_right hget⟩

theorem get?_of_given? {key : String} {v : Json} (h : fields.given? key = some v) :
    fields.get? key = some v :=
  (given?_eq_some_iff.mp h).1

/-- Dropping the field of one key leaves those of the others. -/
theorem get?_erase_of_ne {key other : String} (h : other ≠ key) (fields : Fields) :
    get? other (erase key fields) = get? other fields := by
  induction fields with
  | nil => rfl
  | cons field rest ih =>
    obtain ⟨k, v⟩ := field
    by_cases hk : k = key
    · subst hk
      simp [erase, get?, Ne.symm h]
    · simp [erase, get?, hk, ih]

/-- Where keys are different, the dropped one is gone. -/
theorem get?_erase_self (key : String) (h : fields.keys.Nodup) :
    get? key (erase key fields) = none := by
  induction fields with
  | nil => rfl
  | cons field rest ih =>
    obtain ⟨k, v⟩ := field
    rw [keys_cons, List.nodup_cons] at h
    by_cases hk : k = key
    · subst hk
      rw [erase, if_pos rfl]
      exact get?_eq_none_iff.mpr h.1
    · rw [erase, if_neg hk, get?, if_neg hk, ih h.2]

theorem erase_sublist (key : String) (fields : Fields) : (erase key fields).Sublist fields := by
  induction fields with
  | nil => exact .slnil
  | cons field rest ih =>
    rw [erase]
    split
    · exact List.sublist_cons_self _ rest
    · exact ih.cons_cons _

theorem nodup_erase (key : String) (h : fields.keys.Nodup) : (keys (erase key fields)).Nodup :=
  h.sublist ((erase_sublist key fields).map _)

/-- Of the fields that some keys leave over, those keys have none. -/
theorem get?_filter_keys (dropped : List String) (key : String) :
    get? key (fields.filter fun f => !dropped.contains f.1) =
      if key ∈ dropped then none else fields.get? key := by
  induction fields with
  | nil => simp
  | cons field rest ih =>
    obtain ⟨k, v⟩ := field
    rw [List.filter_cons]
    by_cases hk : k ∈ dropped
    · rw [if_neg (by simp [hk]), ih, get?]
      by_cases h : k = key
      · rw [if_pos (h ▸ hk), if_pos (h ▸ hk)]
      · rw [if_neg h]
    · rw [if_pos (by simp [hk]), get?, get?, ih]
      by_cases h : k = key
      · rw [if_pos h, if_pos h, if_neg (h ▸ hk)]
      · rw [if_neg h, if_neg h]

/-- What is kept by its key alone is found as before. -/
theorem get?_filter_of_key {p : String → Bool} {key : String} (h : p key = true)
    (fields : Fields) : get? key (fields.filter fun f => p f.1) = get? key fields := by
  induction fields with
  | nil => rfl
  | cons field rest ih =>
    obtain ⟨k, v⟩ := field
    rw [List.filter_cons, get?]
    by_cases hk : k = key
    · rw [if_pos (hk ▸ h), get?, if_pos hk, if_pos hk]
    · rw [if_neg hk, ← ih]
      split
      · rw [get?, if_neg hk]
      · rfl

theorem nodup_filter {p : String × Json → Bool} (h : fields.keys.Nodup) :
    (keys (fields.filter p)).Nodup :=
  h.sublist (List.filter_sublist.map _)

/-! ## Merging -/

theorem put_of_not_mem {key : String} (value : Json) {fields : Fields} (h : key ∉ fields.keys) :
    put key value fields = fields ++ [(key, value)] := by
  induction fields with
  | nil => rfl
  | cons field rest ih =>
    rw [keys, List.map_cons, List.mem_cons, not_or] at h
    rw [put, if_neg (Ne.symm h.1), ih h.2]
    rfl

theorem keys_put_of_mem {key : String} (value : Json) (h : key ∈ fields.keys) :
    (put key value fields).keys = fields.keys := by
  induction fields with
  | nil => simp at h
  | cons field rest ih =>
    obtain ⟨k, v⟩ := field
    by_cases hk : k = key
    · simp [put, hk]
    · rw [keys_cons, List.mem_cons] at h
      have hrest : key ∈ keys rest := h.resolve_left (Ne.symm hk)
      simp [put, hk, ih hrest]

theorem nodup_put (key : String) (value : Json) (h : fields.keys.Nodup) :
    (put key value fields).keys.Nodup := by
  by_cases hmem : key ∈ fields.keys
  · rwa [keys_put_of_mem value hmem]
  · rw [put_of_not_mem value hmem, keys_append]
    exact List.nodup_append.mpr ⟨h, by simp, by rintro a ha b hb rfl; simp_all⟩

/-- Putting what is there changes nothing. -/
theorem put_of_get? {key : String} {v : Json} (h : fields.get? key = some v) :
    put key v fields = fields := by
  induction fields with
  | nil => cases h
  | cons field rest ih =>
    obtain ⟨k, w⟩ := field
    by_cases hk : k = key
    · rw [get?, if_pos hk] at h
      rw [put, if_pos hk, Option.some_inj.mp h]
    · rw [get?, if_neg hk] at h
      rw [put, if_neg hk, ih h]

/-- Of two values put under one key the later one stays, in the place of the first. -/
theorem put_put (key : String) (v w : Json) (fields : Fields) :
    put key w (put key v fields) = put key w fields := by
  induction fields with
  | nil => simp [put]
  | cons field rest ih =>
    obtain ⟨k, u⟩ := field
    by_cases hk : k = key <;> simp [put, hk, ih]

/-- Values put under two keys, of which one is there already, come to the same in either
    order. -/
theorem put_comm {key other : String} {u : Json} (hne : key ≠ other)
    (h : fields.get? key = some u) (v w : Json) :
    put other w (put key v fields) = put key v (put other w fields) := by
  induction fields with
  | nil => cases h
  | cons field rest ih =>
    obtain ⟨k, x⟩ := field
    by_cases hk : k = key
    · simp [put, hk, hne]
    · rw [get?, if_neg hk] at h
      by_cases hother : k = other
      · simp [put, hother, hne.symm]
      · simp [put, hk, hother, ih h]

/-- A new field is gone once it is dropped. -/
theorem erase_put_of_get?_eq_none {key : String} (v : Json) (h : fields.get? key = none) :
    erase key (put key v fields) = fields := by
  induction fields with
  | nil => simp [put, erase]
  | cons field rest ih =>
    obtain ⟨k, u⟩ := field
    have hk : k ≠ key := by
      rintro rfl
      simp [get?] at h
    rw [get?, if_neg hk] at h
    rw [put, if_neg hk, erase, if_neg hk, ih h]

/-- A field that is dropped and put again has only changed its place. -/
theorem put_erase_perm {key : String} {v : Json} (hnodup : fields.keys.Nodup)
    (h : fields.get? key = some v) : (put key v (erase key fields)).Perm fields := by
  induction fields with
  | nil => cases h
  | cons field rest ih =>
    obtain ⟨k, w⟩ := field
    rw [keys_cons, List.nodup_cons] at hnodup
    by_cases hk : k = key
    · rw [get?, if_pos hk] at h
      obtain rfl := Option.some.inj h
      subst hk
      rw [erase, if_pos rfl, put_of_not_mem w hnodup.1]
      exact List.perm_append_singleton _ rest
    · rw [get?, if_neg hk] at h
      rw [erase, if_neg hk, put, if_neg hk]
      exact (ih hnodup.2 h).cons (k, w)

theorem merge_cons (base : Fields) (field : String × Json) (update : Fields) :
    base.merge (field :: update) = (put field.1 field.2 base).merge update := rfl

theorem nodup_merge (update : Fields) (h : base.keys.Nodup) : (base.merge update).keys.Nodup := by
  induction update generalizing base with
  | nil => exact h
  | cons field rest ih => exact ih (nodup_put field.1 field.2 h)

/-- Fields of different keys are put one behind the other. -/
theorem merge_of_nodup {base update : Fields} (h : (base ++ update).keys.Nodup) :
    base.merge update = base ++ update := by
  induction update generalizing base with
  | nil => exact (List.append_nil base).symm
  | cons field rest ih =>
    have hsplit : base ++ field :: rest = (base ++ [field]) ++ rest := by simp
    have hnew : field.1 ∉ base.keys := by
      rw [keys, List.map_append, List.map_cons] at h
      exact fun hmem => (List.nodup_append.mp h).2.2 _ hmem _ List.mem_cons_self rfl
    change (put field.1 field.2 base).merge rest = _
    rw [put_of_not_mem field.2 hnew, ih (hsplit ▸ h), ← hsplit]

theorem ofPairs_of_nodup (h : fields.keys.Nodup) : ofPairs fields = fields :=
  merge_of_nodup h

theorem get?_merge_of_not_mem {key : String} (h : key ∉ update.keys) :
    (base.merge update).get? key = base.get? key := by
  induction update generalizing base with
  | nil => rfl
  | cons field rest ih =>
    rw [keys_cons, List.mem_cons, not_or] at h
    rw [merge_cons, ih h.2, get?_put_of_ne h.1]

/-- The update overrules the base. -/
theorem get?_merge (h : update.keys.Nodup) (key : String) :
    (base.merge update).get? key = (update.get? key).or (base.get? key) := by
  induction update generalizing base with
  | nil => rfl
  | cons field rest ih =>
    obtain ⟨k, v⟩ := field
    rw [keys_cons, List.nodup_cons] at h
    rw [merge_cons, ih h.2]
    by_cases hk : k = key
    · subst hk
      have hnone : get? k rest = none := get?_eq_none_iff.mpr h.1
      rw [hnone, get?_put_self, get?, if_pos rfl]
      rfl
    · rw [get?_put_of_ne (Ne.symm hk), get?, if_neg hk]

end ViewTree.Fields
