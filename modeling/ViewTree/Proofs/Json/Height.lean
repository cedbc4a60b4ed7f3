import ViewTree.Payload
import ViewTree.Proofs.Json.Fields

/-
  ViewTree.Proofs.Json.Height — how deep a value is, and what changes of a container do to it.

  A value is higher than each of its members by one at least, and no higher than its
  members make it (`height_le_iff`). So a container that gains a member becomes no higher
  than it was or than the member demands, and one that loses a member no higher than it was.
-/

namespace ViewTree

/-! ## Members -/

namespace Json

variable {n : Nat} {items : List Json} {fields : Fields}

theorem heightItems_le_iff : heightItems items ≤ n ↔ ∀ v ∈ items, v.height < n := by
  induction items with
  | nil => simp [heightItems]
  | cons v rest ih =>
    rw [heightItems, Nat.max_le, ih, List.forall_mem_cons]
    exact Iff.rfl

theorem heightFields_eq (fields : Fields) :
    heightFields fields = heightItems (fields.map Prod.snd) := by
  induction fields with
  | nil => rfl
  | cons field rest ih =>
    obtain ⟨key, v⟩ := field
    rw [heightFields, ih, List.map_cons, heightItems]

theorem heightFields_le_iff : heightFields fields ≤ n ↔ ∀ f ∈ fields, f.2.height < n := by
  rw [heightFields_eq, heightItems_le_iff, List.forall_mem_map]

theorem height_le_iff {v : Json} : v.height ≤ n ↔ ∀ w ∈ v.members, w.height < n := by
  cases v with
  | arr items => exact heightItems_le_iff
  | obj fields =>
    rw [height, heightFields_eq]
    exact heightItems_le_iff
  | _ => simp [height, members]

theorem height_lt_of_mem {v w : Json} (h : w ∈ v.members) : w.height < v.height :=
  height_le_iff.mp (Nat.le_refl _) w h

theorem height_lt_of_get? {key : String} {w : Json} (h : Fields.get? key fields = some w) :
    w.height < heightFields fields :=
  heightFields_le_iff.mp (Nat.le_refl _) _ (Fields.mem_of_get? h)

end Json

/-! ## Changed containers -/

namespace Fields

variable {fields : Fields} {key : String} {value : Json} {f : String × Json}

theorem mem_of_mem_put (h : f ∈ put key value fields) : f.2 = value ∨ f ∈ fields := by
  induction fields with
  | nil =>
    obtain rfl := List.mem_singleton.mp h
    exact .inl rfl
  | cons field rest ih =>
    obtain ⟨k, v⟩ := field
    by_cases hk : k = key
    · rw [put, if_pos hk] at h
      rcases List.mem_cons.mp h with rfl | h
      · exact .inl rfl
      · exact .inr (List.mem_cons_of_mem _ h)
    · rw [put, if_neg hk] at h
      rcases List.mem_cons.mp h with rfl | h
      · exact .inr List.mem_cons_self
      · exact (ih h).imp_right (List.mem_cons_of_mem _)

theorem mem_of_mem_erase (h : f ∈ erase key fields) : f ∈ fields :=
  (erase_sublist key fields).subset h

end Fields

namespace Json

variable {items : List Json} {fields : Fields} {value : Json}

theorem heightFields_put_le (key : String) (value : Json) (fields : Fields) :
    heightFields (Fields.put key value fields) ≤ max (heightFields fields) (value.height + 1) := by
  rw [heightFields_le_iff]
  intro f hf
  rcases Fields.mem_of_mem_put hf with hvalue | hmem
  · rw [hvalue]
    omega
  · have hlt : f.2.height < heightFields fields := heightFields_le_iff.mp (Nat.le_refl _) f hmem
    omega

theorem heightFields_erase_le (key : String) (fields : Fields) :
    heightFields (Fields.erase key fields) ≤ heightFields fields := by
  rw [heightFields_le_iff]
  intro f hf
  exact heightFields_le_iff.mp (Nat.le_refl _) f (Fields.mem_of_mem_erase hf)

theorem heightFields_merge_le (base update : Fields) :
    heightFields (base.merge update) ≤ max (heightFields base) (heightFields update) := by
  induction update generalizing base with
  | nil => exact Nat.le_max_left _ _
  | cons field rest ih =>
    obtain ⟨key, v⟩ := field
    have hput := heightFields_put_le key v base
    have hrest := ih (base.put key v)
    rw [Fields.merge_cons, heightFields]
    dsimp only
    omega

/-- A list whose items are those of another one, and one more value perhaps. -/
theorem heightItems_le_of_mem {more : List Json} (h : ∀ w ∈ more, w = value ∨ w ∈ items) :
    heightItems more ≤ max (heightItems items) (value.height + 1) := by
  rw [heightItems_le_iff]
  intro w hw
  rcases h w hw with rfl | hmem
  · omega
  · have hlt : w.height < heightItems items := heightItems_le_iff.mp (Nat.le_refl _) w hmem
    omega

theorem heightItems_set_le (items : List Json) (i : Nat) (value : Json) :
    heightItems (items.set i value) ≤ max (heightItems items) (value.height + 1) :=
  heightItems_le_of_mem fun _ hw => (List.mem_or_eq_of_mem_set hw).symm

theorem heightItems_concat_le (items : List Json) (value : Json) :
    heightItems (items ++ [value]) ≤ max (heightItems items) (value.height + 1) :=
  heightItems_le_of_mem fun w hw => by simpa [or_comm] using hw

end Json

end ViewTree
