import ViewTree.Settings

/-
  ViewTree.Proofs.Settings — what holds of all settings that were read.

  Every field of settings is its default or was read from what was given, so what holds of
  the default and of whatever its reader accepts holds of the field (`Field.of_optional`).
  That is how the bounds of the numbers are kept (`Settings.bounded_of_read`).
-/

namespace ViewTree

namespace Field

theorem of_optional {α : Type} {key : String} {fields : Fields} {default a : α}
    {read : Json → Checked α} {p : α → Prop} (h : optional [key] fields default read = .ok a)
    (hdefault : p default) (hread : ∀ v b, read v = .ok b → p b) : p a := by
  rcases optional_eq_ok_iff.mp h with ⟨-, rfl⟩ | ⟨v, -, hv⟩
  · exact hdefault
  · exact hread v a hv

theorem pos_of_positive {v : Json} {n : Nat} (h : positive v = .ok n) : 0 < n := by
  unfold positive at h
  split at h
  · split at h
    · cases h
      omega
    · cases h
  · cases h

theorem le_of_upTo {bound : Nat} {v : Json} {n : Nat} (h : upTo bound v = .ok n) : n ≤ bound := by
  unfold upTo at h
  split at h
  · split at h
    · cases h
    · split at h
      · cases h
      · cases h
        omega
  · cases h

end Field

namespace Settings

/-- The numbers of settings are within their bounds. -/
structure Bounded (settings : Settings) : Prop where
  maxSchemaSize : 0 < settings.maxSchemaSize
  maxSchemaDepth : 0 < settings.maxSchemaDepth
  progressByteBudget : 0 < settings.progressByteBudget
  progressCap : settings.progressCap ≤ 100
  historyLimit : 0 < settings.historyLimit

theorem bounded_of_read {environment : List (String × String)} {arguments : Fields}
    {settings : Settings} (h : read environment arguments = .ok settings) : settings.Bounded := by
  unfold read at h
  dsimp only at h
  split at h
  · rename_i hchecked
    cases h
    simp only [Field.both_eq_ok_iff] at hchecked
    obtain ⟨-, -, hsize, hdepth, hbudget, hcap, -, hlimit, -⟩ := hchecked
    have hpositive : ∀ v n, Field.positive v = .ok n → 0 < n := fun v n => Field.pos_of_positive
    have hupTo : ∀ v n, Field.upTo 100 v = .ok n → n ≤ 100 := fun v n => Field.le_of_upTo
    exact {
      maxSchemaSize := Field.of_optional hsize (by decide) hpositive
      maxSchemaDepth := Field.of_optional hdepth (by decide) hpositive
      progressByteBudget := Field.of_optional hbudget (by decide) hpositive
      progressCap := Field.of_optional (p := (· ≤ 100)) hcap (by decide) hupTo
      historyLimit := Field.of_optional hlimit (by decide) hpositive }
  · cases h

end Settings

end ViewTree
