import ViewTree.Proofs.Settings
import ViewTree.Proofs.Stream.Books

/-
  ViewTree.Proofs.Stream.Progress — how far a stream has come.

  While values are added to a stream its progress is meant to advance (`Advances`): it never
  goes back, it stays within the cap until the stream has completed, and it is full in a
  completed stream.

  Nothing sets it back before the stream has completed, since the total only grows; behind
  that it is full, and stays so until a partial chunk is accepted, which sets it to what the
  total amounts to (`Paced`). So the progress advances exactly if no partial chunk is
  accepted behind the completion while the total falls short of the whole
  (`advances_iff`). `piece_behind_completion` is such a chunk. The cap is at most 100, as in
  all settings that were read (`Settings.bounded_of_read`).
-/

namespace ViewTree.Stream

/-! ## Adding values -/

/-- The stream once all values were added. -/
def addAll (settings : Settings) (s : Stream) (values : List Json) : Stream :=
  values.foldl (fun s v => (s.addValue settings v).2.1) s

/-- A value completes a stream. -/
def Completes (settings : Settings) (s : Stream) (v : Json) : Prop :=
  ∃ schema, s.brought? settings v = some (.completed schema)

/-- One of the values completed the stream. -/
def Completed (settings : Settings) (s : Stream) (values : List Json) : Prop :=
  ∃ before v after, values = before ++ v :: after ∧ Completes settings (addAll settings s before) v

/-- The progress advances from value to value. -/
structure Advances (settings : Settings) (s : Stream) (values : List Json) : Prop where
  neverBack : ∀ before v after, values = before ++ v :: after →
    (addAll settings s before).percent ≤ (addAll settings s (before ++ [v])).percent
  capped : ∀ before after, values = before ++ after → ¬ Completed settings s before →
    (addAll settings s before).percent ≤ settings.progressCap
  full : ∀ before after, values = before ++ after →
    (addAll settings s before).state = .complete → (addAll settings s before).percent = 100

/-- Behind the completion a partial chunk is accepted, and the total falls short. -/
def SetsBack (settings : Settings) (s : Stream) (values : List Json) : Prop :=
  ∃ before v after c, values = before ++ v :: after ∧ Completed settings s before ∧
    accepted? settings (addAll settings s before) v = some c ∧ c.type = .partialData ∧
    progress settings (addAll settings s (before ++ [v])).total < 100

section Adding

variable {settings : Settings} {s : Stream} {values : List Json} {v : Json}

theorem addAll_concat : addAll settings s (values ++ [v]) =
    ((addAll settings s values).addValue settings v).2.1 := by
  rw [addAll, List.foldl_append]
  rfl

theorem not_completed_nil : ¬ Completed settings s [] := by
  rintro ⟨before, w, after, hsplit, -⟩
  simp at hsplit

theorem completed_concat_iff : Completed settings s (values ++ [v]) ↔
    Completed settings s values ∨ Completes settings (addAll settings s values) v := by
  constructor
  · rintro ⟨before, w, after, hsplit, hcompletes⟩
    rcases List.eq_nil_or_concat after with rfl | ⟨after, last, rfl⟩
    · obtain ⟨rfl, hv⟩ := List.append_inj' hsplit rfl
      obtain rfl : v = w := by simpa using hv
      exact .inr hcompletes
    · rw [List.concat_eq_append, ← List.cons_append, ← List.append_assoc] at hsplit
      obtain ⟨rfl, -⟩ := List.append_inj' hsplit rfl
      exact .inl ⟨before, w, after, rfl, hcompletes⟩
  · rintro (⟨before, w, after, rfl, hcompletes⟩ | hcompletes)
    · exact ⟨before, w, after ++ [v], by simp, hcompletes⟩
    · exact ⟨values, v, [], rfl, hcompletes⟩

end Adding

/-! ## One value -/

theorem progress_le_cap (settings : Settings) (total : Nat) :
    progress settings total ≤ settings.progressCap := Nat.min_le_left _ _

theorem progress_mono (settings : Settings) {m n : Nat} (h : m ≤ n) :
    progress settings m ≤ progress settings n := by
  have hparts : m * 100 / settings.progressByteBudget ≤ n * 100 / settings.progressByteBudget :=
    Nat.div_le_div_right (Nat.mul_le_mul_right 100 h)
  unfold progress
  omega

section Values

variable {settings : Settings} {s : Stream} {v : Json} {c : Chunk}

/-- An accepted partial chunk sets the progress, and completes nothing. -/
theorem addValue_partial (h : accepted? settings s v = some c) (htype : c.type = .partialData) :
    s.total ≤ (s.addValue settings v).2.1.total ∧
      (s.addValue settings v).2.1.percent = progress settings (s.addValue settings v).2.1.total ∧
      ¬ Completes settings s v := by
  obtain ⟨hv, horder⟩ := accepted?_eq_some_iff.mp h
  rw [(addValue_of_accepted h).2, addChunk_partial horder htype]
  refine ⟨?_, rfl, ?_⟩
  · show s.total ≤ (s.mark c.sequence).total + c.data.serializedSize
    rw [mark_total]
    exact Nat.le_add_right _ _
  · rintro ⟨schema, hbrought⟩
    simp [brought?, hv, horder, brings?, htype] at hbrought

theorem brought?_of_not_accepted (h : accepted? settings s v = none) :
    s.brought? settings v = none := by
  unfold brought?
  cases hc : Chunk.ofJson v with
  | error rejection => rfl
  | ok c =>
    by_cases horder : outOfOrder settings s c.sequence = true
    · simp only [horder, if_true]
    · have hsome := accepted?_eq_some_iff.mpr ⟨hc, Bool.eq_false_iff.mpr horder⟩
      rw [h] at hsome
      cases hsome

/-- Any other value leaves the total, and the progress to the ending it brings. -/
theorem addValue_other (h : ∀ c, accepted? settings s v = some c → c.type ≠ .partialData) :
    (s.addValue settings v).2.1.total = s.total ∧
      (s.addValue settings v).2.1.percent = percentAfter s.percent (s.brought? settings v) := by
  cases hv : accepted? settings s v with
  | none =>
    rw [addValue_of_not_accepted hv, brought?_of_not_accepted hv]
    exact ⟨rfl, rfl⟩
  | some c =>
    obtain ⟨hc, horder⟩ := accepted?_eq_some_iff.mp hv
    obtain ⟨-, htotal, hpercent⟩ := addChunk_counts horder (h c hv)
    have hbrought : s.brought? settings v = s.brings? c := by simp [brought?, hc, horder]
    rw [(addValue_of_accepted hv).2, hbrought]
    exact ⟨htotal, hpercent⟩

/-- What a value does to the progress: a partial chunk sets it to what the grown total amounts
    to, a value that completes the stream makes it full, and any other leaves it. -/
theorem addValue_percent (settings : Settings) (s : Stream) (v : Json) :
    (∃ c, accepted? settings s v = some c ∧ c.type = .partialData ∧ ¬ Completes settings s v ∧
      s.total ≤ (s.addValue settings v).2.1.total ∧
      (s.addValue settings v).2.1.percent =
        progress settings (s.addValue settings v).2.1.total) ∨
    ((s.addValue settings v).2.1.total = s.total ∧
      (Completes settings s v → (s.addValue settings v).2.1.percent = 100) ∧
      (¬ Completes settings s v → (s.addValue settings v).2.1.percent = s.percent)) := by
  by_cases hpartial : ∃ c, accepted? settings s v = some c ∧ c.type = .partialData
  · obtain ⟨c, hc, htype⟩ := hpartial
    obtain ⟨htotal, hpercent, hnot⟩ := addValue_partial hc htype
    exact .inl ⟨c, hc, htype, hnot, htotal, hpercent⟩
  · obtain ⟨htotal, hpercent⟩ := addValue_other fun c hc htype => hpartial ⟨c, hc, htype⟩
    refine .inr ⟨htotal, ?_, ?_⟩
    · rintro ⟨schema, hbrought⟩
      rw [hpercent, hbrought]
      rfl
    · intro hnot
      rw [hpercent]
      rcases hbrought : s.brought? settings v with _ | ⟨schema⟩ | ⟨error⟩
      · rfl
      · exact absurd ⟨schema, hbrought⟩ hnot
      · rfl

/-- Behind a value that completes the stream the progress is full. -/
theorem percent_of_completes (h : Completes settings s v) :
    (s.addValue settings v).2.1.percent = 100 := by
  rcases addValue_percent settings s v with ⟨-, -, -, hnot, -⟩ | ⟨-, hfull, -⟩
  · exact absurd h hnot
  · exact hfull h

/-- Only a value that completes it makes a stream complete. -/
theorem complete_of_addValue (h : (s.addValue settings v).2.1.state = .complete) :
    s.state = .complete ∨ Completes settings s v := by
  have hends := addValue_ends settings s v
  rcases hbrought : s.brought? settings v with _ | ⟨schema⟩ | ⟨error⟩
  · rw [hbrought] at hends
    exact .inl (hends.1.symm.trans h)
  · exact .inr ⟨schema, hbrought⟩
  · rw [hbrought, Ends] at hends
    rw [h] at hends
    cases hends.1

end Values

/-! ## Every run -/

/-- The pace of a stream to which values were added: full once it has completed, and what
    the total amounts to before. -/
structure Paced (settings : Settings) (s : Stream) (values : List Json) : Prop where
  completed : Completed settings s values → (addAll settings s values).percent = 100
  unfinished : ¬ Completed settings s values →
    (addAll settings s values).percent = progress settings (addAll settings s values).total ∧
      (addAll settings s values).state ≠ .complete

/-- A run that begins with another is set back where the other is. -/
theorem SetsBack.append {settings : Settings} {s : Stream} {values : List Json}
    (h : SetsBack settings s values) (more : List Json) : SetsBack settings s (values ++ more) := by
  obtain ⟨before, v, after, c, rfl, hrest⟩ := h
  exact ⟨before, v, after ++ more, c, by simp, hrest⟩

theorem paced_start (settings : Settings) (t : Stream) : Paced settings t.start.1 [] := by
  refine ⟨fun hcompleted => absurd hcompleted not_completed_nil, fun _ => ⟨?_, nofun⟩⟩
  show 0 = progress settings 0
  simp [progress]

section Runs

variable {settings : Settings} {s : Stream} {values : List Json} {v : Json}

/-- Unless a value sets it back, the progress of a completed stream stays full. -/
theorem full_of_completed (hcap : settings.progressCap ≤ 100)
    (hcompleted : Completed settings s values) (hfull : (addAll settings s values).percent = 100)
    (hback : ¬ SetsBack settings s (values ++ [v])) :
    (addAll settings s (values ++ [v])).percent = 100 := by
  rcases addValue_percent settings (addAll settings s values) v with
    ⟨c, hc, htype, -, -, hpercent⟩ | ⟨-, hcompletes, hleft⟩
  · rw [← addAll_concat] at hpercent
    have hcapped := progress_le_cap settings (addAll settings s (values ++ [v])).total
    have henough : ¬ progress settings (addAll settings s (values ++ [v])).total < 100 :=
      fun hshort => hback ⟨values, v, [], c, rfl, hcompleted, hc, htype, hshort⟩
    omega
  · rw [addAll_concat]
    by_cases h : Completes settings (addAll settings s values) v
    · exact hcompletes h
    · rw [hleft h, hfull]

/-- While the stream has not completed, a value leaves the progress at what the total, which
    it does not lessen, amounts to. -/
theorem unfinished_concat (h : ¬ Completes settings (addAll settings s values) v)
    (hpercent : (addAll settings s values).percent =
      progress settings (addAll settings s values).total) :
    (addAll settings s values).total ≤ (addAll settings s (values ++ [v])).total ∧
      (addAll settings s (values ++ [v])).percent =
        progress settings (addAll settings s (values ++ [v])).total := by
  rw [addAll_concat]
  rcases addValue_percent settings (addAll settings s values) v with
    ⟨c, -, -, -, htotal, hset⟩ | ⟨htotal, -, hleft⟩
  · exact ⟨htotal, hset⟩
  · rw [hleft h, htotal]
    exact ⟨Nat.le_refl _, hpercent⟩

theorem Paced.concat (hcap : settings.progressCap ≤ 100) (h : Paced settings s values)
    (hback : ¬ SetsBack settings s (values ++ [v])) : Paced settings s (values ++ [v]) := by
  refine ⟨?_, ?_⟩
  · intro hcompleted
    rcases completed_concat_iff.mp hcompleted with hbefore | hcompletes
    · exact full_of_completed hcap hbefore (h.completed hbefore) hback
    · rw [addAll_concat]
      exact percent_of_completes hcompletes
  · intro hnot
    rw [completed_concat_iff, not_or] at hnot
    obtain ⟨hbefore, hcompletes⟩ := hnot
    obtain ⟨hpercent, hstate⟩ := h.unfinished hbefore
    refine ⟨(unfinished_concat hcompletes hpercent).2, ?_⟩
    rw [addAll_concat]
    exact fun hcomplete => (complete_of_addValue hcomplete).elim hstate hcompletes

/-- A run that is not set back keeps the pace. -/
theorem Paced.run (hcap : settings.progressCap ≤ 100) (h : Paced settings s values)
    (more : List Json) (hback : ¬ SetsBack settings s (values ++ more)) :
    Paced settings s (values ++ more) := by
  induction more generalizing values with
  | nil => rwa [List.append_nil]
  | cons v more ih =>
    -- The value joins those before it, so that the pace is kept across it first.
    rw [List.append_cons] at hback ⊢
    have hhere : ¬ SetsBack settings s (values ++ [v]) := fun hset => hback (hset.append more)
    exact ih (h.concat hcap hhere) hback

/-- With the pace kept, no value takes the progress back. -/
theorem Paced.percent_le (hcap : settings.progressCap ≤ 100) (h : Paced settings s values)
    (hnext : Paced settings s (values ++ [v])) :
    (addAll settings s values).percent ≤ (addAll settings s (values ++ [v])).percent := by
  by_cases hcompleted : Completed settings s values
  · have hfull := hnext.completed (completed_concat_iff.mpr (.inl hcompleted))
    exact Nat.le_of_eq ((h.completed hcompleted).trans hfull.symm)
  · obtain ⟨hpercent, -⟩ := h.unfinished hcompleted
    rw [hpercent]
    by_cases hcompletes : Completes settings (addAll settings s values) v
    · rw [hnext.completed (completed_concat_iff.mpr (.inr hcompletes))]
      have hcapped := progress_le_cap settings (addAll settings s values).total
      omega
    · obtain ⟨htotal, hset⟩ := unfinished_concat hcompletes hpercent
      rw [hset]
      exact progress_mono settings htotal

/-- A progress that never goes back from value to value never goes back. -/
theorem Advances.percent_le (h : Advances settings s values) (before mid after : List Json)
    (hsplit : values = before ++ mid ++ after) :
    (addAll settings s before).percent ≤ (addAll settings s (before ++ mid)).percent := by
  induction mid generalizing before with
  | nil => exact Nat.le_of_eq (by rw [List.append_nil])
  | cons v mid ih =>
    have hstep := h.neverBack before v (mid ++ after) (by simp [hsplit])
    have hrest := ih (before ++ [v]) (by simp [hsplit])
    rw [List.append_cons]
    exact Nat.le_trans hstep hrest

/-- So it is full behind a completion. -/
theorem Advances.full_of_completed (h : Advances settings s values) {before after : List Json}
    (hsplit : values = before ++ after) (hcompleted : Completed settings s before) :
    100 ≤ (addAll settings s before).percent := by
  obtain ⟨first, v, rest, rfl, hcompletes⟩ := hcompleted
  have hlater := h.percent_le (first ++ [v]) rest after (by simp [hsplit])
  rwa [addAll_concat, percent_of_completes hcompletes, ← List.append_cons] at hlater

end Runs

/-- Added to a stream that has just started, values advance its progress exactly if no
    partial chunk is accepted behind the completion while the total falls short. -/
theorem advances_iff (settings : Settings) (hcap : settings.progressCap ≤ 100) (t : Stream)
    (values : List Json) :
    Advances settings t.start.1 values ↔ ¬ SetsBack settings t.start.1 values := by
  constructor
  · rintro hadvances ⟨before, v, after, c, rfl, hcompleted, hc, htype, hshort⟩
    have hfull := hadvances.full_of_completed rfl hcompleted
    have hle := hadvances.neverBack before v after rfl
    have hset := (addValue_partial hc htype).2.1
    rw [← addAll_concat] at hset
    omega
  · intro hback
    have hpaced : ∀ before after, values = before ++ after → Paced settings t.start.1 before := by
      rintro before after rfl
      exact (paced_start settings t).run hcap before fun hset => hback (hset.append after)
    refine ⟨?_, ?_, ?_⟩
    · intro before v after hsplit
      exact (hpaced before (v :: after) hsplit).percent_le hcap
        (hpaced (before ++ [v]) after (by rw [hsplit, List.append_cons]))
    · intro before after hsplit hnot
      rw [((hpaced before after hsplit).unfinished hnot).1]
      exact progress_le_cap settings _
    · intro before after hsplit hcomplete
      have hhere := hpaced before after hsplit
      exact hhere.completed <| Classical.not_not.mp fun hnot =>
        (hhere.unfinished hnot).2 hcomplete

/-- A failure behind the completion leaves the progress as it is. -/
theorem failure_behind_completion :
    let values := [Chunk.wire ⟨.partialData, .str "abc", none⟩,
      Chunk.wire ⟨.complete, .obj [("type", .str "card")], none⟩,
      Chunk.wire ⟨.error, .str "down", none⟩]
    Settings.default.progressCap ≤ 100 ∧ Advances .default idle.start.1 values ∧
      (addAll .default idle.start.1 values).state = .error ∧
      (addAll .default idle.start.1 values).percent = 100 := by
  intro values
  refine ⟨by decide, (advances_iff .default (by decide) idle values).mpr ?_, by decide +kernel,
    by decide +kernel⟩
  rintro ⟨before, v, after, c, hsplit, hcompleted, hc, htype, -⟩
  obtain ⟨hv, -⟩ := accepted?_eq_some_iff.mp hc
  rcases before with _ | ⟨piece, before⟩
  · exact not_completed_nil hcompleted
  · have hbehind : v ∈ values.tail := by simp [hsplit]
    have hkinds : ∀ v ∈ values.tail, (Chunk.ofJson v).toOption.map Chunk.type ≠
        some .partialData := by decide +kernel
    exact hkinds v hbehind (by rw [hv, ← htype]; rfl)

/-- A piece that arrives behind the completion takes the progress back to what the pieces
    amount to, and the stream stays complete. -/
theorem piece_behind_completion :
    let values := [Chunk.wire ⟨.complete, .obj [("type", .str "card")], none⟩,
      Chunk.wire ⟨.partialData, .str "abc", none⟩]
    ¬ Advances .default idle.start.1 values ∧
      (addAll .default idle.start.1 values).state = .complete ∧
      (addAll .default idle.start.1 values).percent = 0 := by
  intro values
  have hstate : (addAll .default idle.start.1 values).state = .complete := by decide +kernel
  have hpercent : (addAll .default idle.start.1 values).percent = 0 := by decide +kernel
  refine ⟨fun h => ?_, hstate, hpercent⟩
  have hfull := h.full values [] (by simp) hstate
  rw [hpercent] at hfull
  cases hfull

end ViewTree.Stream
