import ViewTree.Patch.Engine
import ViewTree.Proofs.Telemetry.Counters

/-
  ViewTree.Proofs.Patch.Replay — a run of patches is the replay of those that applied.

  `Runs k d ps o`: the patches `ps`, counted from position `k`, take the document `d` to
  the outcome `o`. It has one rule per fate of the next patch and says the same as
  `runFrom` (`runs_iff`), so what every run keeps is an induction over the rules.

  Proved, over every document and every list of patches whose run has an outcome:
  - every patch is applied or skipped, and the skips name increasing positions
    (`Runs.applied_add_skipped`, `Runs.index_bounds`, `Runs.index_increasing`);
  - the patches at the other positions, run by themselves, skip nothing and lead to the
    same tree (`Runs.replay`);
  - the run of a list in two parts is the run of the parts one after the other
    (`runs_append`), where the second may be counted from any position (`Runs.move_up`,
    `Runs.move_down`);
  - the counter of patch operations grows by the outcome's own numbers
    (`Runs.counted_status`).
-/

namespace ViewTree.Patch

open Telemetry

/-! ## Runs as rules -/

/-- An outcome with one more operation applied before it. -/
def Outcome.afterApplied (op : String) (o : Outcome) : Outcome :=
  { o with applied := o.applied + 1,
           journal := .measure (.patchOperation op "applied") :: o.journal }

/-- An outcome with one more patch skipped before it. -/
def Outcome.afterSkipped (index : Nat) (patch : Json) (cause : SkipCause) (o : Outcome) :
    Outcome :=
  { o with skipped := skipOf index patch cause :: o.skipped,
           journal := skipJournal index patch cause ++ o.journal }

inductive Runs : Nat → Json → List Json → Outcome → Prop
  | nil (k : Nat) (d : Json) : Runs k d [] ⟨d, 0, [], []⟩
  | applied {k : Nat} {d d' p : Json} {op : String} {rest : List Json} {o : Outcome} :
      step d p = .applied d' op → Runs (k + 1) d' rest o → Runs k d (p :: rest) (o.afterApplied op)
  | skipped {k : Nat} {d p : Json} {cause : SkipCause} {rest : List Json} {o : Outcome} :
      step d p = .skipped cause → Runs (k + 1) d rest o →
        Runs k d (p :: rest) (o.afterSkipped k p cause)

theorem Runs.runFrom_eq {k : Nat} {d : Json} {ps : List Json} {o : Outcome} (h : Runs k d ps o) :
    runFrom k d ps = .ok o := by
  induction h with
  | nil k d => rfl
  | applied hs _ ih => simp only [runFrom, hs, ih]; rfl
  | skipped hs _ ih => simp only [runFrom, hs, ih]; rfl

theorem runs_of_runFrom {k : Nat} {d : Json} {ps : List Json} {o : Outcome}
    (h : runFrom k d ps = .ok o) : Runs k d ps o := by
  induction ps generalizing k d o with
  | nil => cases h; exact .nil k d
  | cons p rest ih =>
    simp only [runFrom] at h
    cases hs : step d p with
    | stopped => simp only [hs] at h; cases h
    | applied d' op =>
      simp only [hs] at h
      cases hr : runFrom (k + 1) d' rest with
      | error i => simp only [hr] at h; cases h
      | ok r => simp only [hr] at h; cases h; exact .applied hs (ih hr)
    | skipped cause =>
      simp only [hs] at h
      cases hr : runFrom (k + 1) d rest with
      | error i => simp only [hr] at h; cases h
      | ok r => simp only [hr] at h; cases h; exact .skipped hs (ih hr)

theorem runs_iff {k : Nat} {d : Json} {ps : List Json} {o : Outcome} :
    Runs k d ps o ↔ runFrom k d ps = .ok o :=
  ⟨Runs.runFrom_eq, runs_of_runFrom⟩

theorem Runs.unique {k : Nat} {d : Json} {ps : List Json} {o o' : Outcome} (h : Runs k d ps o)
    (h' : Runs k d ps o') : o = o' := by
  have := h.runFrom_eq.symm.trans h'.runFrom_eq
  exact Except.ok.inj this

/-! ## Every patch has one fate -/

section Fates
variable {k : Nat} {d : Json} {ps : List Json} {o : Outcome}

theorem Runs.applied_add_skipped (h : Runs k d ps o) :
    o.applied + o.skipped.length = ps.length := by
  induction h with
  | nil => rfl
  | applied _ _ ih => simp only [Outcome.afterApplied, List.length_cons]; omega
  | skipped _ _ ih => simp only [Outcome.afterSkipped, List.length_cons]; omega

theorem Runs.index_bounds (h : Runs k d ps o) :
    ∀ s ∈ o.skipped, k ≤ s.index ∧ s.index < k + ps.length := by
  induction h with
  | nil => intro s hs; cases hs
  | applied _ _ ih =>
    intro s hs
    obtain ⟨hlo, hhi⟩ := ih s hs
    simp only [List.length_cons]
    omega
  | skipped _ _ ih =>
    intro s hs
    simp only [List.length_cons]
    rcases List.mem_cons.mp hs with rfl | hs
    · simp only [skipOf]; omega
    · obtain ⟨hlo, hhi⟩ := ih s hs
      omega

theorem Runs.index_increasing (h : Runs k d ps o) :
    (o.skipped.map Skip.index).Pairwise (· < ·) := by
  induction h with
  | nil => exact .nil
  | applied _ _ ih => exact ih
  | skipped _ hr ih =>
    refine List.pairwise_cons.mpr ⟨fun i hi => ?_, ih⟩
    obtain ⟨s, hs, rfl⟩ := List.mem_map.mp hi
    exact (hr.index_bounds s hs).1

/-! ## Replay -/

/-- The patches whose positions, counted from `k`, are not among the skipped ones. -/
def keptFrom (k : Nat) (skipped : List Skip) (ps : List Json) : List Json :=
  ((ps.zipIdx k).filter fun x => x.2 ∉ skipped.map Skip.index).map Prod.fst

theorem keptFrom_cons (k : Nat) (skipped : List Skip) (p : Json) (ps : List Json) :
    keptFrom k skipped (p :: ps) =
      if k ∈ skipped.map Skip.index then keptFrom (k + 1) skipped ps
      else p :: keptFrom (k + 1) skipped ps := by
  unfold keptFrom
  rw [List.zipIdx_cons]
  split
  · rename_i h
    rw [List.filter_cons_of_neg (by simpa using h)]
  · rename_i h
    rw [List.filter_cons_of_pos (by simpa using h), List.map_cons]

/-- A skip before all positions makes no difference to what is kept. -/
theorem keptFrom_skip {s : Skip} {k : Nat} (h : s.index < k) (skipped : List Skip)
    (ps : List Json) : keptFrom k (s :: skipped) ps = keptFrom k skipped ps := by
  unfold keptFrom
  congr 1
  refine List.filter_congr fun x hx => ?_
  have hk := List.le_snd_of_mem_zipIdx hx
  have hne : x.2 ≠ s.index := by omega
  refine decide_eq_decide.mpr (not_congr ?_)
  simp only [List.map_cons, List.mem_cons, hne, false_or]

/-- Run by themselves, the patches that applied all apply again, to the same tree. -/
theorem Runs.replay (h : Runs k d ps o) (j : Nat) :
    ∃ r, Runs j d (keptFrom k o.skipped ps) r ∧ r.skipped = [] ∧ r.applied = o.applied ∧
      r.tree = o.tree := by
  induction h generalizing j with
  | nil k d => exact ⟨_, .nil j d, rfl, rfl, rfl⟩
  | @applied k d d' p op rest o hs hr ih =>
    obtain ⟨r, hrun, hnone, hcount, htree⟩ := ih (j + 1)
    have hk : ¬ k ∈ o.skipped.map Skip.index := by
      intro hk
      obtain ⟨s, hmem, hindex⟩ := List.mem_map.mp hk
      have := (hr.index_bounds s hmem).1
      omega
    have hkept : keptFrom k (o.afterApplied op).skipped (p :: rest) =
        p :: keptFrom (k + 1) o.skipped rest := by
      rw [keptFrom_cons]
      exact if_neg hk
    rw [hkept]
    exact ⟨_, .applied hs hrun, hnone, congrArg (· + 1) hcount, htree⟩
  | @skipped k d p cause rest o hs hr ih =>
    obtain ⟨r, hrun, hnone, hcount, htree⟩ := ih j
    have hkept : keptFrom k (o.afterSkipped k p cause).skipped (p :: rest) =
        keptFrom (k + 1) o.skipped rest := by
      rw [keptFrom_cons]
      exact (if_pos List.mem_cons_self).trans (keptFrom_skip (Nat.lt_succ_self k) o.skipped rest)
    rw [hkept]
    exact ⟨r, hrun, hnone, hcount, htree⟩

end Fates

/-! ## Positions -/

/-- A skip counted from a later position. -/
def Skip.shift (n : Nat) (s : Skip) : Skip := { s with index := s.index + n }

/-- Two outcomes that differ in the positions they count, and in the journal. -/
structure Outcome.Shifted (n : Nat) (o r : Outcome) : Prop where
  tree : r.tree = o.tree
  applied : r.applied = o.applied
  skipped : r.skipped = o.skipped.map (Skip.shift n)

theorem Outcome.Shifted.afterApplied {n : Nat} {o r : Outcome} (h : o.Shifted n r) (op : String) :
    (o.afterApplied op).Shifted n (r.afterApplied op) :=
  ⟨h.tree, congrArg (· + 1) h.applied, h.skipped⟩

theorem Outcome.Shifted.afterSkipped {n : Nat} {o r : Outcome} (h : o.Shifted n r) (k : Nat)
    (p : Json) (cause : SkipCause) :
    (o.afterSkipped k p cause).Shifted n (r.afterSkipped (k + n) p cause) :=
  ⟨h.tree, h.applied, congrArg (skipOf (k + n) p cause :: ·) h.skipped⟩

/-- A run may be counted from a later position. -/
theorem Runs.move_up {k : Nat} {d : Json} {ps : List Json} {o : Outcome} (h : Runs k d ps o)
    (n : Nat) : ∃ r, Runs (k + n) d ps r ∧ o.Shifted n r := by
  induction h with
  | nil k d => exact ⟨_, .nil (k + n) d, rfl, rfl, rfl⟩
  | applied hs _ ih =>
    obtain ⟨r, hrun, hr⟩ := ih
    rw [Nat.add_right_comm] at hrun
    exact ⟨_, .applied hs hrun, hr.afterApplied _⟩
  | skipped hs _ ih =>
    obtain ⟨r, hrun, hr⟩ := ih
    rw [Nat.add_right_comm] at hrun
    exact ⟨_, .skipped hs hrun, hr.afterSkipped _ _ _⟩

/-- And from an earlier one. -/
theorem Runs.move_down {k n : Nat} {d : Json} {ps : List Json} {r : Outcome}
    (h : Runs (k + n) d ps r) : ∃ o, Runs k d ps o ∧ o.Shifted n r := by
  generalize hj : k + n = j at h
  induction h generalizing k with
  | nil j d => exact ⟨_, .nil k d, rfl, rfl, rfl⟩
  | applied hs _ ih =>
    obtain ⟨o, hrun, ho⟩ := ih (k := k + 1) (by omega)
    exact ⟨_, .applied hs hrun, ho.afterApplied _⟩
  | skipped hs _ ih =>
    obtain ⟨o, hrun, ho⟩ := ih (k := k + 1) (by omega)
    subst hj
    exact ⟨_, .skipped hs hrun, ho.afterSkipped _ _ _⟩

/-! ## Runs in two parts -/

/-- The outcome of a run followed by another one on its tree. -/
def Outcome.andThen (p r : Outcome) : Outcome :=
  ⟨r.tree, p.applied + r.applied, p.skipped ++ r.skipped, p.journal ++ r.journal⟩

theorem Outcome.afterApplied_andThen (op : String) (p r : Outcome) :
    (p.afterApplied op).andThen r = (p.andThen r).afterApplied op := by
  simp [Outcome.afterApplied, Outcome.andThen, Nat.add_right_comm]

theorem Outcome.afterSkipped_andThen (k : Nat) (patch : Json) (cause : SkipCause)
    (p r : Outcome) :
    (p.afterSkipped k patch cause).andThen r = (p.andThen r).afterSkipped k patch cause := by
  simp [Outcome.afterSkipped, Outcome.andThen]

theorem add_length_cons (k : Nat) (q : Json) (qs : List Json) :
    k + (q :: qs).length = k + 1 + qs.length := by
  rw [List.length_cons]
  omega

theorem Runs.append {k : Nat} {d : Json} {qs rs : List Json} {p r : Outcome} (hq : Runs k d qs p)
    (hr : Runs (k + qs.length) p.tree rs r) : Runs k d (qs ++ rs) (p.andThen r) := by
  induction hq with
  | nil k d => simpa [Outcome.andThen] using hr
  | applied hs _ ih =>
    rw [Outcome.afterApplied_andThen]
    rw [add_length_cons] at hr
    exact .applied hs (ih hr)
  | skipped hs _ ih =>
    rw [Outcome.afterSkipped_andThen]
    rw [add_length_cons] at hr
    exact .skipped hs (ih hr)

theorem Runs.split {k : Nat} {d : Json} {qs rs : List Json} {o : Outcome}
    (h : Runs k d (qs ++ rs) o) :
    ∃ p r, Runs k d qs p ∧ Runs (k + qs.length) p.tree rs r ∧ o = p.andThen r := by
  induction qs generalizing k d o with
  | nil => exact ⟨_, o, .nil k d, h, by simp [Outcome.andThen]⟩
  | cons q qs ih =>
    rw [add_length_cons]
    cases h with
    | applied hs h =>
      obtain ⟨p, r, hp, hr, rfl⟩ := ih h
      exact ⟨_, r, .applied hs hp, hr, (Outcome.afterApplied_andThen _ p r).symm⟩
    | skipped hs h =>
      obtain ⟨p, r, hp, hr, rfl⟩ := ih h
      exact ⟨_, r, .skipped hs hp, hr, (Outcome.afterSkipped_andThen _ _ _ p r).symm⟩

/-- One more patch at the end is applied or skipped, unless it stops the run. -/
theorem Runs.snoc {k : Nat} {d p : Json} {ps : List Json} {o : Outcome} (h : Runs k d ps o)
    (hp : step o.tree p ≠ .stopped) :
    ∃ o', Runs k d (ps ++ [p]) o' ∧
      ((∃ op, step o.tree p = .applied o'.tree op ∧ o'.applied = o.applied + 1 ∧
          o'.skipped = o.skipped) ∨
        ∃ cause, step o.tree p = .skipped cause ∧ o'.tree = o.tree ∧ o'.applied = o.applied ∧
          o'.skipped = o.skipped ++ [skipOf (k + ps.length) p cause]) := by
  cases hs : step o.tree p with
  | stopped => exact absurd hs hp
  | applied d' op =>
    exact ⟨_, h.append (.applied hs (.nil _ d')), .inl ⟨op, rfl, rfl, List.append_nil _⟩⟩
  | skipped cause =>
    exact ⟨_, h.append (.skipped hs (.nil _ o.tree)), .inr ⟨cause, rfl, rfl, rfl, rfl⟩⟩

/-- A run of a list in two parts is a run of the first and then of the second. -/
theorem runs_append {k : Nat} {d : Json} {qs rs : List Json} {o : Outcome} :
    Runs k d (qs ++ rs) o ↔
      ∃ p r, Runs k d qs p ∧ Runs (k + qs.length) p.tree rs r ∧ o = p.andThen r := by
  refine ⟨Runs.split, ?_⟩
  rintro ⟨p, r, hp, hr, rfl⟩
  exact hp.append hr

/-! ## The counter of patch operations -/

/-- A skip is measured once, whatever it is logged as. -/
theorem measures_skipJournal (index : Nat) (patch : Json) (cause : SkipCause) :
    Journal.measures (skipJournal index patch cause) =
      [.patchOperation (rawField "op" patch).shown "skipped"] := by
  cases cause <;> rfl

theorem ofStatus_patchLabels (op status wanted : String) :
    (Metrics.patchLabels (.patchOperation op status)).any (Metrics.ofStatus wanted) =
      (wanted == status) := by
  simp [Metrics.patchLabels, Metrics.ofStatus, Bool.beq_eq_decide_eq]

/-- Each status is counted as often as the outcome says; there are two. -/
theorem Runs.counted_status {k : Nat} {d : Json} {ps : List Json} {o : Outcome}
    (h : Runs k d ps o) (status : String) :
    Metrics.counted Metrics.patchLabels (Metrics.ofStatus status) (Journal.measures o.journal) =
      (if status = "applied" then o.applied else 0) +
        if status = "skipped" then o.skipped.length else 0 := by
  induction h with
  | nil => simp
  | applied _ _ ih =>
    simp only [Outcome.afterApplied, Journal.measures_measure, Metrics.counted_cons, ih,
      ofStatus_patchLabels, beq_iff_eq]
    split <;> omega
  | skipped _ _ ih =>
    simp only [Outcome.afterSkipped, Journal.measures_append, measures_skipJournal,
      Metrics.counted_append, Metrics.counted_cons, Metrics.counted_nil, ih, ofStatus_patchLabels,
      beq_iff_eq, List.length_cons]
    split <;> split <;> omega

/-! ## A run is the replay of what applied -/

/-- A run that has an outcome is the replay of the patches that applied: every patch is
    applied or skipped, the skips name increasing positions, the patches at the other
    positions apply by themselves to the same tree, the list may be run in two parts
    anywhere, and the counter of patch operations grows by the same numbers. -/
theorem run_is_replay {d : Json} {ps : List Json} {o : Outcome} (h : run d ps = .ok o) :
    o.applied + o.skipped.length = ps.length ∧
    (o.skipped.map Skip.index).Pairwise (· < ·) ∧
    (∀ s ∈ o.skipped, s.index < ps.length) ∧
    (∃ r, run d (keptFrom 0 o.skipped ps) = .ok r ∧ r.skipped = [] ∧ r.applied = o.applied ∧
      r.tree = o.tree) ∧
    (∀ qs rs, ps = qs ++ rs → ∃ p r, run d qs = .ok p ∧ run p.tree rs = .ok r ∧
      o.tree = r.tree ∧ o.applied = p.applied + r.applied ∧
      o.skipped = p.skipped ++ r.skipped.map (Skip.shift qs.length)) ∧
    Metrics.counted Metrics.patchLabels (Metrics.ofStatus "applied")
      (Journal.measures o.journal) = o.applied ∧
    Metrics.counted Metrics.patchLabels (Metrics.ofStatus "skipped")
      (Journal.measures o.journal) = o.skipped.length := by
  have hrun : Runs 0 d ps o := runs_of_runFrom h
  refine ⟨hrun.applied_add_skipped, hrun.index_increasing, ?_, ?_, ?_, ?_, ?_⟩
  · intro s hs
    have := (hrun.index_bounds s hs).2
    omega
  · obtain ⟨r, hr, hnone, hcount, htree⟩ := hrun.replay 0
    exact ⟨r, hr.runFrom_eq, hnone, hcount, htree⟩
  · rintro qs rs rfl
    obtain ⟨p, r, hp, hr, rfl⟩ := hrun.split
    obtain ⟨r₀, hr₀, hshift⟩ := hr.move_down
    exact ⟨p, r₀, hp.runFrom_eq, hr₀.runFrom_eq, hshift.tree,
      congrArg (p.applied + ·) hshift.applied, congrArg (p.skipped ++ ·) hshift.skipped⟩
  · exact hrun.counted_status "applied"
  · exact (hrun.counted_status "skipped").trans (Nat.zero_add _)

def mixedDocument : Json := .obj [("a", .obj [("b", .int 1)]), ("l", .arr [.int 1])]

/-- A value that is no patch, an addition that makes its parents, one that fails below a
    parent it made, an unknown operation, a move into its own child, a move. -/
def mixedPatches : List Json :=
  [.int 7,
    .obj [("op", .str "add"), ("path", .str "/x/0/y"), ("value", .int 2)],
    .obj [("op", .str "add"), ("path", .str "/n/1/y"), ("value", .int 3)],
    .obj [("op", .str "test"), ("path", .str "/a")],
    .obj [("op", .str "move"), ("from", .str "/a"), ("path", .str "/a/b")],
    .obj [("op", .str "move"), ("from", .str "/a/b"), ("path", .str "/l/-")]]

theorem run_is_replay_mixed :
    ∃ o, run mixedDocument mixedPatches = .ok o ∧ o.skipped.map Skip.index = [0, 2, 3, 4] ∧
      ∃ r, run mixedDocument (keptFrom 0 o.skipped mixedPatches) = .ok r ∧ r.skipped = [] ∧
        r.applied = 2 ∧ r.tree = o.tree := by
  refine ⟨_, rfl, rfl, ?_⟩
  have h : run mixedDocument mixedPatches = .ok _ := rfl
  exact (run_is_replay h).2.2.2.1

end ViewTree.Patch
