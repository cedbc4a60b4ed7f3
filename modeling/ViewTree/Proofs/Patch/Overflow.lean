import ViewTree.Proofs.Patch.Applied

/-
  ViewTree.Proofs.Patch.Overflow — when a run of patches has no outcome.

  A patch that does not apply is skipped, except for one kind. An addition walks down its
  path, making missing parents, and comes to a container and a last segment (`arrival`);
  where the container is a list and the segment denotes a position that no machine word
  holds (`BeyondWord`), the run ends there and answers nothing. Copies and moves end with
  an addition, a move on the document it took the source out of (`additionOn?`).

  Proved, for every document and every list of patches:
  - a patch stops a run exactly then, for all five edits and whatever else may be wrong
    with it (`step_stopped_iff`);
  - a run has an outcome exactly if it meets no such patch; every other patch is applied
    or becomes a skip, and those behind it run on (`run_answers_iff`).
  `huge_position_ends_the_run` is a run that ends although what follows applies.
-/

namespace ViewTree.Patch

/-! ## Where an addition comes to -/

/-- The container and the last segment that an addition comes to; nothing where the walk
    ends early. -/
def arrival : List String → Json → Option (Json × String)
  | [], _ => none
  | [last], parent => some (parent, last)
  | s :: next :: rest, doc =>
    match ensureChild doc s next with
    | .error _ => none
    | .ok (child, _) => arrival (next :: rest) child

/-- A place in a list whose position no machine word holds. -/
def BeyondWord (place : Json × String) : Prop :=
  ∃ items index, place.1 = .arr items ∧ toIndex? place.2 = some index ∧ fitsSigned index = false

/-- The mark for the end of a list is no position. -/
theorem toIndex?_appendMark : toIndex? appendMark = none := by decide +kernel

theorem addMember_stops_iff {path last : String} {value parent : Json} :
    addMember path value last parent = .error .hugeIndex ↔ BeyondWord (parent, last) := by
  unfold BeyondWord
  cases parent with
  | arr items =>
    simp only [addMember]
    by_cases hm : last = appendMark
    · subst hm
      simp [toIndex?_appendMark]
    · cases hi : toIndex? last with
      | none => simp [hm]
      | some index => cases hf : fitsSigned index <;> simp [hm, hf]
  | _ => simp [addMember]

/-- Further up, an addition fails as it does below the child it goes on with. -/
theorem addBelow_error_cons {path s next : String} {value doc child holder : Json}
    {rest : List String} {stop : Stop} (h : ensureChild doc s next = .ok (child, holder)) :
    (addBelow path value (s :: next :: rest) doc).result = .error stop ↔
      (addBelow path value (next :: rest) child).result = .error stop := by
  rw [addBelow, h]
  cases hb : (addBelow path value (next :: rest) child).result <;> simp [Except.map, hb]

theorem addBelow_stops_iff (path : String) (value : Json) (segments : List String) (doc : Json) :
    (addBelow path value segments doc).result = .error .hugeIndex ↔
      ∃ place, arrival segments doc = some place ∧ BeyondWord place := by
  induction segments generalizing doc with
  | nil => simp [addBelow, arrival]
  | cons s rest ih =>
    cases rest with
    | nil =>
      rw [addBelow_last, addMember_stops_iff]
      simp [arrival]
    | cons next rest =>
      cases h : ensureChild doc s next with
      | error f => simp [addBelow, arrival, h]
      | ok found =>
        obtain ⟨child, holder⟩ := found
        rw [addBelow_error_cons h, ih child]
        simp only [arrival, h]

/-- An addition at a path comes to a place beyond all words. -/
def AddsBeyondWord (doc : Json) (path : String) : Prop :=
  ∃ place, arrival (parsePath path) doc = some place ∧ BeyondWord place

theorem add_stops_iff (doc : Json) (path : String) (value : Json) :
    (add doc path value).result = .error .hugeIndex ↔ AddsBeyondWord doc path := by
  unfold add AddsBeyondWord
  cases parsePath path with
  | nil => simp [arrival]
  | cons s rest => exact addBelow_stops_iff path value (s :: rest) doc

/-! ## The other edits -/

theorem Edited.of_ne_huge (doc : Json) (e : Except EditFault Json) :
    (Edited.of doc e).result ≠ .error .hugeIndex := by
  cases e <;> simp [Edited.of]

theorem remove_ne_huge (doc : Json) (path : String) :
    (remove doc path).result ≠ .error .hugeIndex := by
  unfold remove
  cases parsePath path with
  | nil => simp
  | cons s rest => exact Edited.of_ne_huge doc _

theorem replace_ne_huge (doc : Json) (path : String) (value : Json) :
    (replace doc path value).result ≠ .error .hugeIndex := by
  unfold replace
  cases parsePath path with
  | nil => simp
  | cons s rest => exact Edited.of_ne_huge doc _

theorem copy_stops_iff (doc : Json) (path source : String) :
    (copy doc path source).result = .error .hugeIndex ↔
      (∃ value, resolve doc (parsePath source) = .ok value) ∧ AddsBeyondWord doc path := by
  unfold copy
  cases h : resolve doc (parsePath source) with
  | error f => simp
  | ok value => simp [add_stops_iff]

theorem move_stops_iff (doc : Json) (path source : String) :
    (move doc path source).result = .error .hugeIndex ↔
      leadsBelow (parsePath source) (parsePath path) = false ∧
      (∃ value, resolve doc (parsePath source) = .ok value) ∧
      ∃ rest, (remove doc source).result = .ok rest ∧ AddsBeyondWord rest path := by
  unfold move
  cases hb : leadsBelow (parsePath source) (parsePath path) with
  | true => simp
  | false =>
    cases hr : resolve doc (parsePath source) with
    | error f => simp
    | ok value =>
      have hne := remove_ne_huge doc source
      cases hd : (remove doc source).result with
      | error stop => simpa [hd] using fun h => hne (hd.trans (congrArg Except.error h))
      | ok rest => simp [hd, add_stops_iff]

/-! ## One patch -/

/-- The document that the addition of an operation works on, if it comes to one. -/
def additionOn? (doc : Json) (o : Operation) : Option Json :=
  if o.op = "add" then some doc
  else if o.op = "copy" then
    match o.source.map fun source => resolve doc (parsePath source) with
    | some (.ok _) => some doc
    | _ => none
  else if o.op = "move" then
    match o.source with
    | none => none
    | some source =>
      if leadsBelow (parsePath source) (parsePath o.path) then none
      else
        match resolve doc (parsePath source), (remove doc source).result with
        | .ok _, .ok rest => some rest
        | _, _ => none
  else none

/-- A patch that is an operation whose addition comes to a place beyond all words. -/
def Overflows (doc patch : Json) : Prop :=
  ∃ o target, Operation.read patch = .ok o ∧ additionOn? doc o = some target ∧
    AddsBeyondWord target o.path

theorem ofEdit_stopped_iff {op : String} {e : Edited} :
    Step.ofEdit op e = .stopped ↔ e.result = .error .hugeIndex := by
  unfold Step.ofEdit
  split <;> rename_i h <;> simp [h]

theorem withSource_stopped_iff {o : Operation} {edit : String → Edited} :
    withSource o edit = .stopped ↔
      ∃ source, o.source = some source ∧ (edit source).result = .error .hugeIndex := by
  unfold withSource
  cases o.source <;> simp [ofEdit_stopped_iff]

theorem apply_stopped_iff (doc : Json) (o : Operation) :
    apply doc o = .stopped ↔
      ∃ target, additionOn? doc o = some target ∧ AddsBeyondWord target o.path := by
  unfold apply additionOn?
  by_cases hadd : o.op = "add"
  · simp [hadd, ofEdit_stopped_iff, add_stops_iff]
  by_cases hremove : o.op = "remove"
  · simp [hremove, ofEdit_stopped_iff, remove_ne_huge]
  by_cases hreplace : o.op = "replace"
  · simp [hreplace, ofEdit_stopped_iff, replace_ne_huge]
  by_cases hcopy : o.op = "copy"
  · cases hs : o.source with
    | none => simp [hcopy, withSource_stopped_iff, hs]
    | some source =>
      cases hr : resolve doc (parsePath source) <;>
        simp [hcopy, withSource_stopped_iff, hs, copy_stops_iff, hr]
  by_cases hmove : o.op = "move"
  · cases hs : o.source with
    | none => simp [hmove, withSource_stopped_iff, hs]
    | some source =>
      cases hb : leadsBelow (parsePath source) (parsePath o.path) <;>
        cases hr : resolve doc (parsePath source) <;>
        cases hd : (remove doc source).result <;>
        simp [hmove, withSource_stopped_iff, hs, move_stops_iff, hb, hr, hd]
  · simp [hadd, hremove, hreplace, hcopy, hmove]

theorem step_stopped_iff (doc patch : Json) : step doc patch = .stopped ↔ Overflows doc patch := by
  unfold step Overflows
  cases Operation.read patch with
  | error faults => simp
  | ok o => simp [apply_stopped_iff]

/-! ## Runs -/

/-- A run has an outcome, or its beginning has one and the next patch stops it. -/
theorem runs_or_stopped (k : Nat) (d : Json) (ps : List Json) :
    (∃ o, Runs k d ps o) ∨
      ∃ qs p rs o, ps = qs ++ p :: rs ∧ Runs k d qs o ∧ step o.tree p = .stopped := by
  induction ps generalizing k d with
  | nil => exact .inl ⟨_, .nil k d⟩
  | cons p rest ih =>
    cases hs : step d p with
    | stopped => exact .inr ⟨[], p, rest, _, rfl, .nil k d, hs⟩
    | applied d' op =>
      rcases ih (k + 1) d' with ⟨o, ho⟩ | ⟨qs, p', rs, o, rfl, ho, hstop⟩
      · exact .inl ⟨_, .applied hs ho⟩
      · exact .inr ⟨p :: qs, p', rs, _, rfl, .applied hs ho, hstop⟩
    | skipped cause =>
      rcases ih (k + 1) d with ⟨o, ho⟩ | ⟨qs, p', rs, o, rfl, ho, hstop⟩
      · exact .inl ⟨_, .skipped hs ho⟩
      · exact .inr ⟨p :: qs, p', rs, _, rfl, .skipped hs ho, hstop⟩

/-- No run passes a patch that stops it. -/
theorem Runs.not_stopped {k : Nat} {d p : Json} {qs rs : List Json} {o w : Outcome}
    (hw : Runs k d (qs ++ p :: rs) w) (ho : Runs k d qs o) : step o.tree p ≠ .stopped := by
  obtain ⟨o', r, ho', hr, -⟩ := hw.split
  obtain rfl := ho.unique ho'
  intro hstop
  cases hr with
  | applied hs _ => rw [hstop] at hs; cases hs
  | skipped hs _ => rw [hstop] at hs; cases hs

/-- A run has an outcome exactly if no addition of it comes to a place beyond all words.
    A patch that does not is applied or becomes a skip that leaves the tree alone, and
    the patches behind it are run on. -/
theorem run_answers_iff (d : Json) (ps : List Json) :
    ((∃ w, run d ps = .ok w) ↔
      ∀ qs p rs o, ps = qs ++ p :: rs → run d qs = .ok o → ¬ Overflows o.tree p) ∧
    ∀ qs p rs o, ps = qs ++ p :: rs → run d qs = .ok o → ¬ Overflows o.tree p →
      ∃ o', run d (qs ++ [p]) = .ok o' ∧
        ((∃ op, step o.tree p = .applied o'.tree op ∧ o'.applied = o.applied + 1 ∧
            o'.skipped = o.skipped) ∨
          ∃ cause, step o.tree p = .skipped cause ∧ o'.tree = o.tree ∧ o'.applied = o.applied ∧
            o'.skipped = o.skipped ++ [skipOf qs.length p cause]) ∧
        ∀ r, run o'.tree rs = .ok r → ∃ w, run d ps = .ok w ∧ w.tree = r.tree ∧
          w.applied = o'.applied + r.applied ∧
          w.skipped = o'.skipped ++ r.skipped.map (Skip.shift (qs.length + 1)) := by
  refine ⟨⟨?_, ?_⟩, ?_⟩
  · rintro ⟨w, hw⟩ qs p rs o rfl ho hover
    exact (runs_of_runFrom hw).not_stopped (runs_of_runFrom ho) ((step_stopped_iff _ _).mpr hover)
  · intro hno
    rcases runs_or_stopped 0 d ps with ⟨o, ho⟩ | ⟨qs, p, rs, o, hps, ho, hstop⟩
    · exact ⟨o, ho.runFrom_eq⟩
    · exact absurd ((step_stopped_iff _ _).mp hstop) (hno qs p rs o hps ho.runFrom_eq)
  · rintro qs p rs o rfl ho hover
    have hq : Runs 0 d qs o := runs_of_runFrom ho
    obtain ⟨o', hp, hfate⟩ := hq.snoc (mt (step_stopped_iff _ _).mp hover)
    refine ⟨o', hp.runFrom_eq, by simpa using hfate, fun r hr => ?_⟩
    obtain ⟨r', hr', hshift⟩ := (runs_of_runFrom hr).move_up (qs.length + 1)
    have hw : Runs 0 d (qs ++ [p] ++ rs) (o'.andThen r') :=
      hp.append (by simpa using hr')
    rw [List.append_assoc] at hw
    exact ⟨_, hw.runFrom_eq, hshift.tree, congrArg (o'.applied + ·) hshift.applied,
      congrArg (o'.skipped ++ ·) hshift.skipped⟩

/-- An insertion at 2^63 ends the run, and a removal behind it that applies by itself is
    never come to. -/
theorem huge_position_ends_the_run :
    let document : Json := .obj [("items", .arr [.int 10, .int 20, .int 30])]
    let huge : Json := .obj [("op", .str "add"), ("path", .str "/items/9223372036854775808"),
      ("value", .str "N")]
    let removal : Json := .obj [("op", .str "remove"), ("path", .str "/items/0")]
    (¬ ∃ o, run document [huge, removal] = .ok o) ∧
      ∃ o, run document [removal] = .ok o ∧ o.applied = 1 ∧ o.skipped = [] := by
  refine ⟨?_, _, rfl, rfl, rfl⟩
  rintro ⟨o, ho⟩
  cases ho

end ViewTree.Patch
