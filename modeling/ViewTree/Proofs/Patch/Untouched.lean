import ViewTree.Proofs.Patch.Graft

/-
  ViewTree.Proofs.Patch.Untouched — what patches leave alone at the root of a document.

  An addition, a removal and a replacement write below the first segment of their path; so
  on an object each leaves the field of every other key as it was, and the document an
  object (`AgreeOn`).

  An operation touches a key when it writes to the root as a whole or below that key
  (`Operation.Touches`); a move writes where it takes from too. A run in which no patch
  touches a key leaves the field of that key (`Runs.agreeOn`).
-/

namespace ViewTree.Patch

/-! ## One edit -/

/-- Two objects have the same field of a key. -/
def AgreeOn (key : String) (d d' : Json) : Prop :=
  ∃ fields fields', d = .obj fields ∧ d' = .obj fields' ∧
    Fields.get? key fields' = Fields.get? key fields

/-- A path that leads below another key of the root. -/
def Beside (key path : String) : Prop := ∃ s rest, parsePath path = s :: rest ∧ s ≠ key

section Edits

variable {key s path : String} {rest : List String} {fields : Fields} {value doc doc' : Json}

theorem AgreeOn.refl (key : String) (fields : Fields) : AgreeOn key (.obj fields) (.obj fields) :=
  ⟨fields, fields, rfl, rfl, rfl⟩

theorem AgreeOn.trans {d d' d'' : Json} (h : AgreeOn key d d') (h' : AgreeOn key d' d'') :
    AgreeOn key d d'' := by
  obtain ⟨fields, fields', rfl, rfl, hfirst⟩ := h
  obtain ⟨_, fields'', hsame, rfl, hsecond⟩ := h'
  cases hsame
  exact ⟨fields, fields'', rfl, rfl, hsecond.trans hfirst⟩

theorem agreeOn_put (hs : s ≠ key) (value : Json) (fields : Fields) :
    AgreeOn key (.obj fields) (.obj (Fields.put s value fields)) :=
  ⟨fields, _, rfl, rfl, Fields.get?_put_of_ne hs.symm value fields⟩

theorem agreeOn_erase (hs : s ≠ key) (fields : Fields) :
    AgreeOn key (.obj fields) (.obj (Fields.erase s fields)) :=
  ⟨fields, _, rfl, rfl, Fields.get?_erase_of_ne hs.symm fields⟩

/-- A change below the first segment; at the segment itself it must leave the key alone. -/
theorem changeParent_agreeOn {change : String → Json → Except EditFault Json} (hs : s ≠ key)
    (hchange : ∀ d, change s (.obj fields) = .ok d → AgreeOn key (.obj fields) d)
    (h : changeParent change (s :: rest) (.obj fields) = .ok doc') :
    AgreeOn key (.obj fields) doc' := by
  cases rest with
  | nil => exact hchange doc' h
  | cons next rest =>
    obtain ⟨child, child', -, -, rfl⟩ := (changeParent_cons_eq_ok_iff (by simp)).mp h
    exact agreeOn_put hs child' fields

theorem ensureChild_agreeOn {next : String} {child holder : Json} (hs : s ≠ key)
    (h : ensureChild (.obj fields) s next = .ok (child, holder)) :
    AgreeOn key (.obj fields) holder := by
  cases ensures_of_ensureChild h with
  | found _ => exact AgreeOn.refl key fields
  | field _ => exact agreeOn_put hs _ fields

theorem addBelow_agreeOn (hs : s ≠ key)
    (h : (addBelow path value (s :: rest) (.obj fields)).result = .ok doc') :
    AgreeOn key (.obj fields) doc' := by
  cases rest with
  | nil =>
    cases h
    exact agreeOn_put hs value fields
  | cons next rest =>
    obtain ⟨child, holder, below, hensure, -, rfl⟩ := addBelow_eq_ok h
    have hholder : AgreeOn key (.obj fields) holder := ensureChild_agreeOn hs hensure
    obtain ⟨_, fields', -, rfl, -⟩ := id hholder
    exact hholder.trans (agreeOn_put hs below fields')

theorem add_agreeOn (hbeside : Beside key path)
    (h : (add (.obj fields) path value).result = .ok doc') : AgreeOn key (.obj fields) doc' := by
  obtain ⟨s, rest, hpath, hs⟩ := hbeside
  rw [add, hpath] at h
  exact addBelow_agreeOn hs h

theorem remove_agreeOn (hbeside : Beside key path)
    (h : (remove (.obj fields) path).result = .ok doc') : AgreeOn key (.obj fields) doc' := by
  obtain ⟨s, rest, hpath, hs⟩ := hbeside
  rw [remove, hpath] at h
  refine changeParent_agreeOn hs ?_ (ok_of_result h)
  rintro d hremoved
  cases hremoved
  exact agreeOn_erase hs fields

theorem replace_agreeOn (hbeside : Beside key path)
    (h : (replace (.obj fields) path value).result = .ok doc') :
    AgreeOn key (.obj fields) doc' := by
  obtain ⟨s, rest, hpath, hs⟩ := hbeside
  rw [replace, hpath] at h
  refine changeParent_agreeOn hs ?_ (ok_of_result h)
  rintro d hreplaced
  cases hreplaced
  exact agreeOn_put hs value fields

end Edits

/-! ## Operations and runs -/

/-- An operation writes to the whole root, or below a key of it. -/
def Operation.Touches (key : String) (o : Operation) : Prop :=
  ¬ Beside key o.path ∨ (o.op = "move" ∧ ∃ source, o.source = some source ∧ ¬ Beside key source)

/-- No patch touches a key. -/
def Untouched (key : String) (patches : List Json) : Prop :=
  ∀ patch ∈ patches, ∀ o, Operation.read patch = .ok o → ¬ o.Touches key

theorem Applies.agreeOn {key : String} {o : Operation} {fields : Fields} {doc' : Json}
    (h : Applies o (.obj fields) doc') (hnot : ¬ o.Touches key) :
    AgreeOn key (.obj fields) doc' := by
  rw [Operation.Touches, not_or, Classical.not_not] at hnot
  obtain ⟨hpath, hsource⟩ := hnot
  cases h with
  | add _ hadd => exact add_agreeOn hpath hadd
  | remove _ hremove => exact remove_agreeOn hpath hremove
  | replace _ hreplace => exact replace_agreeOn hpath hreplace
  | copy _ _ _ hadd => exact add_agreeOn hpath hadd
  | @move source value rest _ hop hsome _ hremove hadd =>
    have hbeside : Beside key source :=
      Classical.not_not.mp fun hnot => hsource ⟨hop, source, hsome, hnot⟩
    have hremoved : AgreeOn key (.obj fields) rest := remove_agreeOn hbeside hremove
    obtain ⟨_, fields', -, rfl, -⟩ := id hremoved
    exact hremoved.trans (add_agreeOn hpath hadd)

theorem Runs.agreeOn {key : String} {k : Nat} {d : Json} {ps : List Json} {o : Outcome}
    (h : Runs k d ps o) {fields : Fields} (hd : d = .obj fields) (hnot : Untouched key ps) :
    AgreeOn key d o.tree := by
  induction h generalizing fields with
  | nil k d =>
    subst hd
    exact AgreeOn.refl key fields
  | @applied k d d' p op rest o hs _ ih =>
    subst hd
    obtain ⟨o, hread, happlies⟩ := applies_of_step hs
    have hstep : AgreeOn key (.obj fields) d' :=
      happlies.agreeOn (hnot p List.mem_cons_self o hread)
    obtain ⟨_, fields', -, hd', -⟩ := id hstep
    exact hstep.trans (ih hd' fun patch hmem => hnot patch (List.mem_cons_of_mem p hmem))
  | skipped _ _ ih =>
    exact ih hd fun patch hmem => hnot patch (List.mem_cons_of_mem _ hmem)

end ViewTree.Patch
