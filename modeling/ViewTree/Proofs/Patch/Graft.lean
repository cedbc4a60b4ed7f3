import Mathlib.Data.List.GetD
import ViewTree.Proofs.Json.Fields
import ViewTree.Proofs.Patch.Applied

/-
  ViewTree.Proofs.Patch.Graft — the value at a path and the document around it.

  Where a path leads to a value, the document is that value grafted into what stands
  around it: `graft` exchanges the value and leaves the rest. Reading at the path finds
  what was grafted last (`resolve_graft`), only the last graft counts (`graft_graft`), and
  grafting what is there changes nothing (`graft_resolve`).

  Every edit works on the container that all but the last segment lead to. A removal and a
  replacement succeed exactly where they do so in that container, and graft what they
  leave of it (`changeParent_eq_ok_iff`); an addition below a container that is there does
  the same (`addBelow_found`). So laws of the edits come from laws of one container. Where
  an addition makes the containers on its way, each step is one of four (`Ensures`).
-/

namespace ViewTree.Patch

/-- A document with the value at a path exchanged. -/
def graft : List String → Json → Json → Json
  | [], _, v => v
  | s :: rest, doc, v =>
    match getMember doc s with
    | .error _ => doc
    | .ok child => setMember doc s (graft rest child v)

/-! ## Members -/

section Members

variable {c m : Json} {s : String}

/-- A position that exists is one that the segment denotes. -/
theorem existingIndex_eq_ok_iff {n i : Nat} :
    existingIndex n s = .ok i ↔ toIndex? s = some (i : Int) ∧ i < n := by
  unfold existingIndex
  split
  · rename_i hnone
    simp [hnone]
  · rename_i index hsome
    rw [hsome, Option.some_inj]
    split <;> simp only [Except.ok.injEq, reduceCtorEq, false_iff] <;> omega

theorem getMember_obj_iff {fields : Fields} :
    getMember (.obj fields) s = .ok m ↔ Fields.get? s fields = some m := by
  rw [getMember]
  cases Fields.get? s fields <;> simp

theorem getMember_arr_iff {items : List Json} :
    getMember (.arr items) s = .ok m ↔
      ∃ i : Nat, toIndex? s = some (i : Int) ∧ items[i]? = some m := by
  constructor
  · intro h
    rw [getMember] at h
    cases hi : existingIndex items.length s with
    | error f => simp [hi] at h
    | ok i =>
      obtain ⟨hindex, hlt⟩ := existingIndex_eq_ok_iff.mp hi
      simp only [hi, Except.ok.injEq, List.getD_eq_getElem _ _ hlt] at h
      exact ⟨i, hindex, by rw [List.getElem?_eq_getElem hlt, h]⟩
  · rintro ⟨i, hindex, hm⟩
    obtain ⟨hlt, rfl⟩ := List.getElem?_eq_some_iff.mp hm
    have hi : existingIndex items.length s = .ok i := existingIndex_eq_ok_iff.mpr ⟨hindex, hlt⟩
    rw [getMember, hi]
    dsimp only
    rw [List.getD_eq_getElem _ _ hlt]

theorem setMember_position {items : List Json} {i : Nat} (hindex : toIndex? s = some (i : Int))
    (hi : i < items.length) (v : Json) : setMember (.arr items) s v = .arr (items.set i v) := by
  have hexists : existingIndex items.length s = .ok i := existingIndex_eq_ok_iff.mpr ⟨hindex, hi⟩
  rw [setMember, hexists]

theorem getMember_setMember (h : getMember c s = .ok m) (v : Json) :
    getMember (setMember c s v) s = .ok v := by
  cases c with
  | arr items =>
    obtain ⟨i, hindex, hm⟩ := getMember_arr_iff.mp h
    have hi := (List.getElem?_eq_some_iff.mp hm).1
    rw [setMember_position hindex hi]
    exact getMember_arr_iff.mpr ⟨i, hindex, List.getElem?_set_self hi⟩
  | obj fields => exact getMember_obj_iff.mpr (Fields.get?_put_self s v fields)
  | _ => cases h

theorem setMember_setMember (c : Json) (s : String) (v w : Json) :
    setMember (setMember c s v) s w = setMember c s w := by
  cases c with
  | arr items => cases hi : existingIndex items.length s <;> simp [setMember, hi]
  | obj fields => simp [setMember, Fields.put_put]
  | _ => rfl

theorem setMember_getMember (h : getMember c s = .ok m) : setMember c s m = c := by
  cases c with
  | arr items =>
    obtain ⟨i, hindex, hm⟩ := getMember_arr_iff.mp h
    obtain ⟨hi, rfl⟩ := List.getElem?_eq_some_iff.mp hm
    rw [setMember_position hindex hi, List.set_getElem_self]
  | obj fields => rw [setMember, Fields.put_of_get? (getMember_obj_iff.mp h)]
  | _ => cases h

end Members

/-! ## Grafts -/

section Grafts

variable {doc c : Json} {segments : List String}

theorem resolve_cons_eq_ok_iff {s : String} {v : Json} :
    resolve doc (s :: segments) = .ok v ↔
      ∃ child, getMember doc s = .ok child ∧ resolve child segments = .ok v := by
  rw [resolve]
  cases getMember doc s <;> simp

theorem resolve_member_iff {s : String} {v : Json} :
    resolve doc [s] = .ok v ↔ getMember doc s = .ok v := by
  rw [resolve_cons_eq_ok_iff]
  simp [resolve]

theorem resolve_append (h : resolve doc segments = .ok c) (more : List String) :
    resolve doc (segments ++ more) = resolve c more := by
  induction segments generalizing doc with
  | nil =>
    cases h
    rfl
  | cons s rest ih =>
    obtain ⟨child, hchild, hrest⟩ := resolve_cons_eq_ok_iff.mp h
    rw [List.cons_append, resolve, hchild]
    exact ih hrest

theorem resolve_append_error {f : EditFault} (h : resolve doc segments = .error f)
    (more : List String) : resolve doc (segments ++ more) = .error f := by
  induction segments generalizing doc with
  | nil => cases h
  | cons s rest ih =>
    rw [resolve] at h
    rw [List.cons_append, resolve]
    cases hchild : getMember doc s with
    | error f' => rwa [hchild] at h
    | ok child =>
      rw [hchild] at h
      exact ih h

/-- A path leads somewhere exactly if its front does and the rest leads on from there. -/
theorem resolve_append_eq_ok_iff {more : List String} {v : Json} :
    resolve doc (segments ++ more) = .ok v ↔
      ∃ c, resolve doc segments = .ok c ∧ resolve c more = .ok v := by
  cases h : resolve doc segments with
  | error f => simp [resolve_append_error h]
  | ok c => simp [resolve_append h]

theorem resolve_graft (h : resolve doc segments = .ok c) (v : Json) :
    resolve (graft segments doc v) segments = .ok v := by
  induction segments generalizing doc with
  | nil => rfl
  | cons s rest ih =>
    obtain ⟨child, hchild, hrest⟩ := resolve_cons_eq_ok_iff.mp h
    rw [graft, hchild]
    exact resolve_cons_eq_ok_iff.mpr ⟨_, getMember_setMember hchild _, ih hrest⟩

theorem graft_graft (h : resolve doc segments = .ok c) (v w : Json) :
    graft segments (graft segments doc v) w = graft segments doc w := by
  induction segments generalizing doc with
  | nil => rfl
  | cons s rest ih =>
    obtain ⟨child, hchild, hrest⟩ := resolve_cons_eq_ok_iff.mp h
    simp only [graft, hchild, getMember_setMember hchild, ih hrest, setMember_setMember]

theorem graft_resolve (h : resolve doc segments = .ok c) : graft segments doc c = doc := by
  induction segments generalizing doc with
  | nil =>
    cases h
    rfl
  | cons s rest ih =>
    obtain ⟨child, hchild, hrest⟩ := resolve_cons_eq_ok_iff.mp h
    simp only [graft, hchild, ih hrest, setMember_getMember hchild]

/-- What is grafted further down is grafted into the value on the way. -/
theorem graft_append (h : resolve doc segments = .ok c) (more : List String) (v : Json) :
    graft (segments ++ more) doc v = graft segments doc (graft more c v) := by
  induction segments generalizing doc with
  | nil =>
    cases h
    rfl
  | cons s rest ih =>
    obtain ⟨child, hchild, hrest⟩ := resolve_cons_eq_ok_iff.mp h
    simp only [List.cons_append, graft, hchild, ih hrest]

end Grafts

/-! ## Edits of the container at a path -/

section Edits

variable {doc doc' c : Json} {last : String} {parent : List String}

/-- Below the root, an edit is one along the segments of its path. -/
theorem add_of_ne_nil {path : String} {v : Json} (h : parsePath path ≠ []) :
    add doc path v = addBelow path v (parsePath path) doc := by
  unfold add
  split
  · exact absurd ‹_› h
  · rfl

theorem remove_of_ne_nil {path : String} (h : parsePath path ≠ []) :
    remove doc path = .of doc (changeParent (removeMember path) (parsePath path) doc) := by
  unfold remove
  split
  · exact absurd ‹_› h
  · rfl

theorem replace_of_ne_nil {path : String} {v : Json} (h : parsePath path ≠ []) :
    replace doc path v = .of doc (changeParent (replaceMember path v) (parsePath path) doc) := by
  unfold replace
  split
  · exact absurd ‹_› h
  · rfl

theorem changeParent_cons_eq_ok_iff {change : String → Json → Except EditFault Json} {s : String}
    {rest : List String} (hrest : rest ≠ []) :
    changeParent change (s :: rest) doc = .ok doc' ↔
      ∃ child child', getMember doc s = .ok child ∧ changeParent change rest child = .ok child' ∧
        doc' = setMember doc s child' := by
  obtain ⟨next, more, rfl⟩ := List.exists_cons_of_ne_nil hrest
  rw [changeParent]
  cases hchild : getMember doc s with
  | error f => simp
  | ok child =>
    dsimp only
    cases hchange : changeParent change (next :: more) child with
    | error f => simp [hchange]
    | ok child' => simp [hchange, eq_comm]

/-- An edit further down is one of the value that the front of its path leads to. -/
theorem changeParent_append {change : String → Json → Except EditFault Json}
    {segments : List String} (hsegments : segments ≠ []) :
    changeParent change (parent ++ segments) doc = .ok doc' ↔
      ∃ c c', resolve doc parent = .ok c ∧ changeParent change segments c = .ok c' ∧
        doc' = graft parent doc c' := by
  induction parent generalizing doc doc' with
  | nil => simp [resolve, graft]
  | cons s rest ih =>
    rw [List.cons_append, changeParent_cons_eq_ok_iff (by simp [hsegments])]
    constructor
    · rintro ⟨child, child', hchild, hchange, rfl⟩
      obtain ⟨c, c', hc, hc', rfl⟩ := ih.mp hchange
      exact ⟨c, c', resolve_cons_eq_ok_iff.mpr ⟨child, hchild, hc⟩, hc', by rw [graft, hchild]⟩
    · rintro ⟨c, c', hresolve, hc', rfl⟩
      obtain ⟨child, hchild, hc⟩ := resolve_cons_eq_ok_iff.mp hresolve
      refine ⟨child, graft rest child c', hchild, ih.mpr ⟨c, c', hc, hc', rfl⟩, ?_⟩
      rw [graft, hchild]

/-- An edit of the container that the parent path leads to. -/
theorem changeParent_eq_ok_iff {change : String → Json → Except EditFault Json} :
    changeParent change (parent ++ [last]) doc = .ok doc' ↔
      ∃ c c', resolve doc parent = .ok c ∧ change last c = .ok c' ∧
        doc' = graft parent doc c' :=
  changeParent_append (by simp)

/-- Nothing leads on from null. -/
theorem ne_null_of_resolve {s : String} {rest : List String} {v : Json}
    (h : resolve doc (s :: rest) = .ok v) : doc ≠ .null := by
  rintro rfl
  cases h

/-- A child that is there is no new one. -/
theorem ensureChild_found {child : Json} {s : String} (h : getMember doc s = .ok child)
    (hchild : child ≠ .null) (next : String) : ensureChild doc s next = .ok (child, doc) := by
  cases doc with
  | arr items =>
    obtain ⟨i, hindex, hitem⟩ := getMember_arr_iff.mp h
    obtain ⟨hi, rfl⟩ := List.getElem?_eq_some_iff.mp hitem
    have hfound : items[i].isNull = false := by
      cases hnull : items[i] <;> first | rfl | exact absurd hnull hchild
    have hrange : (0 : Int) ≤ i ∧ (i : Int) < items.length := by omega
    simp only [ensureChild, hindex, if_pos hrange, Int.toNat_natCast, List.getD_eq_getElem _ _ hi,
      hfound, Bool.false_eq_true, if_false]
  | obj fields =>
    have hgiven : Fields.given? s fields = some child := by
      rw [Fields.given?, getMember_obj_iff.mp h]
      cases child <;> first | rfl | exact absurd rfl hchild
    simp [ensureChild, hgiven]
  | _ => cases h

/-- What it is to have ensured a child of a container, with the child and the holder that it
    is in: it was there, or it was made for a key of an object, for an item of a list or behind
    its last one. -/
inductive Ensures (s next : String) : Json → Json → Json → Prop
  | found {c child : Json} : getMember c s = .ok child → Ensures s next c child c
  | field (fields : Fields) : Ensures s next (.obj fields) (freshParent next)
      (.obj (fields.put s (freshParent next)))
  | item {items : List Json} {i : Nat} : toIndex? s = some (i : Int) → i < items.length →
      Ensures s next (.arr items) (freshParent next) (.arr (items.set i (freshParent next)))
  | behind {items : List Json} : toIndex? s = some (items.length : Int) →
      Ensures s next (.arr items) (freshParent next) (.arr (items ++ [freshParent next]))

theorem ensures_of_ensureChild {child holder : Json} {s next : String}
    (h : ensureChild c s next = .ok (child, holder)) : Ensures s next c child holder := by
  cases c with
  | obj fields =>
    rw [ensureChild] at h
    split at h
    · rename_i found hgiven
      cases h
      exact .found (getMember_obj_iff.mpr (Fields.get?_of_given? hgiven))
    · cases h
      exact .field fields
  | arr items =>
    rw [ensureChild] at h
    cases hi : toIndex? s with
    | none => simp [hi] at h
    | some index =>
      simp only [hi] at h
      split at h
      · rename_i hrange
        have hlt : index.toNat < items.length := by omega
        have hindex : toIndex? s = some (index.toNat : Int) := by
          rw [Int.toNat_of_nonneg hrange.1, hi]
        split at h <;> cases h
        · exact .item hindex hlt
        · refine .found (getMember_arr_iff.mpr ⟨_, hindex, ?_⟩)
          rw [List.getD_eq_getElem _ _ hlt, List.getElem?_eq_getElem hlt]
      · split at h <;> cases h
        rename_i hend
        exact .behind (hend ▸ hi)
  | _ => cases h

/-- An addition further down is one to the value that the front of its path leads to. -/
theorem addBelow_append (path : String) (value : Json) {segments : List String}
    (hsegments : segments ≠ []) (hc : resolve doc parent = .ok c) (hnull : c ≠ .null) :
    (addBelow path value (parent ++ segments) doc).result =
      (addBelow path value segments c).result.map (graft parent doc) := by
  induction parent generalizing doc with
  | nil =>
    obtain rfl := Except.ok.inj hc
    rw [List.nil_append]
    cases (addBelow path value segments doc).result <;> rfl
  | cons s rest ih =>
    obtain ⟨child, hchild, hrest⟩ := resolve_cons_eq_ok_iff.mp hc
    have hthere : child ≠ .null := by
      cases rest with
      | nil =>
        cases hrest
        exact hnull
      | cons next more => exact ne_null_of_resolve hrest
    obtain ⟨next, more, hmore⟩ := List.exists_cons_of_ne_nil (l := rest ++ segments)
      (by simp [hsegments])
    have hbelow := ih hrest
    rw [List.cons_append, hmore, addBelow, ensureChild_found hchild hthere]
    rw [hmore] at hbelow
    dsimp only
    cases hadd : (addBelow path value segments c).result with
    | error stop => rw [hbelow, hadd]; rfl
    | ok c' =>
      rw [hadd] at hbelow
      simp only [hbelow, doc_of_addBelow hbelow, Except.map, graft, hchild]

/-- An addition below a container that is there is one to that container. -/
theorem addBelow_found (path : String) (value : Json) (hc : resolve doc parent = .ok c)
    (hnull : c ≠ .null) :
    (addBelow path value (parent ++ [last]) doc).result =
      (addMember path value last c).map (graft parent doc) := by
  rw [addBelow_append path value (by simp) hc hnull, addBelow_last]

end Edits

end ViewTree.Patch
