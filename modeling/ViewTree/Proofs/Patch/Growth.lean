import Mathlib.Data.List.InsertIdx
import ViewTree.Proofs.Json.Height
import ViewTree.Proofs.Patch.Lens

/-
  ViewTree.Proofs.Patch.Growth — how deep patches can make a document.

  A path leads one level down with each segment. So an addition or a replacement leaves a
  document no deeper than it was, or than its path and its value together
  (`height_add_le`, `height_replace_le`), also where it creates the parents on the way; a
  removal leaves it no deeper (`height_remove_le`). A copy and a move add a value that lies
  below their source, and is that much less deep than the document.

  `Operation.reach` is the depth that an operation can lead to from a given one, and
  `reach` that of a list of patches; no run goes beyond it (`Runs.height_le`).
-/

namespace ViewTree.Patch

/-! ## Reading -/

section Reading

variable {c child doc v : Json} {s : String} {segments : List String}

theorem height_lt_of_getMember (h : getMember c s = .ok child) : child.height < c.height := by
  cases c with
  | arr items =>
    obtain ⟨i, -, hitem⟩ := getMember_arr_iff.mp h
    exact Json.height_lt_of_mem (v := .arr items) (List.mem_of_getElem? hitem)
  | obj fields => exact Json.height_lt_of_get? (getMember_obj_iff.mp h)
  | _ => cases h

/-- A value lies as many levels down as segments lead to it. -/
theorem height_resolve_le (h : resolve doc segments = .ok v) :
    v.height + segments.length ≤ doc.height := by
  induction segments generalizing doc with
  | nil =>
    cases h
    exact Nat.le_refl _
  | cons s rest ih =>
    obtain ⟨child, hchild, hrest⟩ := resolve_cons_eq_ok_iff.mp h
    have hbelow := ih hrest
    have hlt := height_lt_of_getMember hchild
    rw [List.length_cons]
    omega

end Reading

/-! ## Writing -/

section Writing

variable {doc doc' c c' value : Json} {s path : String} {rest : List String}

theorem height_setMember_le (c : Json) (s : String) (m : Json) :
    (setMember c s m).height ≤ max c.height (m.height + 1) := by
  cases c with
  | arr items =>
    rw [setMember]
    split
    · exact Nat.le_max_left _ _
    · exact Json.heightItems_set_le items _ m
  | obj fields => exact Json.heightFields_put_le s m fields
  | _ => exact Nat.le_max_left _ _

theorem height_removeMember_le (h : removeMember path s c = .ok c') : c'.height ≤ c.height := by
  cases c with
  | arr items =>
    rw [removeMember] at h
    split at h
    · cases h
    · cases h
      refine Json.heightItems_le_iff.mpr fun w hw => ?_
      exact Json.height_lt_of_mem (v := .arr items) (List.mem_of_mem_eraseIdx hw)
  | obj fields =>
    cases h
    exact Json.heightFields_erase_le s fields
  | _ => cases h

theorem height_replaceMember_le (h : replaceMember path value s c = .ok c') :
    c'.height ≤ max c.height (value.height + 1) := by
  obtain ⟨rfl, -⟩ := replaceMember_eq_ok h
  exact height_setMember_le c s value

theorem height_addMember_le (h : addMember path value s c = .ok c') :
    c'.height ≤ max c.height (value.height + 1) := by
  cases c with
  | arr items =>
    rw [addMember] at h
    split at h
    · cases h
      exact Json.heightItems_concat_le items value
    · split at h
      · cases h
      · split at h
        · cases h
          refine Json.heightItems_le_of_mem fun w hw => ?_
          exact List.eq_or_mem_of_mem_insertIdx hw
        · cases h
  | obj fields =>
    cases h
    exact Json.heightFields_put_le s value fields
  | _ => cases h

/-- A change of the parent that segments lead to shows that many levels further up. -/
theorem height_changeParent_le {change : String → Json → Except EditFault Json}
    (h : changeParent change (s :: rest) doc = .ok doc') :
    ∃ last parent parent', change last parent = .ok parent' ∧
      parent.height + rest.length ≤ doc.height ∧
      doc'.height ≤ max doc.height (parent'.height + rest.length) := by
  induction rest generalizing s doc doc' with
  | nil => exact ⟨s, doc, doc', h, Nat.le_refl _, Nat.le_max_right _ _⟩
  | cons next rest ih =>
    obtain ⟨child, child', hchild, hchild', rfl⟩ :=
      (changeParent_cons_eq_ok_iff (by simp)).mp h
    obtain ⟨last, parent, parent', hchange, hparent, hbelow⟩ := ih hchild'
    have hlt := height_lt_of_getMember hchild
    have hset := height_setMember_le doc s child'
    rw [List.length_cons]
    -- The parent stays the one found below the child; only the way to it is one longer.
    exact ⟨last, parent, parent', hchange, by omega, by omega⟩

theorem height_ensureChild_le {next : String} {child holder : Json}
    (h : ensureChild c s next = .ok (child, holder)) :
    child.height < max c.height 1 ∧ holder.height ≤ max c.height 1 := by
  have hfresh : (freshParent next).height = 0 := by
    unfold freshParent
    split <;> rfl
  cases ensures_of_ensureChild h with
  | found hthere =>
    have hlt := height_lt_of_getMember hthere
    omega
  | field fields =>
    have hput := Json.heightFields_put_le s (freshParent next) fields
    rw [Json.height, Json.height]
    omega
  | @item items i _ _ =>
    have hset := Json.heightItems_set_le items i (freshParent next)
    rw [Json.height, Json.height]
    omega
  | @behind items _ =>
    have happend := Json.heightItems_concat_le items (freshParent next)
    rw [Json.height, Json.height]
    omega

/-- Missing parents are empty, so they are no deeper than the value that is added below. -/
theorem height_addBelow_le (h : (addBelow path value (s :: rest) doc).result = .ok doc') :
    doc'.height ≤ max doc.height (rest.length + 1 + value.height) := by
  induction rest generalizing s doc doc' with
  | nil =>
    rw [addBelow_last] at h
    have hadd := height_addMember_le h
    rw [List.length_nil]
    omega
  | cons next rest ih =>
    obtain ⟨child, holder, below, hensure, hbelow, rfl⟩ := addBelow_eq_ok h
    obtain ⟨hchild, hholder⟩ := height_ensureChild_le hensure
    have hunder := ih hbelow
    have hset := height_setMember_le holder s below
    rw [List.length_cons]
    omega

theorem height_add_le (h : (add doc path value).result = .ok doc') :
    doc'.height ≤ max doc.height ((parsePath path).length + value.height) := by
  unfold add at h
  cases hpath : parsePath path with
  | nil =>
    rw [hpath] at h
    cases h
    rw [List.length_nil]
    omega
  | cons s rest =>
    rw [hpath] at h
    exact height_addBelow_le h

theorem height_replace_le (h : (replace doc path value).result = .ok doc') :
    doc'.height ≤ max doc.height ((parsePath path).length + value.height) := by
  unfold replace at h
  cases hpath : parsePath path with
  | nil =>
    rw [hpath] at h
    cases h
    rw [List.length_nil]
    omega
  | cons s rest =>
    rw [hpath] at h
    obtain ⟨last, parent, parent', hchange, hparent, hle⟩ := height_changeParent_le (ok_of_result h)
    have hreplaced := height_replaceMember_le hchange
    rw [List.length_cons]
    omega

theorem height_remove_le (h : (remove doc path).result = .ok doc') : doc'.height ≤ doc.height := by
  unfold remove at h
  cases hpath : parsePath path with
  | nil =>
    rw [hpath] at h
    cases h
  | cons s rest =>
    rw [hpath] at h
    obtain ⟨last, parent, parent', hchange, hparent, hle⟩ := height_changeParent_le (ok_of_result h)
    have hremoved := height_removeMember_le hchange
    omega

end Writing

/-! ## Operations and runs -/

/-- The depth that an operation can lead to from a depth. A copy and a move take their value
    from below their source. -/
def Operation.reach (o : Operation) (depth : Nat) : Nat :=
  if o.op = "add" ∨ o.op = "replace" then
    max depth ((parsePath o.path).length + o.value.height)
  else if o.op = "copy" ∨ o.op = "move" then
    match o.source with
    | none => depth
    | some source => max depth ((parsePath o.path).length + (depth - (parsePath source).length))
  else depth

/-- The depth that patches can lead to from a depth, one after the other. -/
def reach (depth : Nat) : List Json → Nat
  | [] => depth
  | patch :: rest =>
    match Operation.read patch with
    | .ok o => reach (o.reach depth) rest
    | .error _ => reach depth rest

theorem Operation.le_reach (o : Operation) (depth : Nat) : depth ≤ o.reach depth := by
  unfold Operation.reach
  split
  · exact Nat.le_max_left _ _
  · split
    · split
      · exact Nat.le_refl _
      · exact Nat.le_max_left _ _
    · exact Nat.le_refl _

theorem Operation.reach_mono (o : Operation) {m n : Nat} (h : m ≤ n) : o.reach m ≤ o.reach n := by
  unfold Operation.reach
  split
  · omega
  · split
    · split
      · exact h
      · omega
    · exact h

theorem reach_mono {m n : Nat} (h : m ≤ n) (patches : List Json) :
    reach m patches ≤ reach n patches := by
  induction patches generalizing m n with
  | nil => exact h
  | cons patch rest ih =>
    rw [reach, reach]
    cases Operation.read patch with
    | error faults => exact ih h
    | ok o => exact ih (o.reach_mono h)

/-- A patch leaves room for those behind it. -/
theorem reach_le_cons (depth : Nat) (patch : Json) (rest : List Json) :
    reach depth rest ≤ reach depth (patch :: rest) := by
  rw [reach]
  cases Operation.read patch with
  | error faults => exact Nat.le_refl _
  | ok o => exact reach_mono (o.le_reach depth) rest

theorem Operation.reach_of_value {o : Operation} (hop : o.op = "add" ∨ o.op = "replace")
    (depth : Nat) : o.reach depth = max depth ((parsePath o.path).length + o.value.height) :=
  if_pos hop

theorem Operation.reach_of_source {o : Operation} {source : String}
    (hop : o.op = "copy" ∨ o.op = "move") (hsource : o.source = some source) (depth : Nat) :
    o.reach depth =
      max depth ((parsePath o.path).length + (depth - (parsePath source).length)) := by
  have hother : ¬ (o.op = "add" ∨ o.op = "replace") := by
    rcases hop with hop | hop <;> simp [hop]
  rw [Operation.reach, if_neg hother, if_pos hop, hsource]

theorem Applies.height_le {o : Operation} {doc doc' : Json} (h : Applies o doc doc') :
    doc'.height ≤ o.reach doc.height := by
  cases h with
  | add hop hadd =>
    rw [Operation.reach_of_value (.inl hop)]
    exact height_add_le hadd
  | remove hop hremove => exact Nat.le_trans (height_remove_le hremove) (o.le_reach doc.height)
  | replace hop hreplace =>
    rw [Operation.reach_of_value (.inr hop)]
    exact height_replace_le hreplace
  | @copy source value _ hop hsource hvalue hadd =>
    have hbelow := height_resolve_le hvalue
    have hle := height_add_le hadd
    rw [Operation.reach_of_source (.inl hop) hsource]
    omega
  | @move source value rest _ hop hsource hvalue hremove hadd =>
    -- The value is read before the removal, so its bound is that of the whole document.
    have hbelow := height_resolve_le hvalue
    have hrest := height_remove_le hremove
    have hle := height_add_le hadd
    rw [Operation.reach_of_source (.inr hop) hsource]
    omega

/-- No run makes a document deeper than its patches can lead to. -/
theorem Runs.height_le {k : Nat} {d : Json} {ps : List Json} {o : Outcome} (h : Runs k d ps o) :
    o.tree.height ≤ reach d.height ps := by
  induction h with
  | nil k d => exact Nat.le_refl _
  | @applied k d d' p op rest o hs _ ih =>
    obtain ⟨operation, hread, happlies⟩ := applies_of_step hs
    have hmono := reach_mono happlies.height_le rest
    simp only [reach, hread]
    exact Nat.le_trans ih hmono
  | @skipped k d p cause rest o _ _ ih => exact Nat.le_trans ih (reach_le_cons d.height p rest)

end ViewTree.Patch
