import Mathlib.Data.List.InsertIdx
import ViewTree.Proofs.Patch.Lens
import ViewTree.Proofs.Patch.Overflow

/-
  ViewTree.Proofs.Patch.Inverse — an addition and a removal undo each other.

  In an object a new field goes behind the others and is dropped again; in a list an item
  goes before a position, the end included, and is taken out there again. An addition walks
  to its container in another way than a removal does, as it makes what is missing; below a
  container that is there both come to the same one (`addBelow_found`,
  `changeParent_eq_ok_iff`), so what holds in it holds in the document
  (`restores_of_member`, `puts_back_of_member`).

  `add_remove_inverse` is for every document and every path to a container in it. No list
  is so long that a position in it fits no machine word; of such positions it says that
  the addition comes to nothing.
-/

namespace ViewTree.Patch

/-- The patch that adds a value at a path. -/
def additionOf (path : String) (v : Json) : Json :=
  .obj [("op", .str "add"), ("path", .str path), ("value", v)]

/-- The patch that removes the value at a path. -/
def removalOf (path : String) : Json := .obj [("op", .str "remove"), ("path", .str path)]

/-- A value that is added at a path is found there, and removing it gives the document
    back. Both patches apply. -/
def Restores (doc : Json) (path : String) (v : Json) : Prop :=
  (∃ doc', (add doc path v).result = .ok doc' ∧ resolve doc' (parsePath path) = .ok v ∧
    (remove doc' path).result = .ok doc) ∧
  ∃ o, run doc [additionOf path v, removalOf path] = .ok o ∧ o.tree = doc ∧ o.applied = 2 ∧
    o.skipped = []

/-- The value at a path that is removed and added again is where it was. Both patches
    apply. -/
def PutsBack (doc : Json) (path : String) : Prop :=
  ∃ v, resolve doc (parsePath path) = .ok v ∧
    (∃ doc', (remove doc path).result = .ok doc' ∧ (add doc' path v).result = .ok doc) ∧
    ∃ o, run doc [removalOf path, additionOf path v] = .ok o ∧ o.tree = doc ∧ o.applied = 2 ∧
      o.skipped = []

/-! ## Two patches -/

section Pairs

variable {doc doc' doc'' : Json} {path : String} {v : Json}

theorem step_additionOf (h : (add doc path v).result = .ok doc') :
    step doc (additionOf path v) = .applied doc' "add" := by
  change Step.ofEdit "add" (add doc path v) = _
  rw [Step.ofEdit, h]

theorem step_removalOf (h : (remove doc path).result = .ok doc') :
    step doc (removalOf path) = .applied doc' "remove" := by
  change Step.ofEdit "remove" (remove doc path) = _
  rw [Step.ofEdit, h]

/-- Two patches that apply one after the other. -/
theorem run_two {p q : Json} {op op' : String} (hp : step doc p = .applied doc' op)
    (hq : step doc' q = .applied doc'' op') :
    ∃ o, run doc [p, q] = .ok o ∧ o.tree = doc'' ∧ o.applied = 2 ∧ o.skipped = [] :=
  ⟨_, (Runs.applied hp (.applied hq (.nil 2 doc''))).runFrom_eq, rfl, rfl, rfl⟩

end Pairs

/-! ## From the container to the document -/

section Documents

variable {doc c c' v : Json} {path last : String} {parent : List String}

theorem add_found (hpath : parsePath path = parent ++ [last]) (hc : resolve doc parent = .ok c)
    (hnull : c ≠ .null) :
    (add doc path v).result = (addMember path v last c).map (graft parent doc) := by
  rw [add_of_ne_nil (by simp [hpath]), hpath, addBelow_found path v hc hnull]

theorem remove_found (hpath : parsePath path = parent ++ [last]) (hc : resolve doc parent = .ok c)
    (hremove : removeMember path last c = .ok c') :
    (remove doc path).result = .ok (graft parent doc c') := by
  rw [remove_of_ne_nil (by simp [hpath]), hpath]
  exact result_of_ok (changeParent_eq_ok_iff.mpr ⟨c, c', hc, hremove, rfl⟩)

/-- What is added to the container at a path and removed from it again. -/
theorem restores_of_member (hpath : parsePath path = parent ++ [last])
    (hc : resolve doc parent = .ok c) (hnull : c ≠ .null)
    (hadd : addMember path v last c = .ok c') (hget : getMember c' last = .ok v)
    (hremove : removeMember path last c' = .ok c) : Restores doc path v := by
  have hadded : (add doc path v).result = .ok (graft parent doc c') := by
    rw [add_found hpath hc hnull, hadd]
    rfl
  have hremoved : (remove (graft parent doc c') path).result = .ok doc := by
    rw [remove_found hpath (resolve_graft hc c') hremove, graft_graft hc, graft_resolve hc]
  refine ⟨⟨graft parent doc c', hadded, ?_, hremoved⟩,
    run_two (step_additionOf hadded) (step_removalOf hremoved)⟩
  rw [hpath, resolve_append (resolve_graft hc c')]
  exact resolve_member_iff.mpr hget

/-- What is removed from the container at a path and added to it again. -/
theorem puts_back_of_member (hpath : parsePath path = parent ++ [last])
    (hc : resolve doc parent = .ok c) (hget : getMember c last = .ok v)
    (hremove : removeMember path last c = .ok c') (hnull : c' ≠ .null)
    (hadd : addMember path v last c' = .ok c) : PutsBack doc path := by
  have hremoved : (remove doc path).result = .ok (graft parent doc c') :=
    remove_found hpath hc hremove
  have hadded : (add (graft parent doc c') path v).result = .ok doc := by
    rw [add_found hpath (resolve_graft hc c') hnull, hadd, Except.map, graft_graft hc,
      graft_resolve hc]
  refine ⟨v, ?_, ⟨graft parent doc c', hremoved, hadded⟩,
    run_two (step_removalOf hremoved) (step_additionOf hadded)⟩
  rw [hpath, resolve_append hc]
  exact resolve_member_iff.mpr hget

end Documents

/-! ## Lists -/

section Lists

variable {items : List Json} {i : Nat} {path last : String}

/-- A segment that denotes a position is not the mark for the end. -/
theorem ne_appendMark (hlast : toIndex? last = some (i : Int)) : last ≠ appendMark := by
  rintro rfl
  rw [toIndex?_appendMark] at hlast
  cases hlast

theorem insertAt_position (hi : i ≤ items.length) (v : Json) :
    insertAt items (i : Int) v = items.insertIdx i v := by
  have hpos : ¬ (i : Int) < 0 := by omega
  rw [insertAt, if_neg hpos, Int.toNat_natCast, Nat.min_eq_left hi]

theorem addMember_position (hlast : toIndex? last = some (i : Int)) (hi : i ≤ items.length)
    (hword : fitsSigned i = true) (path : String) (v : Json) :
    addMember path v last (.arr items) = .ok (.arr (items.insertIdx i v)) := by
  simp only [addMember, if_neg (ne_appendMark hlast), hlast, hword, if_true,
    insertAt_position hi]

theorem addMember_beyond (hlast : toIndex? last = some (i : Int)) (hword : fitsSigned i = false)
    (path : String) (v : Json) : addMember path v last (.arr items) = .error .hugeIndex :=
  addMember_stops_iff.mpr ⟨items, i, rfl, hlast, hword⟩

/-- An item that was put before a position, or at the end, is found there. -/
theorem getMember_insertIdx (hlast : toIndex? last = some (i : Int)) (hi : i ≤ items.length)
    (v : Json) : getMember (.arr (items.insertIdx i v)) last = .ok v := by
  refine getMember_arr_iff.mpr ⟨i, hlast, ?_⟩
  rw [List.getElem?_insertIdx_self, if_pos hi]

theorem getMember_position (hlast : toIndex? last = some (i : Int)) (hi : i < items.length) :
    getMember (.arr items) last = .ok items[i] :=
  getMember_arr_iff.mpr ⟨i, hlast, List.getElem?_eq_getElem hi⟩

theorem removeMember_position (hlast : toIndex? last = some (i : Int)) (hi : i < items.length)
    (path : String) : removeMember path last (.arr items) = .ok (.arr (items.eraseIdx i)) := by
  have hindex : existingIndex items.length last = .ok i := existingIndex_eq_ok_iff.mpr ⟨hlast, hi⟩
  simp only [removeMember, hindex]

theorem removeMember_insertIdx (hlast : toIndex? last = some (i : Int)) (hi : i ≤ items.length)
    (path : String) (v : Json) :
    removeMember path last (.arr (items.insertIdx i v)) = .ok (.arr items) := by
  have hlength := List.length_insertIdx_of_le_length hi v
  rw [removeMember_position hlast (by omega), List.eraseIdx_insertIdx_self]

end Lists

/-! ## Documents -/

/-- For a path to an object or a list in a document and a last segment: a new field, or an
    item at a position of the list or at its end, is undone by a removal; and an item that
    was removed is put back by an addition. -/
theorem add_remove_inverse (doc : Json) (path last : String) (parent : List String)
    (hpath : parsePath path = parent ++ [last]) :
    (∀ fields, resolve doc parent = .ok (.obj fields) → Fields.get? last fields = none →
      ∀ v, Restores doc path v) ∧
    ∀ items (i : Nat), resolve doc parent = .ok (.arr items) → toIndex? last = some (i : Int) →
      (fitsSigned i = true →
        (i ≤ items.length → ∀ v, Restores doc path v) ∧ (i < items.length → PutsBack doc path)) ∧
      (fitsSigned i = false → ∀ v, (add doc path v).result = .error .hugeIndex) := by
  refine ⟨fun fields hc hnew v => ?_, fun items i hc hlast => ⟨fun hword => ⟨fun hi v => ?_,
    fun hi => ?_⟩, fun hword v => ?_⟩⟩
  · refine restores_of_member hpath hc (by simp) rfl ?_ ?_
    · simp [getMember, Fields.get?_put_self]
    · rw [removeMember, Fields.erase_put_of_get?_eq_none v hnew]
  · exact restores_of_member hpath hc (by simp) (addMember_position hlast hi hword path v)
      (getMember_insertIdx hlast hi v) (removeMember_insertIdx hlast hi path v)
  · have hi' : i ≤ (items.eraseIdx i).length := by
      rw [List.length_eraseIdx_of_lt hi]
      omega
    refine puts_back_of_member hpath hc (getMember_position hlast hi)
      (removeMember_position hlast hi path) (by simp) ?_
    rw [addMember_position hlast hi' hword, List.insertIdx_eraseIdx_getElem hi]
  · rw [add_found hpath hc (by simp), addMember_beyond hlast hword]
    rfl

/-- At the end of a list inside an object, whose position is spelled with a sign and a blank. -/
theorem add_remove_inverse_at_the_end :
    let doc : Json := .obj [("b", .null), ("a", .arr [.int 10, .int 20])]
    parsePath "/a/+2 " = ["a"] ++ ["+2 "] ∧ toIndex? "+2 " = some 2 ∧
      Restores doc "/a/+2 " (.str "new") ∧ Restores doc "/c" .null ∧ PutsBack doc "/a/0" := by
  intro doc
  have hend : parsePath "/a/+2 " = ["a"] ++ ["+2 "] := by decide +kernel
  have hroot : parsePath "/c" = [] ++ ["c"] := by decide +kernel
  have hfirst : parsePath "/a/0" = ["a"] ++ ["0"] := by decide +kernel
  have hindex : toIndex? "+2 " = some ((2 : Nat) : Int) := by decide +kernel
  have hzero : toIndex? "0" = some ((0 : Nat) : Int) := by decide +kernel
  have hlist := (add_remove_inverse doc _ _ _ hend).2 _ 2 rfl hindex
  have hitem := (add_remove_inverse doc _ _ _ hfirst).2 _ 0 rfl hzero
  exact ⟨hend, hindex, (hlist.1 rfl).1 (Nat.le_refl 2) _,
    (add_remove_inverse doc _ _ _ hroot).1 _ rfl rfl .null, (hitem.1 rfl).2 (Nat.succ_pos 1)⟩

end ViewTree.Patch
