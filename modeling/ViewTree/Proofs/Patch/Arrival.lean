import ViewTree.Proofs.Patch.Inverse

/-
  ViewTree.Proofs.Patch.Arrival — where an addition puts its value.

  An addition walks down its path, through the members that are there and through the
  parents that it makes for missing and null ones, and changes the container that it
  arrives at. Whatever the walk has met, reading goes the same way back: the front of the
  path leads to what the addition has made of that container (`addBelow_arrives`).

  In an object the value is the member of the last segment. In a list it stands before the
  position that the segment denotes, if the list has it or ends there. Any other position,
  before the first item or beyond the end, is one that reading refuses, and so does the
  walk on the way to a parent; but an addition takes the nearer end for it, or counts a
  negative one from the end (`insertAt_stands`), and the value stands elsewhere than it
  was addressed. `added_is_found_iff` is for every document, path and value: what was
  added is found at its path exactly if the position was none of those (`Outside`), and
  `positions_outside_the_list` are two that were.
-/

namespace ViewTree.Patch

/-! ## The walk -/

section Walks

variable {doc doc' c c' child holder v : Json} {path s next last : String}
  {parent segments : List String}

/-- An addition comes to the places that it comes to from the value on its way. -/
theorem arrival_append (hsegments : segments ≠ []) (hc : resolve doc parent = .ok c)
    (hnull : c ≠ .null) : arrival (parent ++ segments) doc = arrival segments c := by
  induction parent generalizing doc with
  | nil =>
    cases hc
    rfl
  | cons s rest ih =>
    obtain ⟨child, hchild, hrest⟩ := resolve_cons_eq_ok_iff.mp hc
    have hthere : child ≠ .null := by
      cases rest with
      | nil =>
        cases hrest
        exact hnull
      | cons next more => exact ne_null_of_resolve hrest
    obtain ⟨next, more, hmore⟩ := List.exists_cons_of_ne_nil (l := rest ++ segments)
      (by simp [hsegments])
    rw [← ih hrest, List.cons_append, hmore, arrival, ensureChild_found hchild hthere]

/-- The child to go on with is where it was looked for. -/
theorem getMember_ensureChild (h : ensureChild c s next = .ok (child, holder)) :
    getMember holder s = .ok child := by
  cases ensures_of_ensureChild h with
  | found hthere => exact hthere
  | field fields => exact getMember_obj_iff.mpr (Fields.get?_put_self s _ fields)
  | item hindex hi => exact getMember_arr_iff.mpr ⟨_, hindex, List.getElem?_set_self hi⟩
  | behind hindex => exact getMember_arr_iff.mpr ⟨_, hindex, List.getElem?_concat_length⟩

/-- An addition that applies has changed the container it arrived at, and the front of its
    path leads there. -/
theorem addBelow_arrives (h : (addBelow path v (parent ++ [last]) doc).result = .ok doc') :
    ∃ c c', arrival (parent ++ [last]) doc = some (c, last) ∧ addMember path v last c = .ok c' ∧
      resolve doc' parent = .ok c' := by
  induction parent generalizing doc doc' with
  | nil =>
    rw [List.nil_append, addBelow_last] at h
    exact ⟨doc, doc', rfl, h, rfl⟩
  | cons s rest ih =>
    obtain ⟨next, more, hmore⟩ := List.exists_cons_of_ne_nil (l := rest ++ [last]) (by simp)
    rw [List.cons_append, hmore] at h
    obtain ⟨child, holder, below, hensure, hbelow, rfl⟩ := addBelow_eq_ok h
    rw [← hmore] at hbelow
    obtain ⟨c, c', harrival, hadd, hresolve⟩ := ih hbelow
    refine ⟨c, c', ?_, hadd, resolve_cons_eq_ok_iff.mpr ⟨below, ?_, hresolve⟩⟩
    · rw [List.cons_append, hmore, arrival, hensure, ← harrival, hmore]
    · exact getMember_setMember (getMember_ensureChild hensure) below

/-- An addition that arrives at a container fails as it does there. -/
theorem addBelow_error_iff {stop : Stop} (h : arrival segments doc = some (c, last)) :
    (addBelow path v segments doc).result = .error stop ↔ addMember path v last c = .error stop := by
  fun_induction arrival segments doc with
  | case1 => cases h
  | case2 doc last' =>
    cases h
    rw [addBelow_last]
  | case3 => cases h
  | case4 doc s next rest child holder hensure ih =>
    rw [addBelow_error_cons hensure]
    exact ih h

end Walks

/-! ## Positions outside a list -/

/-- A place in a list at a position before its first item, or beyond its end. -/
def Outside (place : Json × String) : Prop :=
  ∃ items index, place.1 = .arr items ∧ toIndex? place.2 = some index ∧
    (index < 0 ∨ (items.length : Int) < index)

section Lists

variable {items : List Json} {index : Int} {c c' v : Json} {path last : String}

/-- An item goes to some position of a list or to its end; to the one asked for exactly if
    the list has it. -/
theorem insertAt_stands (items : List Json) (index : Int) (v : Json) :
    ∃ k ≤ items.length, insertAt items index v = items.insertIdx k v ∧
      ((k : Int) = index ↔ 0 ≤ index ∧ index ≤ items.length) := by
  refine ⟨_, Nat.min_le_right _ _, rfl, ?_⟩
  split <;> omega

theorem not_outside_iff (hindex : toIndex? last = some index) :
    ¬ Outside (.arr items, last) ↔ 0 ≤ index ∧ index ≤ items.length := by
  constructor
  · intro hno
    by_contra hout
    exact hno ⟨items, index, rfl, hindex, by omega⟩
  · rintro hin ⟨items', index', hitems, hindex', hout⟩
    cases hitems
    obtain rfl := Option.some.inj (hindex.symm.trans hindex')
    omega

theorem addMember_arr_eq_ok (hlast : last ≠ appendMark)
    (h : addMember path v last (.arr items) = .ok c') :
    ∃ index, toIndex? last = some index ∧ c' = .arr (insertAt items index v) := by
  simp only [addMember, if_neg hlast] at h
  cases hi : toIndex? last with
  | none => simp [hi] at h
  | some index =>
    simp only [hi] at h
    split at h <;> cases h
    exact ⟨index, rfl, rfl⟩

/-- In a container, what was added is found unless it was addressed outside a list. -/
theorem getMember_addMember_iff (hlast : last ≠ appendMark)
    (h : addMember path v last c = .ok c') :
    getMember c' last = .ok v ↔ ¬ Outside (c, last) := by
  cases c with
  | obj fields =>
    cases h
    simp [Outside, getMember_obj_iff, Fields.get?_put_self]
  | arr items =>
    obtain ⟨index, hindex, rfl⟩ := addMember_arr_eq_ok hlast h
    rw [not_outside_iff hindex]
    constructor
    · intro hfound
      obtain ⟨i, hi, hitem⟩ := getMember_arr_iff.mp hfound
      obtain rfl := Option.some.inj (hindex.symm.trans hi)
      obtain ⟨k, hk, heq, -⟩ := insertAt_stands items (i : Int) v
      have hlt := (List.getElem?_eq_some_iff.mp hitem).1
      rw [heq, List.length_insertIdx_of_le_length hk] at hlt
      omega
    · intro hin
      obtain ⟨k, hk, heq, hthere⟩ := insertAt_stands items index v
      obtain rfl := hthere.mpr hin
      rw [heq]
      exact getMember_insertIdx hindex hk v
  | _ => cases h

end Lists

/-! ## Documents -/

/-- What was added below the root, other than behind the mark for the end of a list, is
    found at its path exactly if the addition did not arrive at a list with a position
    outside it. In a list the value stands at some position or at the end, and this is
    another one than the path names exactly in those cases. -/
theorem added_is_found_iff {doc doc' v : Json} {path last : String} {parent : List String}
    (hpath : parsePath path = parent ++ [last]) (hlast : last ≠ appendMark)
    (h : (add doc path v).result = .ok doc') :
    ∃ c, arrival (parsePath path) doc = some (c, last) ∧
      (resolve doc' (parsePath path) = .ok v ↔ ¬ Outside (c, last)) ∧
      ∀ items, c = .arr items → ∃ index, toIndex? last = some index ∧ ∃ k ≤ items.length,
        resolve doc' parent = .ok (.arr (items.insertIdx k v)) ∧
        ((k : Int) = index ↔ ¬ Outside (c, last)) := by
  rw [add_of_ne_nil (by simp [hpath]), hpath] at h
  obtain ⟨c, c', harrival, hadd, hparent⟩ := addBelow_arrives h
  have hfound : resolve doc' (parent ++ [last]) = .ok v ↔ ¬ Outside (c, last) := by
    rw [resolve_append hparent, resolve_member_iff]
    exact getMember_addMember_iff hlast hadd
  refine ⟨c, hpath ▸ harrival, hpath ▸ hfound, ?_⟩
  rintro items rfl
  obtain ⟨index, hindex, rfl⟩ := addMember_arr_eq_ok hlast hadd
  obtain ⟨k, hk, heq, hthere⟩ := insertAt_stands items index v
  exact ⟨index, hindex, k, hk, heq ▸ hparent, hthere.trans (not_outside_iff hindex).symm⟩

/-- Below a null that becomes a list, in an object that is made as its first item, in a list
    that is made there. -/
theorem added_below_new_parents :
    let doc : Json := .obj [("rows", .null)]
    let doc' : Json := .obj [("rows", .arr [.obj [("cells", .arr [.int 7])]])]
    parsePath "/rows/0/cells/0" = ["rows", "0", "cells"] ++ ["0"] ∧ "0" ≠ appendMark ∧
      (add doc "/rows/0/cells/0" (.int 7)).result = .ok doc' ∧
      arrival (parsePath "/rows/0/cells/0") doc = some (.arr [], "0") ∧
      resolve doc' (parsePath "/rows/0/cells/0") = .ok (.int 7) := by
  intro doc doc'
  have hpath : parsePath "/rows/0/cells/0" = ["rows", "0", "cells"] ++ ["0"] := by decide +kernel
  have hmark : "0" ≠ appendMark := by decide
  have hadd : (add doc "/rows/0/cells/0" (.int 7)).result = .ok doc' := by decide +kernel
  have hindex : toIndex? "0" = some 0 := by decide +kernel
  have harrival : arrival (parsePath "/rows/0/cells/0") doc = some (.arr [], "0") := by
    decide +kernel
  obtain ⟨c, hc, hfound, -⟩ := added_is_found_iff hpath hmark hadd
  obtain rfl : .arr [] = c := congrArg Prod.fst (Option.some.inj (harrival.symm.trans hc))
  exact ⟨hpath, hmark, hadd, harrival, hfound.mpr ((not_outside_iff hindex).mpr (by decide))⟩

/-- The second last place of a list for a negative position, and its end for one that is too
    large: reading finds the value at neither. -/
theorem positions_outside_the_list :
    let doc : Json := .obj [("items", .arr [.int 10, .int 20, .int 30])]
    (add doc "/items/-1" (.str "new")).result =
        .ok (.obj [("items", .arr [.int 10, .int 20, .str "new", .int 30])]) ∧
      resolve (.obj [("items", .arr [.int 10, .int 20, .str "new", .int 30])])
        (parsePath "/items/-1") = .error (.outOfRange (-1) 4) ∧
      (add doc "/items/7" (.str "new")).result =
        .ok (.obj [("items", .arr [.int 10, .int 20, .int 30, .str "new"])]) ∧
      resolve (.obj [("items", .arr [.int 10, .int 20, .int 30, .str "new"])])
        (parsePath "/items/7") = .error (.outOfRange 7 4) := by
  decide +kernel

end ViewTree.Patch
