import ViewTree.Proofs.Patch.Arrival

/-
  ViewTree.Proofs.Patch.Diverging — edits at paths that part do not interfere.

  Two paths part where the segments behind their common front denote different members of
  the container that the front leads to: different keys of an object, or different
  integers in a list (`Differ`, `Diverge`). An edit along the one path exchanges a member
  of that container, or makes one that was missing, in an object or behind the last item
  of a list; where the container itself is edited and is an object, a field may go. Each of
  these spares the members that differ (`Spares`), so what the other path leads to from
  there on is the same value as before (`resolve_spared`). An item that is inserted into
  the list where the paths part, or taken out of it, does move the others; that is why
  additions and removals are to work on an object.

  `diverging_edits_independent` puts the edits together. Two replacements of values that
  are there come to the same document in either order, the order of keys included: each of
  them is a graft, and grafts at paths that part commute (`graft_comm`).
-/

namespace ViewTree.Patch

/-- Two segments denote different members of a container. -/
inductive Differ (s t : String) : Json → Prop
  | keys {fields : Fields} : s ≠ t → Differ s t (.obj fields)
  | positions {items : List Json} {i j : Int} : toIndex? s = some i → toIndex? t = some j →
      i ≠ j → Differ s t (.arr items)

/-- Behind a common front, two paths go on to different members of a container. -/
def Diverge (doc : Json) (p q : List String) : Prop :=
  ∃ front s below t beyond c, p = front ++ s :: below ∧ q = front ++ t :: beyond ∧
    resolve doc front = .ok c ∧ Differ s t c

/-- The members of a container other than the one at a segment are where they were. -/
def Spares (s : String) (c c' : Json) : Prop :=
  ∀ t m, Differ s t c → getMember c t = .ok m → Differ s t c' ∧ getMember c' t = .ok m

/-! ## In a container -/

section Members

variable {s t path : String} {c c' c'' m m' v w : Json} {below : List String}

theorem Differ.symm (h : Differ s t c) : Differ t s c := by
  cases h with
  | keys hne => exact .keys hne.symm
  | positions hs ht hne => exact .positions ht hs hne.symm

theorem Differ.ne_null (h : Differ s t c) : c ≠ .null := by
  rintro rfl
  cases h

theorem Spares.refl (s : String) (c : Json) : Spares s c c := fun _ _ hdiffer hm => ⟨hdiffer, hm⟩

theorem Spares.trans (h : Spares s c c') (h' : Spares s c' c'') : Spares s c c'' := by
  intro t m hdiffer hm
  obtain ⟨hdiffer', hm'⟩ := h t m hdiffer hm
  exact h' t m hdiffer' hm'

theorem spares_put (s : String) (v : Json) (fields : Fields) :
    Spares s (.obj fields) (.obj (Fields.put s v fields)) := by
  intro t m hdiffer hm
  cases hdiffer with
  | keys hne =>
    rw [getMember_obj_iff] at hm ⊢
    exact ⟨.keys hne, (Fields.get?_put_of_ne hne.symm v fields).trans hm⟩

theorem spares_erase (s : String) (fields : Fields) :
    Spares s (.obj fields) (.obj (Fields.erase s fields)) := by
  intro t m hdiffer hm
  cases hdiffer with
  | keys hne =>
    rw [getMember_obj_iff] at hm ⊢
    exact ⟨.keys hne, (Fields.get?_erase_of_ne hne.symm fields).trans hm⟩

theorem spares_set {items : List Json} {i : Nat} (hs : toIndex? s = some (i : Int)) (v : Json) :
    Spares s (.arr items) (.arr (items.set i v)) := by
  intro t m hdiffer hm
  cases hdiffer with
  | positions hs' ht hne =>
    obtain ⟨j, hj, hm⟩ := getMember_arr_iff.mp hm
    have hij : i ≠ j := by
      rintro rfl
      rw [hs] at hs'
      rw [ht] at hj
      exact hne ((Option.some.inj hs').symm.trans (Option.some.inj hj).symm)
    refine ⟨.positions hs' ht hne, getMember_arr_iff.mpr ⟨j, hj, ?_⟩⟩
    rwa [List.getElem?_set_ne hij]

/-- A new last item leaves the others where they are. -/
theorem spares_concat (s : String) (items : List Json) (v : Json) :
    Spares s (.arr items) (.arr (items ++ [v])) := by
  intro t m hdiffer hm
  cases hdiffer with
  | positions hs ht hne =>
    obtain ⟨j, hj, hm⟩ := getMember_arr_iff.mp hm
    refine ⟨.positions hs ht hne, getMember_arr_iff.mpr ⟨j, hj, ?_⟩⟩
    rwa [List.getElem?_append_left (List.getElem?_eq_some_iff.mp hm).1]

theorem spares_setMember (s : String) (c v : Json) : Spares s c (setMember c s v) := by
  cases c with
  | arr items =>
    rw [setMember]
    cases hi : existingIndex items.length s with
    | error f => exact .refl s _
    | ok i => exact spares_set (existingIndex_eq_ok_iff.mp hi).1 v
  | obj fields => exact spares_put s v fields
  | _ => exact .refl s _

theorem spares_replaceMember (h : replaceMember path v s c = .ok c') : Spares s c c' := by
  obtain ⟨rfl, -⟩ := replaceMember_eq_ok h
  exact spares_setMember s c v

theorem spares_ensureChild {next : String} {child holder : Json}
    (h : ensureChild c s next = .ok (child, holder)) : Spares s c holder := by
  cases ensures_of_ensureChild h with
  | found _ => exact .refl s c
  | field fields => exact spares_put s _ fields
  | item hindex _ => exact spares_set hindex _
  | behind _ => exact spares_concat s _ _

/-- Along a path, an edit spares the other members of the container it starts from, if its
    last step does. -/
theorem spares_changeParent {change : String → Json → Except EditFault Json}
    (hlast : below = [] → ∀ c', change s c = .ok c' → Spares s c c')
    (h : changeParent change (s :: below) c = .ok c') : Spares s c c' := by
  cases below with
  | nil => exact hlast rfl c' h
  | cons next rest =>
    obtain ⟨child, child', -, -, rfl⟩ := (changeParent_cons_eq_ok_iff (by simp)).mp h
    exact spares_setMember s c child'

theorem spares_addBelow (hlast : below = [] → ∃ fields, c = .obj fields)
    (h : (addBelow path v (s :: below) c).result = .ok c') : Spares s c c' := by
  cases below with
  | nil =>
    obtain ⟨fields, rfl⟩ := hlast rfl
    cases h
    exact spares_put s v fields
  | cons next rest =>
    obtain ⟨child, holder, below', hensure, -, rfl⟩ := addBelow_eq_ok h
    exact (spares_ensureChild hensure).trans (spares_setMember s holder below')

theorem setMember_comm (h : Differ s t c) (hs : getMember c s = .ok m)
    (ht : getMember c t = .ok m') (v w : Json) :
    setMember (setMember c s v) t w = setMember (setMember c t w) s v := by
  cases h with
  | keys hne =>
    simp only [setMember]
    rw [Fields.put_comm hne (getMember_obj_iff.mp hs)]
  | @positions items i j his hjt hne =>
    obtain ⟨i, hi, hmi⟩ := getMember_arr_iff.mp hs
    obtain ⟨j, hj, hmj⟩ := getMember_arr_iff.mp ht
    have hij : i ≠ j := by
      rintro rfl
      rw [his] at hi
      rw [hjt] at hj
      exact hne ((Option.some.inj hi).trans (Option.some.inj hj).symm)
    have hilt := (List.getElem?_eq_some_iff.mp hmi).1
    have hjlt := (List.getElem?_eq_some_iff.mp hmj).1
    have hilt' : i < (items.set j w).length := by rwa [List.length_set]
    have hjlt' : j < (items.set i v).length := by rwa [List.length_set]
    rw [setMember_position hi hilt, setMember_position hj hjlt', setMember_position hj hjlt,
      setMember_position hi hilt', List.set_comm v w hij]

end Members

/-! ## In a document -/

section Documents

variable {doc doc' c c' x y : Json} {p q front below beyond : List String} {s t path : String}

theorem Diverge.symm (h : Diverge doc p q) : Diverge doc q p := by
  obtain ⟨front, s, below, t, beyond, c, hp, hq, hc, hdiffer⟩ := h
  exact ⟨front, t, beyond, s, below, c, hq, hp, hc, hdiffer.symm⟩

/-- Where an edit has spared the other members of a container, they lead on as before. -/
theorem resolve_spared (hc : resolve doc front = .ok c) (hdiffer : Differ s t c)
    (hspares : Spares s c c') (hq : resolve doc (front ++ t :: beyond) = .ok x) :
    resolve (graft front doc c') (front ++ t :: beyond) = .ok x := by
  rw [resolve_append hc] at hq
  rw [resolve_append (resolve_graft hc c')]
  obtain ⟨child, hchild, hrest⟩ := resolve_cons_eq_ok_iff.mp hq
  exact resolve_cons_eq_ok_iff.mpr ⟨child, (hspares t child hdiffer hchild).2, hrest⟩

theorem resolve_graft_of_diverge (h : Diverge doc p q) (hp : resolve doc p = .ok y)
    (hq : resolve doc q = .ok x) (v : Json) : resolve (graft p doc v) q = .ok x := by
  obtain ⟨front, s, below, t, beyond, c, rfl, rfl, hc, hdiffer⟩ := h
  rw [resolve_append hc] at hp
  obtain ⟨child, hchild, -⟩ := resolve_cons_eq_ok_iff.mp hp
  rw [graft_append hc, graft, hchild]
  exact resolve_spared hc hdiffer (spares_setMember s c _) hq

/-- Grafts at paths that part commute. -/
theorem graft_comm (h : Diverge doc p q) (hp : resolve doc p = .ok y) (hq : resolve doc q = .ok x)
    (v w : Json) : graft q (graft p doc v) w = graft p (graft q doc w) v := by
  obtain ⟨front, s, below, t, beyond, c, rfl, rfl, hc, hdiffer⟩ := h
  rw [resolve_append hc] at hp hq
  obtain ⟨m, hm, -⟩ := resolve_cons_eq_ok_iff.mp hp
  obtain ⟨m', hm', -⟩ := resolve_cons_eq_ok_iff.mp hq
  have hspared : getMember (setMember c s (graft below m v)) t = .ok m' :=
    (spares_setMember s c _ t m' hdiffer hm').2
  have hspared' : getMember (setMember c t (graft beyond m' w)) s = .ok m :=
    (spares_setMember t c _ s m hdiffer.symm hm).2
  have hmember : graft (t :: beyond) (graft (s :: below) c v) w =
      graft (s :: below) (graft (t :: beyond) c w) v := by
    simp only [graft, hm, hm', hspared, hspared']
    exact setMember_comm hdiffer hm hm' _ _
  simp only [graft_append hc, graft_append (resolve_graft hc _), graft_graft hc, hmember]

theorem replace_spares {v : Json} (hpath : parsePath path = front ++ s :: below)
    (hc : resolve doc front = .ok c) (h : (replace doc path v).result = .ok doc') :
    ∃ c', Spares s c c' ∧ doc' = graft front doc c' := by
  rw [replace_of_ne_nil (by simp [hpath]), hpath] at h
  obtain ⟨c₁, c', hc₁, hc', rfl⟩ := (changeParent_append (by simp)).mp (ok_of_result h)
  obtain rfl := Except.ok.inj (hc.symm.trans hc₁)
  exact ⟨c', spares_changeParent (fun _ _ => spares_replaceMember) hc', rfl⟩

theorem remove_spares (hpath : parsePath path = front ++ s :: below)
    (hc : resolve doc front = .ok c) (hlast : below = [] → ∃ fields, c = .obj fields)
    (h : (remove doc path).result = .ok doc') : ∃ c', Spares s c c' ∧ doc' = graft front doc c' := by
  rw [remove_of_ne_nil (by simp [hpath]), hpath] at h
  obtain ⟨c₁, c', hc₁, hc', rfl⟩ := (changeParent_append (by simp)).mp (ok_of_result h)
  obtain rfl := Except.ok.inj (hc.symm.trans hc₁)
  refine ⟨c', spares_changeParent (fun hend d hd => ?_) hc', rfl⟩
  obtain ⟨fields, rfl⟩ := hlast hend
  cases hd
  exact spares_erase s fields

theorem add_spares {v : Json} (hpath : parsePath path = front ++ s :: below)
    (hc : resolve doc front = .ok c) (hnull : c ≠ .null)
    (hlast : below = [] → ∃ fields, c = .obj fields) (h : (add doc path v).result = .ok doc') :
    ∃ c', Spares s c c' ∧ doc' = graft front doc c' := by
  rw [add_of_ne_nil (by simp [hpath]), hpath, addBelow_append path v (by simp) hc hnull] at h
  cases hadd : (addBelow path v (s :: below) c).result with
  | error stop => simp [hadd, Except.map] at h
  | ok c' =>
    rw [hadd] at h
    cases h
    exact ⟨c', spares_addBelow hlast hadd, rfl⟩

/-- A value that is there is replaced by a graft. -/
theorem replace_found (h : resolve doc (parsePath path) = .ok y) (v : Json) :
    (replace doc path v).result = .ok (graft (parsePath path) doc v) := by
  rcases segments_cases path with hroot | ⟨parent, last, hpath⟩
  · rw [replace, hroot]
    rfl
  · rw [hpath] at h ⊢
    obtain ⟨c, hc, hlast⟩ := resolve_append_eq_ok_iff.mp h
    have hmember : getMember c last = .ok y := resolve_member_iff.mp hlast
    refine (replace_eq_ok_iff hpath).mpr ⟨c, _, hc, replaceMember_found hmember path v, ?_⟩
    simp only [graft_append hc, graft, hmember]

end Documents

/-- What a path leads to is left alone by a replacement at a path that parts from it, and by
    an addition or a removal there that works on an object, whatever parents the addition
    makes. Two such replacements of values that are there give the same document in either
    order. -/
theorem diverging_edits_independent {doc x : Json} {p q : String}
    (h : Diverge doc (parsePath p) (parsePath q)) (hq : resolve doc (parsePath q) = .ok x) :
    (∀ v doc', (replace doc p v).result = .ok doc' → resolve doc' (parsePath q) = .ok x) ∧
    (∀ fields last, arrival (parsePath p) doc = some (.obj fields, last) →
      ∀ v doc', (add doc p v).result = .ok doc' → resolve doc' (parsePath q) = .ok x) ∧
    (∀ parent last fields, parsePath p = parent ++ [last] →
      resolve doc parent = .ok (.obj fields) →
      ∀ doc', (remove doc p).result = .ok doc' → resolve doc' (parsePath q) = .ok x) ∧
    ∀ y, resolve doc (parsePath p) = .ok y → ∀ v w, ∃ docp docq doc',
      (replace doc p v).result = .ok docp ∧ (replace docp q w).result = .ok doc' ∧
      (replace doc q w).result = .ok docq ∧ (replace docq p v).result = .ok doc' := by
  obtain ⟨front, s, below, t, beyond, c, hp, hq', hc, hdiffer⟩ := id h
  refine ⟨fun v doc' hreplace => ?_, fun fields last harrival v doc' hadd => ?_,
    fun parent last fields hparent hobject doc' hremove => ?_, fun y hy v w => ?_⟩
  · obtain ⟨c', hspares, rfl⟩ := replace_spares hp hc hreplace
    rw [hq'] at hq ⊢
    exact resolve_spared hc hdiffer hspares hq
  · have hlast : below = [] → ∃ fields, c = .obj fields := by
      rintro rfl
      rw [hp, arrival_append (by simp) hc hdiffer.ne_null] at harrival
      exact ⟨fields, congrArg Prod.fst (Option.some.inj harrival)⟩
    obtain ⟨c', hspares, rfl⟩ := add_spares hp hc hdiffer.ne_null hlast hadd
    rw [hq'] at hq ⊢
    exact resolve_spared hc hdiffer hspares hq
  · have hlast : below = [] → ∃ fields, c = .obj fields := by
      rintro rfl
      obtain ⟨rfl, -⟩ := List.append_inj' (hp.symm.trans hparent) rfl
      exact ⟨fields, Except.ok.inj (hc.symm.trans hobject)⟩
    obtain ⟨c', hspares, rfl⟩ := remove_spares hp hc hlast hremove
    rw [hq'] at hq ⊢
    exact resolve_spared hc hdiffer hspares hq
  · have hthere : resolve (graft (parsePath p) doc v) (parsePath q) = .ok x :=
      resolve_graft_of_diverge h hy hq v
    have hthere' : resolve (graft (parsePath q) doc w) (parsePath p) = .ok y :=
      resolve_graft_of_diverge h.symm hq hy w
    refine ⟨_, _, _, replace_found hy v, replace_found hthere w, replace_found hq w, ?_⟩
    rw [graft_comm h hy hq]
    exact replace_found hthere' v

/-- Two items of a list, one of which gets a new object below it, loses a field and gets
    another value in the field. -/
theorem heading_beside_a_row :
    let heading : Json := .obj [("type", .str "heading")]
    let doc : Json := .obj [("children", .arr [.obj [("gap", .int 4)], heading])]
    let added : Json := .obj [("children", .arr [.obj [("gap", .int 4),
      ("props", .obj [("color", .str "red")])], heading])]
    let removed : Json := .obj [("children", .arr [.obj [], heading])]
    let q := "/children/ 1/type"
    Diverge doc (parsePath "/children/0/props/color") (parsePath q) ∧
      Diverge doc (parsePath "/children/0/gap") (parsePath q) ∧
      resolve doc (parsePath q) = .ok (.str "heading") ∧
      (add doc "/children/0/props/color" (.str "red")).result = .ok added ∧
      resolve added (parsePath q) = .ok (.str "heading") ∧
      (remove doc "/children/0/gap").result = .ok removed ∧
      resolve removed (parsePath q) = .ok (.str "heading") ∧
      ∀ v w, ∃ docp docq doc', (replace doc "/children/0/gap" v).result = .ok docp ∧
        (replace docp q w).result = .ok doc' ∧ (replace doc q w).result = .ok docq ∧
        (replace docq "/children/0/gap" v).result = .ok doc' := by
  intro heading doc added removed q
  have hnew : parsePath "/children/0/props/color" = ["children"] ++ "0" :: ["props", "color"] := by
    decide +kernel
  have hgap : parsePath "/children/0/gap" = ["children", "0"] ++ ["gap"] := by decide +kernel
  have hq : parsePath q = ["children"] ++ " 1" :: ["type"] := by decide +kernel
  have hzero : toIndex? "0" = some 0 := by decide +kernel
  have hone : toIndex? " 1" = some 1 := by decide +kernel
  have hparts : ∀ p below, parsePath p = ["children"] ++ "0" :: below →
      Diverge doc (parsePath p) (parsePath q) := fun p below hp =>
    ⟨_, _, _, _, _, _, hp, hq, rfl, .positions hzero hone (by decide)⟩
  have hresolve : resolve doc (parsePath q) = .ok (.str "heading") := by decide +kernel
  have harrival : arrival (parsePath "/children/0/props/color") doc = some (.obj [], "color") := by
    decide +kernel
  have hparent : resolve doc ["children", "0"] = .ok (.obj [("gap", .int 4)]) := by decide +kernel
  have hadd : (add doc "/children/0/props/color" (.str "red")).result = .ok added := by
    decide +kernel
  have hremove : (remove doc "/children/0/gap").result = .ok removed := by decide +kernel
  have hbeside := diverging_edits_independent (hparts _ _ hnew) hresolve
  have hedits := diverging_edits_independent (hparts _ _ hgap) hresolve
  exact ⟨hparts _ _ hnew, hparts _ _ hgap, hresolve, hadd,
    hbeside.2.1 _ _ harrival _ _ hadd, hremove, hedits.2.2.1 _ _ _ hgap hparent _ hremove,
    hedits.2.2.2 (.int 4) (by decide +kernel)⟩

end ViewTree.Patch
