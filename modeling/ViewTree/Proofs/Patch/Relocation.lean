import ViewTree.Proofs.Patch.Diverging

/-
  ViewTree.Proofs.Patch.Relocation — a move loses nothing, doubles nothing and can be undone.

  Inside a list an item is taken out and put before a position of the rest, so that it
  stands at that position afterwards and the others keep their order (`Relocated`); the
  move back is the same with the positions exchanged.

  From object to object a field goes to the end of the other one. The target is looked up
  after the removal; it is still there unless it lay in the value that moves, and no list
  has shifted. So the moved field leaves the one object without its key, the other one with
  its key at the end, and the rest as it was (`hasRoom_of_erase`); moved back, it stands at
  the end of the object that it came from, and nothing else has changed.

  That a target lies at or below another place is a matter of places, not of texts, as a
  position may be spelled in several ways (`LiesWithin`). The guard against moves of a value
  into itself compares texts; `respelled_target_below_the_source` passes it.
-/

namespace ViewTree.Patch

/-- The patch that moves what is at one path to another. -/
def moveOf (source target : String) : Json :=
  .obj [("op", .str "move"), ("from", .str source), ("path", .str target)]

/-- A move and the move back, with the documents they give. Both patches apply. -/
def MovesAndBack (doc : Json) (source target : String) (doc' doc'' : Json) : Prop :=
  (move doc target source).result = .ok doc' ∧ (move doc' source target).result = .ok doc'' ∧
    ∃ o, run doc [moveOf source target, moveOf target source] = .ok o ∧ o.tree = doc'' ∧
      o.applied = 2 ∧ o.skipped = []

/-! ## One move -/

section Moves

variable {doc doc' doc'' rest v : Json} {source target : String}

theorem step_moveOf (h : (move doc target source).result = .ok doc') :
    step doc (moveOf source target) = .applied doc' "move" := by
  change Step.ofEdit "move" (move doc target source) = _
  rw [Step.ofEdit, h]

theorem movesAndBack (h : (move doc target source).result = .ok doc')
    (hback : (move doc' source target).result = .ok doc'') :
    MovesAndBack doc source target doc' doc'' :=
  ⟨h, hback, run_two (step_moveOf h) (step_moveOf hback)⟩

theorem move_of_removed (hbelow : leadsBelow (parsePath source) (parsePath target) = false)
    (hv : resolve doc (parsePath source) = .ok v) (hremove : (remove doc source).result = .ok rest) :
    (move doc target source).result = (add rest target v).result := by
  simp [move, hbelow, hv, hremove]

/-- What a path to a member leads below is the container of the member, or further up. -/
theorem prefix_of_leadsBelow {p outer : List String} {s : String}
    (h : leadsBelow outer (p ++ [s]) = true) : outer <+: p := by
  simp only [leadsBelow, Bool.and_eq_true, decide_eq_true_eq, List.isPrefixOf_iff_prefix] at h
  obtain ⟨hlength, hprefix⟩ := h
  refine (List.prefix_concat_iff.mp hprefix).resolve_left ?_
  rintro rfl
  exact Nat.lt_irrefl _ hlength

theorem leadsBelow_of_length {p q : List String} (h : q.length ≤ p.length) :
    leadsBelow p q = false := by
  simp [leadsBelow, Nat.not_lt.mpr h]

end Moves

/-! ## Inside a list -/

/-- A list in which one item stands at another position and the others keep their order. -/
structure Relocated (items : List Json) (i j : Nat) (items' : List Json) : Prop where
  length_eq : items'.length = items.length
  item : items'[j]? = items[i]?
  others : items'.eraseIdx j = items.eraseIdx i

section Lists

variable {doc : Json} {items : List Json} {i j : Nat} {source target s t : String}
  {parent : List String}

theorem relocated_insertIdx (hi : i < items.length) (hj : j < items.length) :
    Relocated items i j ((items.eraseIdx i).insertIdx j items[i]) := by
  have hrest : j ≤ (items.eraseIdx i).length := by
    rw [List.length_eraseIdx_of_lt hi]
    omega
  have hlength := List.length_insertIdx_of_le_length hrest items[i]
  rw [List.length_eraseIdx_of_lt hi] at hlength
  refine ⟨by omega, ?_, List.eraseIdx_insertIdx_self _⟩
  rw [List.getElem?_eq_getElem hi, List.getElem?_eq_getElem (by omega),
    List.getElem_insertIdx_self]

/-- The item goes back to where it was. -/
theorem Relocated.back {items' : List Json} (h : Relocated items i j items')
    (hi : i < items.length) (hj : j < items'.length) :
    (items'.eraseIdx j).insertIdx i items'[j] = items := by
  have hitem : items'[j] = items[i] := by
    have hsame := h.item
    rw [List.getElem?_eq_getElem hi, List.getElem?_eq_getElem hj] at hsame
    exact Option.some.inj hsame
  rw [h.others, hitem, List.insertIdx_eraseIdx_getElem hi]

/-- A move inside a list is an addition to the list without the item. -/
theorem move_item (hsource : parsePath source = parent ++ [s])
    (htarget : parsePath target = parent ++ [t]) (hs : toIndex? s = some (i : Int))
    (hitems : resolve doc parent = .ok (.arr items)) (hi : i < items.length) :
    (move doc target source).result =
      (addMember target items[i] t (.arr (items.eraseIdx i))).map (graft parent doc) := by
  have hv : resolve doc (parsePath source) = .ok items[i] := by
    rw [hsource, resolve_append hitems, resolve_member_iff]
    exact getMember_position hs hi
  have hremove : (remove doc source).result = .ok (graft parent doc (.arr (items.eraseIdx i))) :=
    remove_found hsource hitems (removeMember_position hs hi source)
  have hlength : (parsePath target).length ≤ (parsePath source).length := by
    simp [hsource, htarget]
  rw [move_of_removed (leadsBelow_of_length hlength) hv hremove,
    add_found htarget (resolve_graft hitems _) (by simp)]
  cases addMember target items[i] t (.arr (items.eraseIdx i)) with
  | error stop => rfl
  | ok c => exact congrArg Except.ok (graft_graft hitems _ c)

theorem move_item_fits (hsource : parsePath source = parent ++ [s])
    (htarget : parsePath target = parent ++ [t]) (hs : toIndex? s = some (i : Int))
    (ht : toIndex? t = some (j : Int)) (hitems : resolve doc parent = .ok (.arr items))
    (hi : i < items.length) (hj : j < items.length) (hword : fitsSigned j = true) :
    (move doc target source).result =
      .ok (graft parent doc (.arr ((items.eraseIdx i).insertIdx j items[i]))) := by
  have hrest : j ≤ (items.eraseIdx i).length := by
    rw [List.length_eraseIdx_of_lt hi]
    omega
  rw [move_item hsource htarget hs hitems hi, addMember_position ht hrest hword]
  rfl

end Lists

/-! ## Places -/

/-- Two segments denote the same member of a container. -/
def SameMember : Json → String → String → Prop
  | .arr _, s, t => toIndex? s = toIndex? t
  | _, s, t => s = t

/-- A path leads to the place of another one, or below it: step by step the segments denote
    the same members, however positions are spelled. -/
def LiesWithin : Json → List String → List String → Prop
  | _, [], _ => True
  | _, _ :: _, [] => False
  | c, s :: outer, t :: inner =>
    SameMember c s t ∧ ∃ child, getMember c s = .ok child ∧ LiesWithin child outer inner

section Places

variable {c doc m m' v : Json} {s t : String} {outer more : List String}

theorem SameMember.refl (c : Json) (s : String) : SameMember c s s := by cases c <;> rfl

theorem SameMember.symm (h : SameMember c s t) : SameMember c t s := by
  cases c <;> exact Eq.symm h

theorem sameMember_or_differ (hs : getMember c s = .ok m) (ht : getMember c t = .ok m') :
    SameMember c s t ∨ Differ s t c := by
  cases c with
  | arr items =>
    obtain ⟨i, hi, -⟩ := getMember_arr_iff.mp hs
    obtain ⟨j, hj, -⟩ := getMember_arr_iff.mp ht
    by_cases hij : (i : Int) = j
    · exact .inl (hi.trans (hij ▸ hj.symm))
    · exact .inr (.positions hi hj hij)
  | obj fields =>
    by_cases hst : s = t
    · exact .inl hst
    · exact .inr (.keys hst)
  | _ => cases hs

theorem getMember_of_same (h : SameMember c s t) (hs : getMember c s = .ok m) :
    getMember c t = .ok m := by
  cases c with
  | arr items =>
    obtain ⟨i, hi, hm⟩ := getMember_arr_iff.mp hs
    exact getMember_arr_iff.mpr ⟨i, h ▸ hi, hm⟩
  | obj fields => exact h ▸ hs
  | _ => cases hs

theorem sameMember_setMember (h : SameMember c s t) (u : String) (v : Json) :
    SameMember (setMember c u v) s t := by
  cases c with
  | arr items =>
    rw [setMember]
    split <;> exact h
  | _ => exact h

theorem getMember_setMember_of_same (h : SameMember c s t) (hs : getMember c s = .ok m)
    (v : Json) : getMember (setMember c s v) t = .ok v :=
  getMember_of_same (sameMember_setMember h s v) (getMember_setMember hs v)

theorem liesWithin_append (h : resolve doc outer = .ok v) (more : List String) :
    LiesWithin doc outer (outer ++ more) := by
  induction outer generalizing doc with
  | nil => exact trivial
  | cons s rest ih =>
    obtain ⟨child, hchild, hrest⟩ := resolve_cons_eq_ok_iff.mp h
    exact ⟨.refl doc s, child, hchild, ih hrest⟩

end Places

/-! ## From object to object -/

/-- At a path stands an object without a key. -/
def Lacks (doc : Json) (p : List String) (key : String) : Prop :=
  ∃ fields : Fields, resolve doc p = .ok (.obj fields) ∧ fields.get? key = none

/-- At one path stands an object that lacks a key, and with a field of that key put into it,
    at another path stands an object that lacks another key. -/
def HasRoom (doc : Json) (p : List String) (s : String) (q : List String) (t : String) : Prop :=
  ∃ others : Fields, resolve doc q = .ok (.obj others) ∧ others.get? t = none ∧
    ∀ w, Lacks (graft q doc (.obj (others.put t w))) p s

section Objects

variable {doc c c' child other v : Json} {fields others : Fields} {source target s t u r : String}
  {p q rest beyond : List String}

theorem Lacks.leads_nowhere (h : Lacks doc p s) (x : Json) : resolve doc (p ++ [s]) ≠ .ok x := by
  obtain ⟨fields, hfields, hnone⟩ := h
  rw [resolve_append hfields, ne_eq, resolve_member_iff, getMember_obj_iff, hnone]
  simp

theorem key_ne_of_get? {x : Json} (hs : fields.get? s = some x) (ht : fields.get? t = none) :
    t ≠ s := by
  rintro rfl
  rw [hs] at ht
  cases ht

/-- The object that the field is taken out of is the root, and the other one is it or is
    somewhere in another field. -/
theorem hasRoom_in_object (hnodup : fields.keys.Nodup) (hs : fields.get? s = some v)
    (hq : resolve (.obj fields) q = .ok (.obj others)) (ht : others.get? t = none)
    (hout : ¬ LiesWithin (.obj fields) [s] q) : HasRoom (.obj (fields.erase s)) [] s q t := by
  have hgone : (fields.erase s).get? s = none := Fields.get?_erase_self s hnodup
  cases q with
  | nil =>
    cases hq
    have hne : t ≠ s := key_ne_of_get? hs ht
    exact ⟨_, rfl, (Fields.get?_erase_of_ne hne fields).trans ht, fun w =>
      ⟨_, rfl, (Fields.get?_put_of_ne hne.symm w _).trans hgone⟩⟩
  | cons u beyond =>
    have hne : s ≠ u := by
      rintro rfl
      exact hout ⟨rfl, v, getMember_obj_iff.mpr hs, trivial⟩
    obtain ⟨child, hchild, hbeyond⟩ := resolve_cons_eq_ok_iff.mp hq
    have hchild' := (spares_erase s fields u child (.keys hne) hchild).2
    refine ⟨others, resolve_cons_eq_ok_iff.mpr ⟨child, hchild', hbeyond⟩, ht, fun w => ?_⟩
    rw [graft, hchild']
    exact ⟨_, rfl, (Fields.get?_put_of_ne hne _ _).trans hgone⟩

/-- The other object is the root. -/
theorem hasRoom_around (hu : others.get? u = some child) (ht : others.get? t = none)
    (hlacks : Lacks c' rest s) : HasRoom (.obj (others.put u c')) (u :: rest) s [] t := by
  have hne : t ≠ u := key_ne_of_get? hu ht
  refine ⟨_, rfl, (Fields.get?_put_of_ne hne c' others).trans ht, fun w => ?_⟩
  obtain ⟨fields, hfields, hnone⟩ := hlacks
  refine ⟨fields, resolve_cons_eq_ok_iff.mpr ⟨c', getMember_obj_iff.mpr ?_, hfields⟩, hnone⟩
  rw [Fields.get?_put_of_ne hne.symm, Fields.get?_put_self]

/-- Both objects are somewhere in the same member. -/
theorem hasRoom_below (hsame : SameMember c u r) (hu : getMember c u = .ok child)
    (h : HasRoom c' rest s beyond t) : HasRoom (setMember c u c') (u :: rest) s (r :: beyond) t := by
  obtain ⟨others, hothers, ht, hroom⟩ := h
  have hr := getMember_setMember_of_same hsame hu c'
  refine ⟨others, resolve_cons_eq_ok_iff.mpr ⟨c', hr, hothers⟩, ht, fun w => ?_⟩
  obtain ⟨fields, hfields, hnone⟩ := hroom w
  have hsame' : SameMember (setMember c u c') r u := (sameMember_setMember hsame u c').symm
  rw [graft, hr]
  exact ⟨fields, resolve_cons_eq_ok_iff.mpr
    ⟨_, getMember_setMember_of_same hsame' hr _, hfields⟩, hnone⟩

/-- The objects are in different members. -/
theorem hasRoom_beside (hdiffer : Differ u r c) (hu : getMember c u = .ok child)
    (hr : getMember c r = .ok other) (hq : resolve other beyond = .ok (.obj others))
    (ht : others.get? t = none) (hlacks : Lacks c' rest s) :
    HasRoom (setMember c u c') (u :: rest) s (r :: beyond) t := by
  obtain ⟨hdiffer', hr'⟩ := spares_setMember u c c' r other hdiffer hr
  refine ⟨others, resolve_cons_eq_ok_iff.mpr ⟨other, hr', hq⟩, ht, fun w => ?_⟩
  obtain ⟨fields, hfields, hnone⟩ := hlacks
  have hu' : getMember (setMember c u c') u = .ok c' := getMember_setMember hu c'
  rw [graft, hr']
  exact ⟨fields, resolve_cons_eq_ok_iff.mpr
    ⟨c', (spares_setMember r _ _ u c' hdiffer'.symm hu').2, hfields⟩, hnone⟩

/-- A field that is taken out of its object leaves room to move it to another object that is
    not in the field. -/
theorem hasRoom_of_erase (hp : resolve doc p = .ok (.obj fields)) (hnodup : fields.keys.Nodup)
    (hs : fields.get? s = some v) (hq : resolve doc q = .ok (.obj others))
    (ht : others.get? t = none) (hout : ¬ LiesWithin doc (p ++ [s]) q) :
    HasRoom (graft p doc (.obj (fields.erase s))) p s q t := by
  induction p generalizing doc q with
  | nil =>
    cases hp
    exact hasRoom_in_object hnodup hs hq ht hout
  | cons u rest ih =>
    obtain ⟨child, hchild, hrest⟩ := resolve_cons_eq_ok_iff.mp hp
    have hlacks : Lacks (graft rest child (.obj (fields.erase s))) rest s :=
      ⟨_, resolve_graft hrest _, Fields.get?_erase_self s hnodup⟩
    rw [graft, hchild]
    cases q with
    | nil =>
      cases hq
      exact hasRoom_around (getMember_obj_iff.mp hchild) ht hlacks
    | cons r beyond =>
      obtain ⟨other, hother, hbeyond⟩ := resolve_cons_eq_ok_iff.mp hq
      rcases sameMember_or_differ hchild hother with hsame | hdiffer
      · obtain rfl := Except.ok.inj ((getMember_of_same hsame hchild).symm.trans hother)
        exact hasRoom_below hsame hchild
          (ih hrest hbeyond fun hin => hout ⟨hsame, child, hchild, hin⟩)
      · exact hasRoom_beside hdiffer hchild hother hbeyond ht hlacks

/-- A field is moved to another object and back. -/
theorem move_field (hsource : parsePath source = p ++ [s]) (htarget : parsePath target = q ++ [t])
    (hp : resolve doc p = .ok (.obj fields)) (hnodup : fields.keys.Nodup)
    (hs : fields.get? s = some v) (hq : resolve doc q = .ok (.obj others))
    (ht : others.get? t = none) (hout : ¬ LiesWithin doc (p ++ [s]) q) :
    ∃ doc', MovesAndBack doc source target doc'
        (graft p doc (.obj ((fields.erase s).put s v))) ∧
      resolve doc' (parsePath target) = .ok v ∧ Lacks doc' p s := by
  have hv : resolve doc (p ++ [s]) = .ok v := by
    rw [resolve_append hp, resolve_member_iff, getMember_obj_iff, hs]
  obtain ⟨others', hothers', ht', hroom⟩ := hasRoom_of_erase hp hnodup hs hq ht hout
  have hthere := resolve_graft hothers' (.obj (others'.put t v))
  have hfound : resolve (graft q (graft p doc (.obj (fields.erase s))) (.obj (others'.put t v)))
      (parsePath target) = .ok v := by
    rw [htarget, resolve_append hthere, resolve_member_iff, getMember_obj_iff,
      Fields.get?_put_self]
  refine ⟨_, movesAndBack ?_ ?_, hfound, hroom v⟩
  · have hbeside : leadsBelow (parsePath source) (parsePath target) = false := by
      rw [hsource, htarget, Bool.eq_false_iff]
      intro hbelow
      obtain ⟨more, hmore⟩ := prefix_of_leadsBelow hbelow
      exact hout (hmore ▸ liesWithin_append hv more)
    rw [move_of_removed hbeside (hsource ▸ hv) (remove_found hsource hp rfl),
      add_found htarget hothers' (by simp)]
    rfl
  · have hbeside : leadsBelow (parsePath target) (parsePath source) = false := by
      rw [hsource, htarget, Bool.eq_false_iff]
      intro hbelow
      obtain ⟨more, hmore⟩ := prefix_of_leadsBelow hbelow
      rw [← hmore] at hp
      obtain ⟨x, hx, -⟩ := resolve_append_eq_ok_iff.mp hp
      exact Lacks.leads_nowhere ⟨others, hq, ht⟩ x hx
    have herase : removeMember target t (.obj (others'.put t v)) = .ok (.obj others') := by
      rw [removeMember, Fields.erase_put_of_get?_eq_none v ht']
    have hback := remove_found htarget hthere herase
    rw [graft_graft hothers', graft_resolve hothers'] at hback
    rw [move_of_removed hbeside hfound hback, add_found hsource (resolve_graft hp _) (by simp)]
    exact congrArg Except.ok (graft_graft hp _ _)

end Objects

/-! ## Moves and moves back -/

/-- A move inside a list relocates the item, leaves everything outside the list alone, and is
    undone by the move back. A move of a field to an object that is not in the field and has
    no field of the new key takes the value there and leaves nothing behind; the move back
    gives the document in which at most the keys of the one object stand in another order. -/
theorem moves_undone {doc : Json} {source target s t : String} {p q : List String}
    (hsource : parsePath source = p ++ [s]) (htarget : parsePath target = q ++ [t]) :
    (∀ items (i j : Nat), q = p → resolve doc p = .ok (.arr items) →
      toIndex? s = some (i : Int) → toIndex? t = some (j : Int) → i < items.length →
      j < items.length →
      (fitsSigned j = true → ∃ items', Relocated items i j items' ∧
        (move doc target source).result = .ok (graft p doc (.arr items')) ∧
        (∀ r x, Diverge doc p r → resolve doc r = .ok x →
          resolve (graft p doc (.arr items')) r = .ok x) ∧
        (fitsSigned i = true → MovesAndBack doc source target (graft p doc (.arr items')) doc)) ∧
      (fitsSigned j = false → (move doc target source).result = .error .hugeIndex)) ∧
    ∀ (fields others : Fields) v, resolve doc p = .ok (.obj fields) → fields.keys.Nodup →
      fields.get? s = some v → resolve doc q = .ok (.obj others) → others.get? t = none →
      ¬ LiesWithin doc (p ++ [s]) q →
      ∃ doc' fields', MovesAndBack doc source target doc' (graft p doc (.obj fields')) ∧
        resolve doc' (parsePath target) = .ok v ∧
        (∀ x, resolve doc' (parsePath source) ≠ .ok x) ∧ fields'.Perm fields := by
  constructor
  · rintro items i j rfl hitems hs ht hi hj
    constructor
    · intro hword
      have hmove := move_item_fits hsource htarget hs ht hitems hi hj hword
      have hrelocated := relocated_insertIdx hi hj
      refine ⟨_, hrelocated, hmove, fun r x hr hx => resolve_graft_of_diverge hr hitems hx _,
        fun hword' => movesAndBack hmove ?_⟩
      have hi' := hrelocated.length_eq.symm ▸ hi
      have hj' := hrelocated.length_eq.symm ▸ hj
      rw [move_item_fits htarget hsource ht hs (resolve_graft hitems _) hj' hi' hword',
        hrelocated.back hi hj', graft_graft hitems, graft_resolve hitems]
    · intro hword
      rw [move_item hsource htarget hs hitems hi, addMember_beyond ht hword]
      rfl
  · intro fields others v hp hnodup hs hq ht hout
    obtain ⟨doc', hmoves, hfound, hlacks⟩ :=
      move_field hsource htarget hp hnodup hs hq ht hout
    exact ⟨doc', _, hmoves, hfound, hsource ▸ hlacks.leads_nowhere,
      Fields.put_erase_perm hnodup hs⟩

/-- The first of three items goes to the end, and a field goes from the root to an object in
    the list, whose position is spelled with a blank. -/
theorem moves_undone_on_a_form :
    let items : List Json := [.int 10, .int 20, .obj [("z", .int 3)]]
    let doc : Json := .obj [("x", .int 1), ("l", .arr items)]
    parsePath "/l/0" = ["l"] ++ ["0"] ∧ parsePath "/l/2" = ["l"] ++ ["2"] ∧
      parsePath "/x" = [] ++ ["x"] ∧ parsePath "/l/ 2/w" = ["l", " 2"] ++ ["w"] ∧
      (∃ items', Relocated items 0 2 items' ∧
        MovesAndBack doc "/l/0" "/l/2" (graft ["l"] doc (.arr items')) doc) ∧
      ¬ LiesWithin doc ["x"] ["l", " 2"] ∧
      ∃ doc' fields', MovesAndBack doc "/x" "/l/ 2/w" doc' (graft [] doc (.obj fields')) ∧
        resolve doc' (parsePath "/l/ 2/w") = .ok (.int 1) ∧
        (∀ x, resolve doc' (parsePath "/x") ≠ .ok x) ∧
        fields'.Perm [("x", .int 1), ("l", .arr items)] := by
  intro items doc
  have hfirst : parsePath "/l/0" = ["l"] ++ ["0"] := by decide +kernel
  have hthird : parsePath "/l/2" = ["l"] ++ ["2"] := by decide +kernel
  have hfield : parsePath "/x" = [] ++ ["x"] := by decide +kernel
  have hplace : parsePath "/l/ 2/w" = ["l", " 2"] ++ ["w"] := by decide +kernel
  have hzero : toIndex? "0" = some ((0 : Nat) : Int) := by decide +kernel
  have htwo : toIndex? "2" = some ((2 : Nat) : Int) := by decide +kernel
  have hitems : resolve doc ["l"] = .ok (.arr items) := rfl
  have hlist := (moves_undone hfirst hthird).1 items 0 2 rfl hitems hzero htwo
    (by decide) (by decide)
  obtain ⟨items', hrelocated, -, -, hback⟩ := hlist.1 rfl
  have hout : ¬ LiesWithin doc ["x"] ["l", " 2"] := by
    rintro ⟨hsame, -⟩
    exact absurd (show "x" = "l" from hsame) (by decide)
  have hobject : resolve doc ["l", " 2"] = .ok (.obj [("z", .int 3)]) := by decide +kernel
  exact ⟨hfirst, hthird, hfield, hplace, ⟨items', hrelocated, hback rfl⟩, hout,
    (moves_undone hfield hplace).2 _ _ (.int 1) rfl (by decide) rfl hobject rfl hout⟩

/-- The text of the target does not begin with that of the source, but the target lies below
    the source: the move applies, and where the value was taken from stands the parent that
    is made for it. -/
theorem respelled_target_below_the_source :
    let doc : Json := .obj [("l", .arr [.obj [("k", .obj [])]])]
    (move doc "/l/0/k/x" "/l/0/k").result = .error (.fault (.intoOwnChild "/l/0/k" "/l/0/k/x")) ∧
      (move doc "/l/+0/k/x" "/l/0/k").result =
        .ok (.obj [("l", .arr [.obj [("k", .obj [("x", .obj [])])]])]) := by
  decide +kernel

end ViewTree.Patch
