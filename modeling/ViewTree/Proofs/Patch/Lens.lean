import ViewTree.Proofs.Patch.Graft

/-
  ViewTree.Proofs.Patch.Lens — reading and replacing at a path agree.

  A container reads back what was replaced in it, only the last replacement counts, and
  replacing a member by itself changes nothing; an object may gain the member in this way,
  a list may not. The same three laws hold at every path of every document
  (`replace_lawful`), however its positions are spelled and also at the root, because a
  replacement grafts what it makes of the container.
-/

namespace ViewTree.Patch

/-! ## In a container -/

section Members

variable {c c' x v : Json} {path s : String}

/-- A member that is there is replaced where it stands. -/
theorem replaceMember_found (h : getMember c s = .ok x) (path : String) (v : Json) :
    replaceMember path v s c = .ok (setMember c s v) := by
  cases c with
  | arr items =>
    obtain ⟨i, hindex, hitem⟩ := getMember_arr_iff.mp h
    have hi := (List.getElem?_eq_some_iff.mp hitem).1
    have hexists : existingIndex items.length s = .ok i :=
      existingIndex_eq_ok_iff.mpr ⟨hindex, hi⟩
    rw [setMember_position hindex hi, replaceMember, hexists]
  | obj fields => rfl
  | _ => cases h

/-- What was replaced was there, or is a field that an object gains. -/
theorem replaceMember_eq_ok (h : replaceMember path v s c = .ok c') :
    c' = setMember c s v ∧ ((∃ x, getMember c s = .ok x) ∨ ∃ fields, c = .obj fields) := by
  cases c with
  | arr items =>
    rw [replaceMember] at h
    cases hi : existingIndex items.length s with
    | error f => simp [hi] at h
    | ok i =>
      rw [hi] at h
      cases h
      obtain ⟨hindex, hlt⟩ := existingIndex_eq_ok_iff.mp hi
      have hitem : items[i]? = some items[i] := List.getElem?_eq_getElem hlt
      exact ⟨(setMember_position hindex hlt v).symm,
        .inl ⟨_, getMember_arr_iff.mpr ⟨i, hindex, hitem⟩⟩⟩
  | obj fields =>
    cases h
    exact ⟨rfl, .inr ⟨fields, rfl⟩⟩
  | _ => cases h

theorem getMember_replaceMember (h : replaceMember path v s c = .ok c') :
    getMember c' s = .ok v := by
  obtain ⟨rfl, ⟨x, hx⟩ | ⟨fields, rfl⟩⟩ := replaceMember_eq_ok h
  · exact getMember_setMember hx v
  · exact getMember_obj_iff.mpr (Fields.get?_put_self s v fields)

/-- Whether a member can be replaced does not depend on what replaces it. -/
theorem replaceMember_again (h : replaceMember path v s c = .ok c') (w : Json) :
    ∃ c'', replaceMember path w s c' = .ok c'' ∧ replaceMember path w s c = .ok c'' := by
  have hthere : getMember c' s = .ok v := getMember_replaceMember h
  refine ⟨setMember c' s w, replaceMember_found hthere path w, ?_⟩
  obtain ⟨rfl, ⟨x, hx⟩ | ⟨fields, rfl⟩⟩ := replaceMember_eq_ok h
  · rw [setMember_setMember]
    exact replaceMember_found hx path w
  · rw [setMember_setMember]
    rfl

end Members

/-! ## In a document -/

section Documents

variable {doc doc' x v : Json} {path : String}

/-- A path leads to the root, or to a member of a container. -/
theorem segments_cases (path : String) :
    parsePath path = [] ∨ ∃ parent last, parsePath path = parent ++ [last] :=
  List.eq_nil_or_concat' (parsePath path)

theorem result_of_ok {e : Except EditFault Json} (h : e = .ok doc') :
    (Edited.of doc e).result = .ok doc' := by
  rw [h]
  rfl

theorem replace_eq_ok_iff {parent : List String} {last : String}
    (hpath : parsePath path = parent ++ [last]) :
    (replace doc path v).result = .ok doc' ↔
      ∃ c c', resolve doc parent = .ok c ∧ replaceMember path v last c = .ok c' ∧
        doc' = graft parent doc c' := by
  rw [← changeParent_eq_ok_iff, replace_of_ne_nil (by simp [hpath]), hpath]
  exact ⟨ok_of_result, result_of_ok⟩

/-- The value that replaced another one is what the path leads to. -/
theorem resolve_replace (h : (replace doc path v).result = .ok doc') :
    resolve doc' (parsePath path) = .ok v := by
  rcases segments_cases path with hroot | ⟨parent, last, hpath⟩
  · rw [replace, hroot] at h
    rw [hroot, resolve, Except.ok.inj h]
  · obtain ⟨c, c', hc, hc', rfl⟩ := (replace_eq_ok_iff hpath).mp h
    rw [hpath, resolve_append (resolve_graft hc c')]
    exact resolve_member_iff.mpr (getMember_replaceMember hc')

/-- Of two replacements the last one counts. -/
theorem replace_again (h : (replace doc path v).result = .ok doc') (w : Json) :
    ∃ doc'', (replace doc' path w).result = .ok doc'' ∧
      (replace doc path w).result = .ok doc'' := by
  rcases segments_cases path with hroot | ⟨parent, last, hpath⟩
  · exact ⟨w, by rw [replace, hroot], by rw [replace, hroot]⟩
  · obtain ⟨c, c', hc, hc', rfl⟩ := (replace_eq_ok_iff hpath).mp h
    obtain ⟨c'', hagain, honce⟩ := replaceMember_again hc' w
    refine ⟨graft parent doc c'', (replace_eq_ok_iff hpath).mpr ?_,
      (replace_eq_ok_iff hpath).mpr ⟨c, c'', hc, honce, rfl⟩⟩
    exact ⟨c', c'', resolve_graft hc c', hagain, (graft_graft hc c' c'').symm⟩

/-- A value that replaces itself leaves the document as it is. -/
theorem replace_resolve (h : resolve doc (parsePath path) = .ok x) :
    (replace doc path x).result = .ok doc := by
  rcases segments_cases path with hroot | ⟨parent, last, hpath⟩
  · rw [hroot] at h
    rw [replace, hroot, Except.ok.inj h]
  · -- the container on the way is there, as the path leads on from it
    rw [hpath] at h
    obtain ⟨c, hc, hlast⟩ := resolve_append_eq_ok_iff.mp h
    have hmember : getMember c last = .ok x := resolve_member_iff.mp hlast
    refine (replace_eq_ok_iff hpath).mpr ⟨c, c, hc, ?_, (graft_resolve hc).symm⟩
    rw [replaceMember_found hmember, setMember_getMember hmember]

end Documents

/-- What replaced a value is read back, a second replacement makes the first one undone,
    and a value that replaces itself leaves the document as it is, the order of its keys
    included. -/
theorem replace_lawful (doc : Json) (path : String) :
    (∀ v doc', (replace doc path v).result = .ok doc' →
      resolve doc' (parsePath path) = .ok v ∧
      ∀ w, ∃ doc'', (replace doc' path w).result = .ok doc'' ∧
        (replace doc path w).result = .ok doc'') ∧
    ∀ x, resolve doc (parsePath path) = .ok x → (replace doc path x).result = .ok doc :=
  ⟨fun _ _ h => ⟨resolve_replace h, replace_again h⟩, fun _ h => replace_resolve h⟩

/-- The second item, spelled with a blank, a zero and an underscore. -/
theorem replace_lawful_respelled :
    let doc : Json := .obj [("b", .null), ("a", .arr [.int 10, .int 20])]
    let doc' : Json := .obj [("b", .null), ("a", .arr [.int 10, .int 7])]
    (replace doc "/a/ 0_1" (.int 7)).result = .ok doc' ∧
      resolve doc' (parsePath "/a/ 0_1") = .ok (.int 7) ∧
      (∃ doc'', (replace doc' "/a/ 0_1" .null).result = .ok doc'' ∧
        (replace doc "/a/ 0_1" .null).result = .ok doc'') ∧
      resolve doc (parsePath "/a/ 0_1") = .ok (.int 20) ∧
      (replace doc "/a/ 0_1" (.int 20)).result = .ok doc := by
  intro doc doc'
  have hput : (replace doc "/a/ 0_1" (.int 7)).result = .ok doc' := by decide +kernel
  have hfound : resolve doc (parsePath "/a/ 0_1") = .ok (.int 20) := by decide +kernel
  obtain ⟨hlaws, hsame⟩ := replace_lawful doc "/a/ 0_1"
  obtain ⟨hread, hagain⟩ := hlaws (.int 7) doc' hput
  exact ⟨hput, hread, hagain .null, hfound, hsame (.int 20) hfound⟩

end ViewTree.Patch
