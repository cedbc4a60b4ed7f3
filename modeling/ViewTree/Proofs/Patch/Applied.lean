import ViewTree.Proofs.Patch.Replay

/-
  ViewTree.Proofs.Patch.Applied — what an operation that applied has done.

  It was an addition, a removal or a replacement, or the addition that ends a copy or a
  move: `Applies` has one rule for each of the five, and a patch that applied was read as an
  operation that did (`applies_of_step`). What every applied patch keeps is a case split
  over the rules.
-/

namespace ViewTree.Patch

/-! ## Additions -/

theorem addBelow_last (path last : String) (value parent : Json) :
    (addBelow path value [last] parent).result = addMember path value last parent := by
  unfold addBelow
  cases addMember path value last parent <;> rfl

/-- An addition that applies leaves behind the document that it gives. -/
theorem doc_of_addBelow {path : String} {value doc doc' : Json} {segments : List String}
    (h : (addBelow path value segments doc).result = .ok doc') :
    (addBelow path value segments doc).doc = doc' := by
  match segments with
  | [] =>
    cases h
    rfl
  | [last] =>
    rw [addBelow_last] at h
    rw [addBelow, h]
  | s :: next :: rest =>
    rw [addBelow] at h ⊢
    cases hensure : ensureChild doc s next with
    | error f => simp [hensure] at h
    | ok found =>
      obtain ⟨child, holder⟩ := found
      simp only [hensure] at h ⊢
      cases hbelow : (addBelow path value (next :: rest) child).result with
      | error stop => simp [hbelow, Except.map] at h
      | ok below => simpa [hbelow, Except.map] using h

/-- Further up, it has ensured a child and added the value below it. -/
theorem addBelow_eq_ok {path s next : String} {value doc doc' : Json} {rest : List String}
    (h : (addBelow path value (s :: next :: rest) doc).result = .ok doc') :
    ∃ child holder below, ensureChild doc s next = .ok (child, holder) ∧
      (addBelow path value (next :: rest) child).result = .ok below ∧
      doc' = setMember holder s below := by
  rw [addBelow] at h
  cases hensure : ensureChild doc s next with
  | error f => simp [hensure] at h
  | ok found =>
    obtain ⟨child, holder⟩ := found
    simp only [hensure] at h
    cases hbelow : (addBelow path value (next :: rest) child).result with
    | error stop => simp [hbelow, Except.map] at h
    | ok below =>
      refine ⟨child, holder, below, rfl, hbelow, ?_⟩
      rw [hbelow, doc_of_addBelow hbelow] at h
      exact (Except.ok.inj h).symm

/-! ## Operations -/

/-- What an operation that applied has done to a document. -/
inductive Applies (o : Operation) (doc : Json) : Json → Prop
  | add {doc' : Json} : o.op = "add" → (add doc o.path o.value).result = .ok doc' →
      Applies o doc doc'
  | remove {doc' : Json} : o.op = "remove" → (remove doc o.path).result = .ok doc' →
      Applies o doc doc'
  | replace {doc' : Json} : o.op = "replace" → (replace doc o.path o.value).result = .ok doc' →
      Applies o doc doc'
  | copy {source : String} {value doc' : Json} : o.op = "copy" → o.source = some source →
      resolve doc (parsePath source) = .ok value → (Patch.add doc o.path value).result = .ok doc' →
      Applies o doc doc'
  | move {source : String} {value rest doc' : Json} : o.op = "move" → o.source = some source →
      resolve doc (parsePath source) = .ok value → (Patch.remove doc source).result = .ok rest →
      (Patch.add rest o.path value).result = .ok doc' → Applies o doc doc'

theorem ok_of_result {doc doc' : Json} {e : Except EditFault Json}
    (h : (Edited.of doc e).result = .ok doc') : e = .ok doc' := by
  cases e with
  | error f => cases h
  | ok d =>
    cases h
    rfl

theorem result_of_ofEdit {op op' : String} {e : Edited} {doc : Json}
    (h : Step.ofEdit op e = .applied doc op') : e.result = .ok doc := by
  unfold Step.ofEdit at h
  split at h
  · rename_i hresult
    cases h
    exact hresult
  · cases h
  · cases h

theorem result_of_withSource {o : Operation} {edit : String → Edited} {doc : Json} {op : String}
    (h : withSource o edit = .applied doc op) :
    ∃ source, o.source = some source ∧ (edit source).result = .ok doc := by
  unfold withSource at h
  cases hs : o.source with
  | none => simp [hs] at h
  | some source =>
    rw [hs] at h
    exact ⟨source, rfl, result_of_ofEdit h⟩

theorem copy_eq_ok {doc doc' : Json} {path source : String}
    (h : (copy doc path source).result = .ok doc') :
    ∃ value, resolve doc (parsePath source) = .ok value ∧ (add doc path value).result = .ok doc' := by
  unfold copy at h
  cases hr : resolve doc (parsePath source) with
  | error f => simp [hr] at h
  | ok value =>
    rw [hr] at h
    exact ⟨value, rfl, h⟩

theorem move_eq_ok {doc doc' : Json} {path source : String}
    (h : (move doc path source).result = .ok doc') :
    ∃ value rest, resolve doc (parsePath source) = .ok value ∧
      (remove doc source).result = .ok rest ∧ (add rest path value).result = .ok doc' := by
  unfold move at h
  split at h
  · cases h
  · cases hr : resolve doc (parsePath source) with
    | error f => simp [hr] at h
    | ok value =>
      cases hd : (remove doc source).result with
      | error stop => simp [hr, hd] at h
      | ok rest => exact ⟨value, rest, rfl, rfl, by simpa [hr, hd] using h⟩

theorem applies_of_applied {doc doc' : Json} {o : Operation} {op : String}
    (h : apply doc o = .applied doc' op) : Applies o doc doc' := by
  unfold apply at h
  split at h
  · exact .add ‹_› (result_of_ofEdit h)
  split at h
  · exact .remove ‹_› (result_of_ofEdit h)
  split at h
  · exact .replace ‹_› (result_of_ofEdit h)
  split at h
  · obtain ⟨source, hsource, hcopy⟩ := result_of_withSource h
    obtain ⟨value, hvalue, hadd⟩ := copy_eq_ok hcopy
    exact .copy ‹_› hsource hvalue hadd
  split at h
  · obtain ⟨source, hsource, hmove⟩ := result_of_withSource h
    obtain ⟨value, rest, hvalue, hremove, hadd⟩ := move_eq_ok hmove
    exact .move ‹_› hsource hvalue hremove hadd
  · cases h

/-- A patch that applied was an operation that applied. -/
theorem applies_of_step {doc doc' patch : Json} {op : String}
    (h : step doc patch = .applied doc' op) :
    ∃ o, Operation.read patch = .ok o ∧ Applies o doc doc' := by
  unfold step at h
  cases ho : Operation.read patch with
  | error faults => simp [ho] at h
  | ok o =>
    rw [ho] at h
    exact ⟨o, rfl, applies_of_applied h⟩

end ViewTree.Patch
