import ViewTree.Proofs.Json.Height
import ViewTree.Proofs.Node.Reading

/-
  ViewTree.Proofs.Node.Height — how deep the object of a node is.

  It is one level higher than the props, the children and the events of the node, and as
  high as what the node keeps (`height_toJson_le`). So a node is written at most one level
  deeper than it was read, with fields that it did not have (`height_of_read`).
-/

namespace ViewTree.Node

theorem heightItems_toItems_le_iff {nodes : List Node} {n : Nat} :
    Json.heightItems (toItems nodes) ≤ n ↔ ∀ node ∈ nodes, node.toJson.height < n := by
  induction nodes with
  | nil => simp [toItems, Json.heightItems]
  | cons node rest ih =>
    rw [toItems, Json.heightItems, Nat.max_le, ih, List.forall_mem_cons]
    exact Iff.rfl

/-- An object of a node is one level higher than what it has under its own keys. -/
theorem height_toJson_le (node : Node) : node.toJson.height ≤
    max (max (Json.heightFields node.props)
      (max (Json.heightItems (toItems node.children)) (Json.heightFields node.events)) + 1)
      (Json.heightFields node.extras) := by
  have hmerged := Json.heightFields_merge_le node.ownFields node.extras
  rw [toJson, toFields_eq, Json.height]
  obtain ⟨id, type, props, children, events, extras, source⟩ := node
  cases id <;> cases type <;>
    simp only [ownFields, identity, List.nil_append, List.cons_append, Json.heightFields,
      Json.height] at hmerged ⊢ <;> omega

theorem mem_of_readEach {room : Nat} {items : List Json} {position : Nat} {nodes : List Node}
    (h : readEach room position items = .ok nodes) :
    ∀ node ∈ nodes, ∃ v ∈ items, ∃ below, room = below + 1 ∧ read below v = .ok node := by
  induction items generalizing position nodes with
  | nil =>
    rw [readEach] at h
    cases h
    nofun
  | cons v rest ih =>
    obtain ⟨below, node, more, hroom, rfl, hnode, hmore⟩ := readEach_cons_eq_ok_iff.mp h
    intro m hm
    rcases List.mem_cons.mp hm with rfl | hm
    · exact ⟨v, List.mem_cons_self, below, hroom, hnode⟩
    · obtain ⟨w, hw, hread⟩ := ih hmore m hm
      exact ⟨w, List.mem_cons_of_mem v hw, hread⟩

theorem height_of_mapping {fields inner : Fields} {key : String}
    (h : Field.optional [key] fields [] mapping = .ok inner) :
    Json.heightFields inner ≤ Json.heightFields fields := by
  rcases Field.optional_eq_ok_iff.mp h with ⟨-, rfl⟩ | ⟨v, hv, hmapping⟩
  · exact Nat.zero_le _
  · have hlt := Json.height_lt_of_get? hv
    cases v with
    | null =>
      cases hmapping
      exact Nat.zero_le _
    | obj fields =>
      cases hmapping
      exact Nat.le_of_lt hlt
    | _ => cases hmapping

/-- A node is written at most one level deeper than it was read: with fields that it did not
    have, but not with children that it did not have. -/
theorem height_of_read {room : Nat} {v : Json} {node : Node} (h : read room v = .ok node) :
    node.toJson.height ≤ v.height + 1 := by
  induction room using Nat.strongRecOn generalizing v node with
  | _ room ih =>
    obtain ⟨fields, rfl, hreads⟩ := read_eq_ok_iff.mp h
    have hprops := height_of_mapping hreads.props
    have hevents := height_of_mapping hreads.events
    have hextras : Json.heightFields node.extras ≤ Json.heightFields fields := by
      rw [hreads.extras, Json.heightFields_le_iff]
      intro f hf
      exact Json.heightFields_le_iff.mp (Nat.le_refl _) f (List.mem_of_mem_filter hf)
    have hchildren : Json.heightItems (toItems node.children) ≤ Json.heightFields fields := by
      rw [heightItems_toItems_le_iff]
      rcases Field.optional_eq_ok_iff.mp hreads.children with ⟨-, hnone⟩ | ⟨w, hw, hread⟩
      · rw [← hnone]
        nofun
      · have hlt := Json.height_lt_of_get? hw
        cases w with
        | null =>
          rw [readChildren] at hread
          rw [← Except.ok.inj hread]
          nofun
        | arr items =>
          rw [readChildren] at hread
          intro child hchild
          obtain ⟨item, hitem, below, hroom, hbelow⟩ := mem_of_readEach hread child hchild
          have hchild := ih below (by omega) hbelow
          have hitem : item.height < (Json.arr items).height := Json.height_lt_of_mem hitem
          omega
        | _ => cases hread
    have hwritten := node.height_toJson_le
    rw [Json.height]
    omega

end ViewTree.Node
