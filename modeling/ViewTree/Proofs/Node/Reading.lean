import ViewTree.Proofs.Json.Kept
import ViewTree.Proofs.Node.Tree

/-
  ViewTree.Proofs.Node.Reading — the node in an object, and the object of a node.

  Each field of a node is read from the field of its key, and what has another key is kept
  (`Reads`); the children are read likewise, one level further down. So what holds
  throughout a value and is handed on to the node of each object holds throughout the tree,
  which has no more levels than there is room for (`read_throughout`).

  Behind the object of a node the node is read again, plain, as soon as there is room for
  all its levels, and nothing is read otherwise (`read_toJson_iff`). The keys that a node
  keeps must be apart from its own for that (`Tidy`), as those of every node that was read
  are.
-/

namespace ViewTree.Node

/-! ## Reading -/

section Reading

variable {room : Nat}

theorem readChildrenOf_eq (room : Nat) (fields : Fields) :
    readChildrenOf room fields = Field.optional ["children"] fields [] (readChildren room) := by
  induction fields with
  | nil => rfl
  | cons field rest ih =>
    obtain ⟨key, v⟩ := field
    by_cases h : key = "children"
    · simp [readChildrenOf, Field.optional, Field.find?, Fields.get?, h]
    · simpa [readChildrenOf, Field.optional, Field.find?, Fields.get?, h] using ih

/-- What the fields of an object say of the node in it. -/
structure Reads (room : Nat) (fields : Fields) (node : Node) : Prop where
  id : Field.optional ["id"] fields none Field.text? = .ok node.id
  type : Field.optional ["type"] fields none Field.text? = .ok node.type
  props : Field.optional ["props"] fields [] mapping = .ok node.props
  children : Field.optional ["children"] fields [] (readChildren room) = .ok node.children
  events : Field.optional ["events"] fields [] mapping = .ok node.events
  extras : node.extras = fields.filter fun f => !keys.contains f.1
  source : node.source = none

theorem read_eq_ok_iff {v : Json} {node : Node} :
    read room v = .ok node ↔ ∃ fields, v = .obj fields ∧ Reads room fields node := by
  cases v with
  | obj fields =>
    rw [read, readChildrenOf_eq]
    constructor
    · intro h
      split at h
      · next id type props children events hchecked =>
        simp only [Field.both_eq_ok_iff] at hchecked
        obtain ⟨hid, htype, hprops, hchildren, hevents⟩ := hchecked
        obtain rfl := Except.ok.inj h
        exact ⟨fields, rfl, hid, htype, hprops, hchildren, hevents, rfl, rfl⟩
      · cases h
    · rintro ⟨_, hfields, h⟩
      obtain rfl := Json.obj.inj hfields
      rw [h.id, h.type, h.props, h.children, h.events, ← h.extras]
      simp only [Field.both, ← h.source]
      cases node
      rfl
  | _ => simp [read, Field.fail]

theorem readEach_cons_eq_ok_iff {position : Nat} {v : Json} {rest : List Json}
    {nodes : List Node} :
    readEach room position (v :: rest) = .ok nodes ↔
      ∃ below node more, room = below + 1 ∧ nodes = node :: more ∧ read below v = .ok node ∧
        readEach room (position + 1) rest = .ok more := by
  rw [readEach]
  cases room with
  | zero => 
    cases readEach 0 (position + 1) rest <;> simp [Field.fail, Field.under, Field.both]
  | succ below =>
    simp only [Nat.add_one_ne_zero, if_false, Nat.add_sub_cancel]
    constructor
    · intro h
      split at h
      · next node more hboth =>
        rw [Field.both_eq_ok_iff, Field.under_eq_ok_iff] at hboth
        exact ⟨below, node, more, rfl, (Except.ok.inj h).symm, hboth⟩
      · cases h
    · rintro ⟨_, node, more, hbelow, rfl, hnode, hmore⟩
      obtain rfl := Nat.succ.inj hbelow
      rw [hnode, hmore]
      rfl

variable {p : Json → Prop} {q : Node → Prop}

theorem readEach_throughout
    (hbelow : ∀ {below : Nat} {v : Json} {node : Node}, room = below + 1 → v.Throughout p →
      read below v = .ok node → node.Throughout q ∧ node.levels ≤ room) :
    ∀ {items : List Json} {position : Nat} {nodes : List Node}, Json.ThroughoutItems p items →
      readEach room position items = .ok nodes →
        ThroughoutAll q nodes ∧ levelsEach nodes ≤ room := by
  intro items
  induction items with
  | nil =>
    intro position nodes _ h
    rw [readEach] at h
    obtain rfl := Except.ok.inj h
    exact ⟨trivial, Nat.zero_le _⟩
  | cons v rest ih =>
    intro position nodes hitems h
    obtain ⟨below, node, more, hroom, rfl, hnode, hmore⟩ := readEach_cons_eq_ok_iff.mp h
    obtain ⟨hq, hlevels⟩ := hbelow hroom hitems.1 hnode
    obtain ⟨hqs, hleft⟩ := ih hitems.2 hmore
    exact ⟨⟨hq, hqs⟩, Nat.max_le.mpr ⟨hlevels, hleft⟩⟩

/-- What an object hands on to the node in it holds throughout the tree that is read. -/
theorem read_throughout
    (step : ∀ {room : Nat} {fields : Fields} {node : Node}, (Json.obj fields).Throughout p →
      Reads room fields node → q node) :
    ∀ {room : Nat} {v : Json} {node : Node}, v.Throughout p → read room v = .ok node →
      node.Throughout q ∧ node.levels ≤ room + 1 := by
  intro room
  induction room using Nat.strongRecOn with
  | _ room ih =>
    intro v node hv h
    obtain ⟨fields, rfl, hreads⟩ := read_eq_ok_iff.mp h
    have hchildren : ThroughoutAll q node.children ∧ levelsEach node.children ≤ room := by
      rcases Field.optional_eq_ok_iff.mp hreads.children with ⟨-, hnone⟩ | ⟨w, hw, hread⟩
      · rw [← hnone]
        exact ⟨trivial, Nat.zero_le _⟩
      · have hw := hv.2.of_get? hw
        cases w with
        | null =>
          rw [readChildren] at hread
          rw [← Except.ok.inj hread]
          exact ⟨trivial, Nat.zero_le _⟩
        | arr items =>
          rw [readChildren] at hread
          refine readEach_throughout (fun {below v node} hroom hv hnode => ?_) hw.2 hread
          obtain ⟨hq, hlevels⟩ := ih below (by omega) hv hnode
          exact ⟨hq, by omega⟩
        | _ => cases hread
    rw [throughout_iff, levels_eq]
    exact ⟨⟨step hv hreads, hchildren.1⟩, Nat.succ_le_succ hchildren.2⟩

end Reading

/-! ## The object of a node -/

/-- The keys that a node keeps differ from each other and from its own. -/
structure Tidy (node : Node) : Prop where
  nodup : node.extras.keys.Nodup
  apart : ∀ key ∈ node.extras.keys, key ∉ keys

/-- A node that was read from different keys is tidy. -/
theorem Reads.tidy {room : Nat} {fields : Fields} {node : Node} (h : Reads room fields node)
    (hkeys : fields.keys.Nodup) : node.Tidy where
  nodup := h.extras ▸ Fields.nodup_filter hkeys
  apart := by
    intro key hkey
    rw [h.extras] at hkey
    obtain ⟨f, hf, rfl⟩ := List.mem_map.mp hkey
    simpa using List.of_mem_filter hf

/-- The fields of a node under its own keys. -/
def ownFields (node : Node) : Fields :=
  identity "id" node.id ++ identity "type" node.type ++
    [("props", .obj node.props), ("children", .arr (toItems node.children)),
      ("events", .obj node.events)]

theorem toFields_eq (node : Node) : node.toFields = node.ownFields.merge node.extras := by
  cases node
  rw [toFields]
  rfl

theorem keys_ownFields (node : Node) : node.ownFields.keys.Sublist keys := by
  obtain ⟨id, type, props, children, events, extras, source⟩ := node
  cases id <;> cases type <;> simp [ownFields, identity, Fields.keys, keys]

section Tidy

variable {node : Node}

theorem Tidy.toFields_eq (h : node.Tidy) : node.toFields = node.ownFields ++ node.extras := by
  rw [Node.toFields_eq]
  refine Fields.merge_of_nodup ?_
  rw [Fields.keys_append, List.nodup_append]
  refine ⟨(by decide : keys.Nodup).sublist node.keys_ownFields, h.nodup, ?_⟩
  rintro key hown _ hextra rfl
  exact h.apart key hextra (node.keys_ownFields.subset hown)

/-- What a node keeps hides none of its own fields. -/
theorem Tidy.get?_toFields (h : node.Tidy) {key : String} (hkey : key ∈ keys) :
    node.toFields.get? key = node.ownFields.get? key := by
  have hnone : node.extras.get? key = none :=
    Fields.get?_eq_none_iff.mpr fun hextra => h.apart key hextra hkey
  rw [Node.toFields_eq, Fields.get?_merge h.nodup, hnone]
  rfl

/-- Under any other key an object has what the node keeps. -/
theorem Tidy.get?_toFields_kept (h : node.Tidy) {key : String} (hkey : key ∉ keys) :
    node.toFields.get? key = node.extras.get? key := by
  have hnone : node.ownFields.get? key = none :=
    Fields.get?_eq_none_iff.mpr fun hown => hkey (node.keys_ownFields.subset hown)
  rw [Node.toFields_eq, Fields.get?_merge h.nodup, hnone, Option.or_none]

theorem get?_ownFields (node : Node) (key : String) :
    node.ownFields.get? key =
      if key = "id" then node.id.map .str
      else if key = "type" then node.type.map .str
      else if key = "props" then some (.obj node.props)
      else if key = "children" then some (.arr (toItems node.children))
      else if key = "events" then some (.obj node.events)
      else none := by
  obtain ⟨id, type, props, children, events, extras, source⟩ := node
  cases id <;> cases type <;> simp [ownFields, identity, Fields.get?, eq_comm] <;> split_ifs <;>
    simp_all

theorem Tidy.filter_toFields (h : node.Tidy) :
    (node.toFields.filter fun f => !keys.contains f.1) = node.extras := by
  have hown : ∀ f ∈ node.ownFields, f.1 ∈ keys := fun f hf =>
    node.keys_ownFields.subset (List.mem_map_of_mem hf)
  have hextras : ∀ f ∈ node.extras, f.1 ∉ keys := fun f hf =>
    h.apart f.1 (List.mem_map_of_mem hf)
  rw [h.toFields_eq, List.filter_append, List.filter_eq_nil_iff.mpr (by simpa using hown),
    List.filter_eq_self.mpr (by simpa using hextras), List.nil_append]

theorem optional_text_iff {fields : Fields} {key : String} {s s' : Option String}
    (h : fields.get? key = s.map .str) :
    Field.optional [key] fields none Field.text? = .ok s' ↔ s' = s := by
  rw [Field.optional_eq_ok_iff, h]
  cases s <;> simp [Field.text?, Field.text, Except.map, eq_comm]

theorem optional_mapping_iff {fields inner fs : Fields} {key : String}
    (h : fields.get? key = some (.obj inner)) :
    Field.optional [key] fields [] mapping = .ok fs ↔ fs = inner := by
  rw [Field.optional_eq_ok_iff, h]
  simp [mapping, Field.object, eq_comm]

theorem optional_children_iff {fields : Fields} {key : String} {room : Nat} {items : List Json}
    {nodes : List Node} (h : fields.get? key = some (.arr items)) :
    Field.optional [key] fields [] (readChildren room) = .ok nodes ↔
      readEach room 0 items = .ok nodes := by
  simp [Field.optional_eq_ok_iff, h, readChildren]

/-- The object of a tidy node says everything of it but what the node stands in for. -/
theorem Tidy.reads_toFields_iff (h : node.Tidy) {room : Nat} {m : Node} :
    Reads room node.toFields m ↔
      readEach room 0 (toItems node.children) = .ok m.children ∧
        m = { node with children := m.children, source := none } := by
  have hfield {key : String} (hkey : key ∈ keys) :=
    (h.get?_toFields hkey).trans (get?_ownFields node key)
  have hid : node.toFields.get? "id" = node.id.map .str := hfield (by decide)
  have htype : node.toFields.get? "type" = node.type.map .str := hfield (by decide)
  have hprops : node.toFields.get? "props" = some (.obj node.props) := hfield (by decide)
  have hchildren : node.toFields.get? "children" = some (.arr (toItems node.children)) :=
    hfield (by decide)
  have hevents : node.toFields.get? "events" = some (.obj node.events) := hfield (by decide)
  constructor
  · intro hreads
    refine ⟨(optional_children_iff hchildren).mp hreads.children, ?_⟩
    rw [← (optional_text_iff hid).mp hreads.id, ← (optional_text_iff htype).mp hreads.type,
      ← (optional_mapping_iff hprops).mp hreads.props,
      ← (optional_mapping_iff hevents).mp hreads.events,
      ← hreads.extras.trans h.filter_toFields, ← hreads.source]
    cases m
    rfl
  · rintro ⟨hread, hm⟩
    rw [hm]
    exact ⟨(optional_text_iff hid).mpr rfl, (optional_text_iff htype).mpr rfl,
      (optional_mapping_iff hprops).mpr rfl, (optional_children_iff hchildren).mpr hread,
      (optional_mapping_iff hevents).mpr rfl, h.filter_toFields.symm, rfl⟩

end Tidy

mutual
/-- A tree of tidy nodes is read from its object where there is room for all its levels. -/
theorem read_toJson_iff : ∀ {node : Node} {room : Nat} {m : Node}, node.Throughout Tidy →
    (read room node.toJson = .ok m ↔ m = node.plain ∧ node.levels ≤ room + 1)
  | ⟨id, type, props, children, events, extras, source⟩, room, m, h => by
    rw [throughout_iff] at h
    rw [toJson, read_eq_ok_iff, plain, levels]
    constructor
    · rintro ⟨fields, hfields, hreads⟩
      obtain rfl := Json.obj.inj hfields
      obtain ⟨hread, hm⟩ := h.1.reads_toFields_iff.mp hreads
      obtain ⟨hchildren, hlevels⟩ := (readEach_toItems_iff h.2).mp hread
      rw [hchildren] at hm
      exact ⟨hm, Nat.succ_le_succ hlevels⟩
    · rintro ⟨hm, hlevels⟩
      have hread : readEach room 0 (toItems children) = .ok (plainEach children) :=
        (readEach_toItems_iff h.2).mpr ⟨rfl, Nat.le_of_succ_le_succ hlevels⟩
      exact ⟨_, rfl, h.1.reads_toFields_iff.mpr (hm ▸ ⟨hread, rfl⟩)⟩

theorem readEach_toItems_iff : ∀ {nodes : List Node} {room position : Nat} {ms : List Node},
    ThroughoutAll Tidy nodes →
      (readEach room position (toItems nodes) = .ok ms ↔
        ms = plainEach nodes ∧ levelsEach nodes ≤ room)
  | [], room, position, ms, _ => by
    simp [toItems, readEach, plainEach, levelsEach, eq_comm]
  | node :: rest, room, position, ms, h => by
    rw [toItems, readEach_cons_eq_ok_iff, plainEach, levelsEach, Nat.max_le]
    constructor
    · rintro ⟨below, m, more, rfl, rfl, hnode, hmore⟩
      obtain ⟨rfl, hlevels⟩ := (read_toJson_iff h.1).mp hnode
      obtain ⟨rfl, hleft⟩ := (readEach_toItems_iff h.2).mp hmore
      exact ⟨rfl, hlevels, hleft⟩
    · rintro ⟨rfl, hlevels, hleft⟩
      -- a node has one level at least, so there is room for one
      obtain ⟨below, rfl⟩ : ∃ below, room = below + 1 :=
        Nat.exists_eq_add_of_le' (Nat.le_trans (levels_eq node ▸ Nat.succ_pos _) hlevels)
      exact ⟨below, _, _, rfl, rfl, (read_toJson_iff h.1).mpr ⟨rfl, hlevels⟩,
        (readEach_toItems_iff h.2).mpr ⟨rfl, hleft⟩⟩
end

end ViewTree.Node
