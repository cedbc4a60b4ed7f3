import ViewTree.Proofs.Node.Height
import ViewTree.Proofs.Wire.Canonical

/-
  ViewTree.Proofs.Wire.Height — how deep a normalized tree is.

  What a component puts into the props and the events of its node lies one level deeper
  there at most, and a stand-in has two levels of its own. The components below lie two
  levels down, and so do the children. So a node is no more than two levels deeper than its
  component, and the tree of a wire schema no more than two levels deeper than the schema
  (`height_of_normalize`).
-/

namespace ViewTree.Wire

/-! ## Props -/

section Props

variable {n : Nat} {fields component : Fields}

theorem height_getOr_lt {key : String} {default : Json} (hfields : Json.heightFields fields < n)
    (hdefault : default.height < n) : (getOr key default fields).height < n := by
  unfold getOr
  cases hv : fields.get? key with
  | none => exact hdefault
  | some v =>
    have hlt := Json.height_lt_of_get? hv
    show v.height < n
    omega

theorem heightFields_propFields_le (component : Fields) :
    Json.heightFields (propFields component) ≤ Json.heightFields component := by
  have hown : Json.heightFields (component.filter fun f => !structural.contains f.1) ≤
      Json.heightFields component := by
    rw [Json.heightFields_le_iff]
    intro f hf
    exact Json.heightFields_le_iff.mp (Nat.le_refl _) f (List.mem_of_mem_filter hf)
  unfold propFields
  refine Nat.le_trans (Json.heightFields_merge_le _ _) (Nat.max_le.mpr ⟨?_, hown⟩)
  split
  · rename_i inner hprops
    exact Nat.le_of_lt (Json.height_lt_of_get? hprops : (Json.obj inner).height < _)
  · exact Nat.zero_le _

theorem heightFields_inputProps_le (type : String) (hfields : Json.heightFields fields < n)
    (hcomponent : Json.heightFields component < n) :
    Json.heightFields (inputProps component fields type) ≤ n := by
  have hscalar (v : Json) (hv : v.height = 0) : v.height < n := by omega
  have hfound (key : String) (default : Json) (hdefault : default.height = 0) :
      (getOr key default fields).height < n :=
    height_getOr_lt hfields (hscalar default hdefault)
  rw [Json.heightFields_le_iff, inputProps]
  intro f hf
  have hmem := List.mem_of_mem_filter hf
  simp only [List.mem_cons, List.not_mem_nil, or_false] at hmem
  rcases hmem with rfl | rfl | rfl | rfl | rfl | rfl | rfl | rfl | rfl
  · dsimp only
    split
    · rename_i v hv
      have hlt := Json.height_lt_of_get? hv
      omega
    · exact hfound "id" .null rfl
  · exact hscalar _ rfl
  all_goals exact hfound _ _ rfl

theorem heightFields_target_le (kind : Kind) (component : Fields) :
    Json.heightFields (kind.target component).2 ≤ Json.heightFields component + 1 := by
  have hfields := Nat.lt_succ_of_le (heightFields_propFields_le component)
  have hfound (key : String) (default : Json) (hdefault : default.height = 0) :
      (getOr key default (propFields component)).height < Json.heightFields component + 1 :=
    height_getOr_lt hfields (by omega)
  cases kind with
  | heading =>
    simp only [Kind.target, Json.heightFields_le_iff, List.forall_mem_cons]
    exact ⟨hfound _ _ rfl, hfound _ _ rfl, hfound _ _ rfl, nofun⟩
  | paragraph =>
    simp only [Kind.target, Json.heightFields_le_iff, List.forall_mem_cons]
    exact ⟨hfound _ _ rfl, hfound _ _ rfl, nofun⟩
  | divider =>
    simp only [Kind.target, Json.heightFields_le_iff, List.forall_mem_cons]
    exact ⟨hfound _ _ rfl, nofun⟩
  | input type => exact heightFields_inputProps_le type hfields (Nat.lt_succ_self _)
  | passThrough type => exact Nat.le_of_lt hfields

theorem heightFields_rootProps_le (type : String) {layout : Fields}
    (hlayout : Json.heightFields layout < n) : Json.heightFields (rootProps type layout) ≤ n := by
  have hfound (key : String) (default : Json) (hdefault : default.height = 0) :
      (getOr key default layout).height < n := height_getOr_lt hlayout (by omega)
  unfold rootProps
  split
  · rw [Json.heightFields_le_iff]
    intro f hf
    obtain ⟨key, -, hkey⟩ := List.mem_filterMap.mp hf
    obtain ⟨v, hv, rfl⟩ := Option.map_eq_some_iff.mp hkey
    have hlt := Json.height_lt_of_get? (Fields.get?_of_given? hv)
    show v.height < n
    omega
  split
  · simp only [Json.heightFields_le_iff, List.forall_mem_cons]
    exact ⟨hfound _ _ rfl, hfound _ _ rfl, nofun⟩
  split
  · simp only [Json.heightFields_le_iff, List.forall_mem_cons]
    exact ⟨hfound _ _ rfl, nofun⟩
  · simp only [Json.heightFields_le_iff, List.forall_mem_cons]
    exact ⟨hfound _ _ rfl, hfound _ _ rfl, nofun⟩

end Props

/-! ## Components -/

/-- A node is no more than two levels deeper than a component. -/
def Shallow (component : Json) (node : Node) : Prop := node.toJson.height ≤ component.height + 2

/-- So are the nodes of a list of components. -/
theorem heightItems_of_shallow {components : List Json} {nodes : List Node}
    (h : List.Forall₂ Shallow components nodes) :
    Json.heightItems (Node.toItems nodes) ≤ Json.heightItems components + 2 := by
  induction h with
  | nil => exact Nat.zero_le _
  | @cons component node components nodes hnode _ ih =>
    have hnode : (Json.obj node.toFields).height ≤ component.height + 2 := hnode
    rw [Node.toItems, Json.heightItems, Json.heightItems]
    omega

theorem heightItems_listed_le {fields : Fields} {key : String} :
    Json.heightItems (listed (fields.get? key)) ≤ Json.heightFields fields - 1 := by
  cases hv : fields.get? key with
  | none => exact Nat.zero_le _
  | some v =>
    have hlt := Json.height_lt_of_get? hv
    cases v with
    | arr components =>
      rw [Json.height] at hlt
      show Json.heightItems components ≤ _
      omega
    | _ => exact Nat.zero_le _

/-- The fields of a field are no deeper than the object that has it. -/
theorem heightFields_inner_le {fields : Fields} {key : String} :
    Json.heightFields (match fields.get? key with
      | some (.obj inner) => inner
      | _ => []) ≤ Json.heightFields fields := by
  split
  · rename_i inner hfound
    exact Nat.le_of_lt (Json.height_lt_of_get? hfound : (Json.obj inner).height < _)
  · exact Nat.zero_le _

theorem shallow_standIn (component : Json) : Shallow component (standIn component) := by
  have hwritten := (standIn component).height_toJson_le
  have hprops : Json.heightFields (standIn component).props = 1 := rfl
  have hchildren : Json.heightItems (Node.toItems (standIn component).children) = 0 := rfl
  have hevents : Json.heightFields (standIn component).events = 0 := rfl
  have hextras : Json.heightFields (standIn component).extras = 0 := rfl
  unfold Shallow
  omega

theorem shallow_nodeOf {fields : Fields} {kind : Kind} {children : List Node}
    (hkind : kindOf? fields = some kind)
    (hchildren : List.Forall₂ Shallow (kind.inside fields) children) :
    Shallow (.obj fields) (nodeOf fields (kind.target fields) children) := by
  have hwritten := (nodeOf fields (kind.target fields) children).height_toJson_le
  have hprops : Json.heightFields (nodeOf fields (kind.target fields) children).props ≤
      Json.heightFields fields + 1 := heightFields_target_le kind fields
  have hevents : Json.heightFields (nodeOf fields (kind.target fields) children).events ≤
      Json.heightFields fields := heightFields_inner_le
  have hextras : Json.heightFields (nodeOf fields (kind.target fields) children).extras = 0 := rfl
  have hbelow : Json.heightItems (Node.toItems (nodeOf fields (kind.target fields)
      children).children) ≤ Json.heightItems (kind.inside fields) + 2 :=
    heightItems_of_shallow hchildren
  have hinside : Json.heightItems (kind.inside fields) ≤ Json.heightFields fields - 1 := by
    cases kind with
    | passThrough type => exact heightItems_listed_le
    | _ => exact Nat.zero_le _
  -- a component of a kind has a type at least
  obtain ⟨s, htype, -⟩ := kindOf?_eq_some_iff.mp hkind
  have hlt := Json.height_lt_of_get? htype
  rw [Shallow, Json.height]
  omega

theorem follows_shallow : Follows (fun _ => True) Shallow where
  standIn component _ _ := shallow_standIn component
  node _ _ _ _ hkind hchildren := shallow_nodeOf hkind hchildren

/-- A normalized tree is no more than two levels deeper than what it was normalized from. -/
theorem height_of_normalize {raw : Json} {node : Node} (h : normalize raw = .ok node) :
    node.toJson.height ≤ raw.height + 2 := by
  by_cases hwire : isWire raw = true
  · obtain ⟨fields, components, rfl, hlist, htree, hchildren⟩ :=
      relates_tree follows_shallow hwire (Json.throughout_of_forall (fun _ => trivial) raw)
    rw [htree, Except.ok.injEq] at h
    subst h
    have hwritten := (tree fields).height_toJson_le
    have hprops : Json.heightFields (tree fields).props ≤ Json.heightFields fields + 1 :=
      heightFields_rootProps_le _ (Nat.lt_succ_of_le heightFields_inner_le)
    have hevents : Json.heightFields (tree fields).events = 0 := rfl
    have hextras : Json.heightFields (tree fields).extras = 0 := rfl
    have hbelow := heightItems_of_shallow hchildren
    have hlt : Json.heightItems components < Json.heightFields fields :=
      Json.height_lt_of_get? hlist
    show (tree fields).toJson.height ≤ Json.heightFields fields + 2
    omega
  · rw [normalize_of_not_wire (Bool.eq_false_iff.mpr hwire), Node.ofJson_eq_ok_iff] at h
    exact Nat.le_succ_of_le (Node.height_of_read h)

end ViewTree.Wire
