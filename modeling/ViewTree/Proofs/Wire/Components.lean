import ViewTree.Check
import ViewTree.Proofs.Json.Roundtrip
import ViewTree.Proofs.Wire.Expansion

/-
  ViewTree.Proofs.Wire.Components — no component is lost.

  Every component of a wire schema has a node in the tree, in order and at its depth
  (`Pictures`). One of a supported type becomes a node of the type that corresponds to
  it; one that is passed through keeps its fields, of which its own overrule those of its
  props, and the components below it. Every other one leaves a valid error node, and the
  text in that node reads as the component again.
-/

namespace ViewTree.Wire

/-- The types, in lower case, of components that become a node without children, and the
    types of these nodes. -/
def counterparts : List (String × String) :=
  [("heading", "heading"), ("paragraph", "paragraph"), ("divider", "divider"),
    ("text-input", "input"), ("number-input", "input")]

/-- An object with a type that is supported in lower case. -/
def Supported (component : Json) : Prop :=
  ∃ fields s, component = .obj fields ∧ Fields.get? "type" fields = some (.str s) ∧
    (Text.lower s ∈ counterparts.map Prod.fst ∨ Text.lower s ∈ passThroughTypes)

/-- The fields of the object under `props`. -/
def inner (component : Fields) : Fields :=
  match component.get? "props" with
  | some (.obj fields) => fields
  | _ => []

/-- Props that hold the fields of a component which say nothing of its structure, and the
    fields of its props which have none of those names. -/
structure PropsOf (component props : Fields) : Prop where
  keys : props.keys.Nodup
  get? : ∀ key, props.get? key =
    (if key ∈ structural then none else component.get? key).or ((inner component).get? key)

/-- The details of a node read as this value, wherever integers keep their value. -/
def Details (node : Node) (component : Json) : Prop :=
  ∃ details, node.props.get? "details" = some (.str details) ∧
    ∀ d : Json.Dialect, d.wideAsDouble = false → Json.read d details.toList = .ok component

/-- A node shows a component, and the nodes below it those that the component passes on. -/
inductive Pictures : Json → Node → Prop where
  | counterpart {component : Fields} {s type : String} {node : Node} :
    component.get? "type" = some (.str s) → (Text.lower s, type) ∈ counterparts →
    node.type = some type → node.children = [] → Pictures (.obj component) node
  | passed {component : Fields} {s : String} {node : Node} :
    component.get? "type" = some (.str s) → Text.lower s ∈ passThroughTypes →
    node.type = some (Text.lower s) → PropsOf component node.props →
    List.Forall₂ Pictures (below component) node.children → Pictures (.obj component) node
  | standIn {component : Json} {node : Node} :
    ¬ Supported component → node.type = some "error" → node.children = [] →
    Check.validate Registry.library node = [] → Details node component → Pictures component node

/-! ## Kinds -/

/-- A supported type has a counterpart, or is passed through as itself. -/
theorem ofType?_eq_some {s : String} {kind : Kind} (h : Kind.ofType? s = some kind) :
    (kind = .passThrough (Text.lower s) ∧ Text.lower s ∈ passThroughTypes) ∨
      ((∀ component, kind.inside component = []) ∧
        ∀ component, (Text.lower s, (kind.target component).1) ∈ counterparts) := by
  unfold Kind.ofType? at h
  simp only at h
  split_ifs at h with h₁ h₂ h₃ h₄ h₅ h₆
  all_goals obtain rfl := Option.some_inj.mp h
  · exact .inr ⟨fun _ => rfl, fun _ => by simp [h₁, counterparts, Kind.target]⟩
  · exact .inr ⟨fun _ => rfl, fun _ => by simp [h₂, counterparts, Kind.target]⟩
  · exact .inr ⟨fun _ => rfl, fun _ => by simp [h₃, counterparts, Kind.target]⟩
  · exact .inr ⟨fun _ => rfl, fun _ => by simp [h₄, counterparts, Kind.target]⟩
  · exact .inr ⟨fun _ => rfl, fun _ => by simp [h₅, counterparts, Kind.target]⟩
  · exact .inl ⟨rfl, List.contains_iff_mem.mp h₆⟩

theorem ofType?_eq_none {s : String} (h : Kind.ofType? s = none) :
    Text.lower s ∉ counterparts.map Prod.fst ∧ Text.lower s ∉ passThroughTypes := by
  unfold Kind.ofType? at h
  simp only at h
  split_ifs at h with h₁ h₂ h₃ h₄ h₅ h₆
  refine ⟨by simp [counterparts, h₁, h₂, h₃, h₄, h₅], ?_⟩
  rwa [← List.contains_iff_mem]

theorem Unsupported.not_supported {component : Json} (h : Unsupported component) :
    ¬ Supported component := by
  rintro ⟨fields, s, rfl, htype, hkind⟩
  have hnone := ofType?_eq_none (kindOf?_eq_none_iff.mp (h fields rfl) s htype)
  exact hkind.elim hnone.1 hnone.2

/-! ## Nodes -/

theorem propsOf_propFields {component : Fields}
    (h : (Json.obj component).Throughout Json.Keyed) : PropsOf component (propFields component) := by
  have hown : (Fields.keys (component.filter fun f => !structural.contains f.1)).Nodup :=
    Fields.nodup_filter h.1
  have hinner : (inner component).keys.Nodup := by
    unfold inner
    split
    · rename_i fields hfound
      exact (h.2.of_get? hfound).1
    · exact List.nodup_nil
  refine ⟨Fields.nodup_merge _ hinner, fun key => ?_⟩
  rw [← Fields.get?_filter_keys]
  exact Fields.get?_merge hown key

/-- A stand-in violates no constraint of the error component. -/
theorem validate_standIn (component : Json) :
    Check.validate Registry.library (standIn component) = [] := by
  have herror : Registry.library.capability? "error" = some Catalog.errorView := rfl
  rw [Check.validate, standIn]
  simp only [herror]
  rfl

theorem details_standIn {component : Json} (h : component.Kept .exact) :
    Details (standIn component) component := by
  refine ⟨component.encode 0, rfl, fun d hd => ?_⟩
  rw [Json.encode, String.toList_ofList]
  exact Json.read_encodeChars (h.of_exact hd) 0

theorem follows_pictures : Follows Json.Dialect.exact.Keeps Pictures where
  standIn component hkept hunsupported :=
    .standIn hunsupported.not_supported rfl rfl (validate_standIn component) (details_standIn hkept)
  node fields kind children hkept hkind hchildren := by
    obtain ⟨s, htype, hs⟩ := kindOf?_eq_some_iff.mp hkind
    rcases ofType?_eq_some hs with ⟨rfl, hpassed⟩ | ⟨hinside, hcounterpart⟩
    · exact .passed htype hpassed rfl (propsOf_propFields (Json.Kept.keyed hkept)) hchildren
    · rw [hinside] at hchildren
      cases hchildren
      exact .counterpart htype (hcounterpart fields) rfl rfl

/-- The children of the tree of a wire schema show its components, one to one and in
    order. -/
theorem normalize_shows_components {raw : Json} (hwire : isWire raw = true)
    (hkept : raw.Kept .exact) :
    ∃ (fields : Fields) (components : List Json) (root : Node), raw = .obj fields ∧
      fields.get? "components" = some (.arr components) ∧ normalize raw = .ok root ∧
      List.Forall₂ Pictures components root.children := by
  obtain ⟨fields, components, hfields, hfound, htree, hchildren⟩ :=
    relates_tree follows_pictures hwire hkept
  exact ⟨fields, components, tree fields, hfields, hfound, htree, hchildren⟩

/-- A card with a heading and a number in it, and a component of an unknown type. -/
def mixed : List Json :=
  [.obj [("type", .str "Card"), ("title", .str "Own"),
      ("props", .obj [("title", .str "Overruled"), ("padding", .int 2)]),
      ("components", .arr [.obj [("type", .str "HEADING")], .int 5])],
    .obj [("type", .str "hologram")]]

theorem normalize_shows_mixed :
    ∃ root, normalize (.obj [("schemaVersion", .str "1.0"), ("components", .arr mixed)]) = .ok root ∧
      List.Forall₂ Pictures mixed root.children := by
  have hkept : (Json.obj [("schemaVersion", .str "1.0"), ("components", .arr mixed)]).Kept
      .exact := by
    have hdigits : ∀ n ∈ [2, 5], (Nat.toDigits 10 n).length ≤ Text.maxDigits := by decide
    simp only [List.forall_mem_cons] at hdigits
    simp [mixed, Json.Throughout, Json.ThroughoutFields, Json.ThroughoutItems, Json.Dialect.Keeps,
      Json.Dialect.KeepsInt, Json.Dialect.exact, Fields.keys, hdigits]
  obtain ⟨fields, components, root, hfields, hfound, htree, hchildren⟩ :=
    normalize_shows_components (by decide) hkept
  obtain rfl := Json.obj.inj hfields
  obtain rfl : mixed = components := by simpa [Fields.get?] using hfound
  exact ⟨root, htree, hchildren⟩

end ViewTree.Wire
