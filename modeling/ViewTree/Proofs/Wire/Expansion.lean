import ViewTree.Proofs.Json.Kept
import ViewTree.Proofs.Node.Tree
import ViewTree.Wire

/-
  ViewTree.Proofs.Wire.Expansion — how a list of components becomes a list of nodes.

  A component becomes one node, and the components below it become the children of that
  node when its kind passes them through. A relation of components and nodes that holds
  of stand-ins, and of a node as soon as it holds below it, therefore holds of every
  component and its node (`relates_expand`), one to one and in order. A property that every
  stand-in and every node of a component has holds throughout the tree of a wire schema
  (`throughout_tree`).
-/

namespace ViewTree.Wire

/-- The components in a value that lists some. -/
def listed : Option Json → List Json
  | some (.arr components) => components
  | _ => []

/-- The components below a component. -/
def below (component : Fields) : List Json := listed (component.get? "components")

/-- The components below a component of a kind that become nodes. -/
def Kind.inside (kind : Kind) (component : Fields) : List Json :=
  match kind with
  | .passThrough _ => below component
  | _ => []

/-- A component has a kind when it is an object that calls a supported type. -/
theorem kindOf?_eq_some_iff {component : Fields} {kind : Kind} :
    kindOf? component = some kind ↔
      ∃ s, component.get? "type" = some (.str s) ∧ Kind.ofType? s = some kind := by
  rw [kindOf?]
  cases component.get? "type" with
  | none => simp
  | some v => cases v <;> simp

theorem kindOf?_eq_none_iff {component : Fields} :
    kindOf? component = none ↔
      ∀ s, component.get? "type" = some (.str s) → Kind.ofType? s = none := by
  rw [kindOf?]
  cases component.get? "type" with
  | none => simp
  | some v => cases v <;> simp

/-- A component that nothing in the library corresponds to: it is no object, calls no
    type, or calls one that is not supported. -/
def Unsupported (component : Json) : Prop :=
  ∀ fields, component = .obj fields → kindOf? fields = none

/-- A relation of components and nodes that follows the expansion, for components in
    which `p` holds throughout: it holds of stand-ins, and of a node if it holds below. -/
structure Follows (p : Json → Prop) (R : Json → Node → Prop) : Prop where
  standIn : ∀ component, component.Throughout p → Unsupported component →
    R component (standIn component)
  node : ∀ fields kind children, (Json.obj fields).Throughout p → kindOf? fields = some kind →
    List.Forall₂ R (kind.inside fields) children →
    R (.obj fields) (nodeOf fields (kind.target fields) children)

section Expansion

variable {p : Json → Prop} {R : Json → Node → Prop}

theorem Follows.scalar (h : Follows p R) {v : Json} (hv : v.Throughout p)
    (hscalar : ∀ fields, v ≠ .obj fields) : R v (Wire.standIn v) :=
  h.standIn v hv fun fields heq => absurd heq (hscalar fields)

mutual
theorem relates_expand (h : Follows p R) : ∀ v : Json, v.Throughout p → R v (expand v)
  | .obj fields, hv => by
    have hbelow := relates_expandNested h fields hv.2
    rw [expand]
    cases hkind : kindOf? fields with
    | none =>
      refine h.standIn _ hv fun fields' heq => ?_
      rwa [← Json.obj.inj heq]
    | some kind =>
      refine h.node fields kind _ hv hkind ?_
      cases kind with
      | passThrough type => exact hbelow
      | _ => exact .nil
  | .null, hv => h.scalar hv nofun
  | .bool _, hv => h.scalar hv nofun
  | .int _, hv => h.scalar hv nofun
  | .real _, hv => h.scalar hv nofun
  | .str _, hv => h.scalar hv nofun
  | .arr _, hv => h.scalar hv nofun
  | .handler _, hv => h.scalar hv nofun

theorem relates_expandNested (h : Follows p R) : ∀ fields : List (String × Json),
    Json.ThroughoutFields p fields → List.Forall₂ R (below fields) (expandNested fields)
  | [], _ => .nil
  | (key, v) :: rest, hfields => by
    have hv := relates_expandList h v hfields.1
    have hrest := relates_expandNested h rest hfields.2
    rw [below, Fields.get?, expandNested]
    by_cases hkey : key = "components"
    · rwa [if_pos hkey, if_pos hkey]
    · rwa [if_neg hkey, if_neg hkey]

theorem relates_expandList (h : Follows p R) : ∀ v : Json,
    v.Throughout p → List.Forall₂ R (listed (some v)) (expandList v)
  | .arr items, hv => relates_expandEach h items hv.2
  | .null, _ => .nil
  | .bool _, _ => .nil
  | .int _, _ => .nil
  | .real _, _ => .nil
  | .str _, _ => .nil
  | .obj _, _ => .nil
  | .handler _, _ => .nil

theorem relates_expandEach (h : Follows p R) : ∀ components : List Json,
    Json.ThroughoutItems p components → List.Forall₂ R components (expandEach components)
  | [], _ => .nil
  | v :: rest, hitems => .cons (relates_expand h v hitems.1) (relates_expandEach h rest hitems.2)
end

/-- A wire schema lists components, and its tree has a child for each of them, in order. -/
theorem relates_tree (h : Follows p R) {raw : Json} (hwire : isWire raw = true)
    (hraw : raw.Throughout p) :
    ∃ (fields : Fields) (components : List Json), raw = .obj fields ∧
      fields.get? "components" = some (.arr components) ∧
      normalize raw = .ok (tree fields) ∧ List.Forall₂ R components (tree fields).children := by
  cases raw with
  | obj fields =>
    have hmark := hwire
    rw [isWire, Bool.and_eq_true] at hmark
    cases hfound : Fields.get? "components" fields with
    | none => simp [hfound] at hmark
    | some v =>
      cases v with
      | arr components =>
        refine ⟨fields, components, rfl, hfound, by rw [normalize, if_pos hwire], ?_⟩
        have hlist := hraw.2.of_get? hfound
        rw [tree, hfound]
        exact relates_expandEach h components hlist.2
      | _ => simp [hfound] at hmark
  | _ => simp [isWire] at hwire

theorem throughoutAll_of_related {q : Node → Prop} {components : List Json} {nodes : List Node}
    (h : List.Forall₂ (fun _ node => node.Throughout q) components nodes) :
    Node.ThroughoutAll q nodes := by
  induction h with
  | nil => trivial
  | cons hnode _ ih => exact ⟨hnode, ih⟩

/-- What holds of the root, of stand-ins and of the nodes of components holds throughout
    the tree of a wire schema. -/
theorem throughout_tree {q : Node → Prop}
    (hstandIn : ∀ component, component.Throughout p → q (Wire.standIn component))
    (hnode : ∀ fields kind children, (Json.obj fields).Throughout p →
      kindOf? fields = some kind → q (nodeOf fields (kind.target fields) children))
    (hroot : ∀ schema, q (tree schema)) {raw : Json} (hwire : isWire raw = true)
    (hraw : raw.Throughout p) : ∃ root, normalize raw = .ok root ∧ root.Throughout q := by
  have hfollows : Follows p fun _ node => node.Throughout q := {
    standIn := fun component hv _ => Node.throughout_iff.mpr ⟨hstandIn component hv, trivial⟩
    node := fun fields kind children hv hkind hchildren =>
      Node.throughout_iff.mpr ⟨hnode fields kind children hv hkind,
        throughoutAll_of_related hchildren⟩ }
  obtain ⟨fields, components, -, -, htree, hchildren⟩ := relates_tree hfollows hwire hraw
  exact ⟨tree fields, htree,
    Node.throughout_iff.mpr ⟨hroot fields, throughoutAll_of_related hchildren⟩⟩

end Expansion

end ViewTree.Wire
