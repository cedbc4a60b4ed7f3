import ViewTree.Proofs.Node.Tree
import ViewTree.Proofs.Render.Trees
import ViewTree.Proofs.Wire.Components

/-
  ViewTree.Proofs.Wire.Rendering — a wire schema is always shown.

  Whatever the layout and the components of a wire schema are, each node of its tree is
  of a type that the library has, and of one that asks nothing of its props
  (`showable_tree`). The image of such a tree has no errors: a result fails only where a
  node has no component of the library (`Image.errors_eq_nil`). So the tree of a wire
  schema is rendered without an error into any host (`normalize_renders`).
-/

namespace ViewTree

/-- The built-in library has the type of a node. -/
def Node.Registered (node : Node) : Prop :=
  ∃ type, node.type = some type ∧ Registry.library.has type = true

/-- A node of a type that the library has and that asks nothing of the props, with
    different keys in props and events. -/
structure Node.Showable (node : Node) : Prop where
  registered : node.Registered
  free : node.type ≠ some "tabs"
  props : node.props.keys.Nodup
  events : node.events.keys.Nodup

/-! ## Rendering -/

namespace Render

open Live

theorem capabilityOf_registered {node : Node} (h : node.Registered) :
    ∃ c, capabilityOf node = some c := by
  obtain ⟨type, htype, hhas⟩ := h
  obtain ⟨entry, hentry⟩ := Option.isSome_iff_exists.mp hhas
  have hnonempty : type ≠ "" := by
    rintro rfl
    exact absurd hhas (by decide)
  refine ⟨entry.capability, ?_⟩
  rw [capabilityOf, htype, Option.filter_some, if_pos (by simpa using hnonempty), Option.bind_some,
    Registry.capability?, hentry]
  rfl

mutual
theorem proper_of_showable : ∀ node : Node, node.Throughout Node.Showable → Proper node
  | ⟨_, _, _, children, _, _, _⟩, hnode => by
    rw [Node.Throughout] at hnode
    rw [Proper]
    exact ⟨hnode.1.props, hnode.1.events, fun htabs => absurd htabs hnode.1.free,
      properAll_of_showable children hnode.2⟩

theorem properAll_of_showable : ∀ nodes : List Node,
    Node.ThroughoutAll Node.Showable nodes → ProperAll nodes
  | [], _ => trivial
  | node :: rest, hnodes =>
    ⟨proper_of_showable node hnodes.1, properAll_of_showable rest hnodes.2⟩
end

mutual
/-- The image of a tree of registered types has an instance and no errors. -/
theorem Image.errors_eq_nil {s : Store} : ∀ {node : Node} {r : RenderResult}, Image s node r →
    node.Throughout Node.Registered → r.errors = [] ∧ ∃ i, r.component = some i
  | _, _, .failed hc, hnode => by
    obtain ⟨c, hsome⟩ := capabilityOf_registered (Node.throughout_iff.mp hnode).1
    cases hc.symm.trans hsome
  | _, _, .leaf _ _ _, _ => ⟨rfl, _, rfl⟩
  | _, _, .together _ _ _ _ _ _ himages _, hnode =>
    ⟨himages.errors_eq_nil (Node.throughout_iff.mp hnode).2, _, rfl⟩
  | _, _, .apart _ _ _ _ himages _ _, hnode => by
    -- only the children that have a panel are rendered
    refine ⟨himages.errors_eq_nil ?_, _, rfl⟩
    have hall := Node.throughoutAll_iff.mp (Node.throughout_iff.mp hnode).2
    exact Node.throughoutAll_iff.mpr fun child hchild => hall child (List.mem_of_mem_take hchild)

theorem ImageAll.errors_eq_nil {s : Store} : ∀ {nodes : List Node} {results : List RenderResult},
    ImageAll s nodes results → Node.ThroughoutAll Node.Registered nodes →
    RenderResult.errorsOf results = []
  | _, _, .nil, _ => rfl
  | _, _, .cons himage himages, hnodes => by
    rw [RenderResult.errorsOf, (himage.errors_eq_nil hnodes.1).1, himages.errors_eq_nil hnodes.2]
    rfl
end

end Render

/-! ## Wire schemas -/

namespace Wire

open Live Render

theorem free_of_corresponding {type : String}
    (h : type ∈ counterparts.map Prod.snd ++ passThroughTypes) :
    Registry.library.has type = true ∧ type ≠ "tabs" := by
  revert type
  decide +kernel

theorem keys_target {component : Fields} (h : (Json.obj component).Throughout Json.Keyed)
    (kind : Kind) : (kind.target component).2.keys.Nodup := by
  cases kind with
  | heading => simp [Kind.target, Fields.keys]
  | paragraph => simp [Kind.target, Fields.keys]
  | divider => simp [Kind.target, Fields.keys]
  | input type => exact Fields.nodup_filter (by simp [Fields.keys])
  | passThrough type => exact (propsOf_propFields h).keys

theorem showable_nodeOf {component : Fields} (h : (Json.obj component).Throughout Json.Keyed)
    {kind : Kind} (hkind : kindOf? component = some kind) (children : List Node) :
    (nodeOf component (kind.target component) children).Showable := by
  have htype : (kind.target component).1 ∈ counterparts.map Prod.snd ++ passThroughTypes := by
    obtain ⟨s, -, hs⟩ := kindOf?_eq_some_iff.mp hkind
    rcases ofType?_eq_some hs with ⟨rfl, hpassed⟩ | ⟨-, hcounterpart⟩
    · exact List.mem_append_right _ hpassed
    · exact List.mem_append_left _ (List.mem_map_of_mem (hcounterpart component))
  obtain ⟨hregistered, hfree⟩ := free_of_corresponding htype
  refine ⟨⟨_, rfl, hregistered⟩, fun heq => hfree (Option.some_inj.mp heq), keys_target h kind, ?_⟩
  rw [nodeOf]
  split
  · rename_i events hfound
    exact (h.2.of_get? hfound).1
  · exact List.nodup_nil

theorem showable_standIn (component : Json) : (standIn component).Showable where
  registered := ⟨"error", rfl, by decide +kernel⟩
  free := by simp [standIn]
  props := by simp [standIn, Fields.keys]
  events := List.nodup_nil

theorem rootType_mem (type : Option Json) : rootType type ∈ defaultRoot :: layoutTypes := by
  unfold rootType
  split
  · simp only
    split_ifs with hkind
    · exact List.mem_cons_of_mem _ (List.contains_iff_mem.mp hkind)
    · exact List.mem_cons_self
  · exact List.mem_cons_self

/-- The keys of some of the fields that are looked for. -/
theorem keys_filterMap_sublist (value : String → Option Json) (keys : List String) :
    (Fields.keys (keys.filterMap fun key => (value key).map fun v => (key, v))).Sublist keys := by
  induction keys with
  | nil => exact List.Sublist.slnil
  | cons key rest ih =>
    rw [List.filterMap_cons]
    cases value key with
    | none => exact ih.cons key
    | some v => exact ih.cons_cons key

theorem keys_rootProps (type : String) (layout : Fields) : (rootProps type layout).keys.Nodup := by
  unfold rootProps
  split_ifs
  · exact (by decide : List.Nodup _).sublist (keys_filterMap_sublist _ _)
  all_goals simp [Fields.keys]

theorem showable_root (schema : Fields) : (tree schema).Showable where
  registered := by
    have hall : ∀ type ∈ defaultRoot :: layoutTypes, Registry.library.has type = true := by
      decide +kernel
    exact ⟨_, rfl, hall _ (rootType_mem _)⟩
  free heq := by
    have hall : ∀ type ∈ defaultRoot :: layoutTypes, type ≠ "tabs" := by decide
    exact hall _ (rootType_mem _) (Option.some_inj.mp heq)
  props := keys_rootProps _ _
  events := List.nodup_nil

/-- The tree of a wire schema is showable throughout. -/
theorem showable_tree {raw : Json} (hwire : isWire raw = true)
    (hkeyed : raw.Throughout Json.Keyed) :
    ∃ root, normalize raw = .ok root ∧ root.Throughout Node.Showable :=
  throughout_tree (fun component _ => showable_standIn component)
    (fun _ _ children hfields hkind => showable_nodeOf hfields hkind children)
    showable_root hwire hkeyed

/-- A wire schema becomes a tree of registered types, which is rendered without an error
    into any host. -/
theorem normalize_renders (settings : Settings) (hoff : settings.validateChildren = false)
    {raw : Json} (hwire : isWire raw = true) (hkeyed : raw.Throughout Json.Keyed) (w : World)
    (h : HostId) (hh : h < w.store.hosts.length) :
    ∃ root, normalize raw = .ok root ∧ root.Throughout Node.Registered ∧
      ∃ r w' i, (render (libraryContext settings) root (some h)).run w = (r, w') ∧
        r.errors = [] ∧ r.component = some i ∧
        w'.store.mounted h = w.store.mounted h ++ [i] := by
  obtain ⟨root, htree, hshowable⟩ := showable_tree hwire hkeyed
  have hregistered : root.Throughout Node.Registered :=
    hshowable.mono fun _ hnode => hnode.registered
  obtain ⟨r, s', hdoes, R⟩ := renders hoff root (proper_of_showable root hshowable) w.store h hh
  have hrender : Does (render (libraryContext settings) root (some h)) w.store r s' :=
    (does_note _ _).bind (hdoes.bind ((does_note _ _).bind (does_pure _ _)))
  obtain ⟨hanswer, hstore⟩ := hrender w rfl
  obtain ⟨herrors, i, hi⟩ := R.image.errors_eq_nil hregistered
  refine ⟨root, htree, hregistered, r, ((render (libraryContext settings) root (some h)).run w).2,
    i, Prod.ext hanswer rfl, herrors, hi, ?_⟩
  rw [hstore, R.adds.mounted hh, hi, Store.only, if_pos rfl]
  rfl

/-- A layout that is a number, a component that is null, and below a card a list in a
    component's place and a grid with a number as props and a text as events. -/
def malformed : Json :=
  .obj [("schemaVersion", .int 1), ("layout", .int 5),
    ("components", .arr [.null, .obj [("type", .str "card"), ("title", .null),
      ("components", .arr [.arr [], .obj [("type", .str "Grid"), ("props", .int 3),
        ("events", .str "click"), ("components", .bool true)]])]])]

theorem normalize_renders_malformed :
    let root : World := { World.empty with store := (Store.empty.newHost "root").2 }
    ∃ tree, normalize malformed = .ok tree ∧ tree.Throughout Node.Registered ∧
      ∃ r w' i, (render (libraryContext .default) tree (some 0)).run root = (r, w') ∧
        r.errors = [] ∧ r.component = some i ∧ w'.store.mounted 0 = [i] := by
  intro root
  have hkeyed : malformed.Throughout Json.Keyed := by
    simp [malformed, Json.Throughout, Json.ThroughoutFields, Json.ThroughoutItems, Json.Keyed,
      Fields.keys]
  exact normalize_renders .default rfl (by decide) hkeyed root 0 (by decide)

end Wire

end ViewTree
