import ViewTree.Proofs.Render.Image

/-
  ViewTree.Proofs.Render.Trees — whole trees are rendered.

  Where the children of a node go depends on its instance alone: nowhere, into the content
  host, or one into each panel. Looking for panels may refresh the instance once more,
  which leaves it prepared as it was. Children are rendered in order, and those without a
  panel are reported instead.

  By induction on the tree, a pass brings the image of a node into a host
  (`renders`). So the live instances below a root host are the image of the tree
  that was rendered into it (`image_of_render`).
-/

namespace ViewTree.Render

open Live

variable {settings : Settings}

/-! ## Places -/

namespace Prepared

variable {s s₁ : Store} {h : HostId} {node : Node} {c : Capability} {x : Instance}

/-- A prepared instance stays one with a further refresh. -/
theorem again (P : Prepared s h node c x s₁) :
    Prepared s h node c x.counted (done s₁ s.instances.length x) where
  adds := P.adds_behind (.refl s₁) fun _ _ => rfl
  instances := by
    change s₁.instances.set s.instances.length x.counted = _
    rw [P.instances, Store.concat_set]
  shows := P.shows_behind (.refl s₁)
  plain := ⟨P.plain.blueprint, P.plain.attributes, P.plain.outputs, P.plain.content,
    P.plain.panels⟩
  settled := P.settled
  outcome := P.outcome
  content := P.content
  panels_length := P.panels_length
  places_nodup := P.places_nodup
  empty := P.empty

theorem does_panelsOf (P : Prepared s h node c x s₁) :
    ∃ y s₂, Does (panelsOf s.instances.length) s₁ (.ok y.panels) s₂ ∧ Prepared s h node c y s₂ := by
  have hfault := does_ofStore s₁ (·.panelsFault? s.instances.length)
  simp only [Store.panelsFault?_plain P.shows.found P.plain] at hfault
  have hread := does_ofStore s₁ (·.childPanels? s.instances.length)
  simp only [Store.childPanels?_plain P.shows.found P.plain] at hread
  cases htabs : x.isTabs with
  | false =>
    simp only [htabs, Bool.false_eq_true, if_false] at hread
    refine ⟨x, s₁, hfault.bind (hread.bind ?_), P⟩
    rw [P.plain.panels htabs]
    exact does_pure s₁ _
  | true =>
    simp only [htabs, if_true] at hread
    cases hpanels : x.panels with
    | cons p rest =>
      rw [hpanels] at hread
      refine ⟨x, s₁, hfault.bind (hread.bind ?_), P⟩
      rw [hpanels]
      exact does_pure s₁ _
    | nil =>
      rw [hpanels] at hread
      refine ⟨x.counted, _, hfault.bind (hread.bind ((P.does_refresh (.refl s₁)).bind ?_)), P.again⟩
      have hagain := does_ofStore (done s₁ s.instances.length x)
        fun s' => (s'.childPanels? s.instances.length).getD []
      have htabs' : x.counted.isTabs = true := htabs
      simp only [Store.childPanels?_plain P.again.shows.found P.again.plain, htabs', if_true,
        Option.getD_some] at hagain
      exact hagain.bind (does_pure _ _)

end Prepared

/-- The places that an instance of the library has for children. -/
def childPlaces (c : Capability) (x : Instance) : Places :=
  if c.isContainer then
    match x.panels with
    | [] => x.content.elim .nowhere fun g => .together (.host g)
    | panels => .onePerPanel panels
  else .nowhere

theorem Prepared.does_placesOf {s s₁ : Store} {h : HostId} {node : Node} {c : Capability}
    {x : Instance} (P : Prepared s h node c x s₁) (settings : Settings)
    (hc : capabilityOf node = some c) :
    ∃ y s₂, Does (placesOf (libraryContext settings) s.instances.length c.name) s₁
        (.ok (childPlaces c y)) s₂ ∧
      Prepared s h node c y s₂ := by
  obtain ⟨hcatalog, -, -, hget⟩ := capabilityOf_some hc
  have hcapability : (libraryContext settings).registry.capability? c.name = some c := by
    rw [libraryContext, Registry.capability?, hget]
    rfl
  rw [placesOf, hcapability]
  simp only [childPlaces]
  cases hcontainer : c.isContainer with
  | false => exact ⟨x, s₁, does_pure s₁ _, P⟩
  | true =>
    obtain ⟨y, s₂, hpanels, Q⟩ := P.does_panelsOf
    refine ⟨y, s₂, hpanels.bind ?_, Q⟩
    cases hnone : y.panels with
    | cons p rest => exact does_pure s₂ _
    | nil =>
      have hmount := does_ofStore s₂ (·.mount? s.instances.length c.hostProperty)
      have hhost : y.blueprint.host? = some c.hostProperty := by
        rw [Q.shows.blueprint, ofCapability_host? hcatalog, if_pos hcontainer]
      simp only [Store.mount?_plain Q.shows.found Q.plain
        (hostProperty_of_library hcatalog hcontainer), if_pos hhost] at hmount
      refine hmount.bind ?_
      cases y.content <;> exact does_pure s₂ _

/-- The kinds of nodes, with the places for their children. -/
theorem Prepared.childPlaces_cases {s s₁ : Store} {h : HostId} {node : Node} {c : Capability}
    {x : Instance} (P : Prepared s h node c x s₁) :
    (c.isContainer = false ∧ childPlaces c x = .nowhere) ∨
    (∃ g, c.isContainer = true ∧ panelCount c node.props = 0 ∧ x.content = some g ∧
      childPlaces c x = .together (.host g)) ∨
    (0 < panelCount c node.props ∧ childPlaces c x = .onePerPanel x.panels) := by
  have hlength := P.panels_length
  have hcontent := P.content
  unfold childPlaces
  cases hcontainer : c.isContainer with
  | false => exact .inl ⟨rfl, rfl⟩
  | true =>
    cases hpanels : x.panels with
    | cons p rest =>
      rw [hpanels, List.length_cons] at hlength
      exact .inr (.inr ⟨hlength ▸ Nat.succ_pos _, rfl⟩)
    | nil =>
      rw [hpanels, List.length_nil] at hlength
      rw [hcontainer, Option.isSome_iff_exists] at hcontent
      obtain ⟨g, hg⟩ := hcontent
      refine .inr (.inl ⟨g, rfl, hlength.symm, hg, ?_⟩)
      rw [hg]
      rfl

/-! ## Children -/

section Children

variable {s s' : Store} {node : Node} {nodes : List Node}

/-- Without validation no child is refused. -/
theorem does_unlessRefused (hoff : settings.validateChildren = false) {child : Node}
    {run : Act RenderResult} {r : RenderResult} (hrun : Does run s r s') :
    Does (unlessRefused (libraryContext settings) child run) s r s' := by
  have hrefuse : Does (refuse (libraryContext settings) child) s none s := by
    rw [refuse, libraryContext, hoff]
    exact does_pure s none
  exact hrefuse.bind hrun

theorem does_homeless (s : Store) (type : String) (count : Nat) :
    Does (homeless type count) s ("Component '" ++ type ++ "' cannot host children; " ++
      toString count ++ " not rendered") s :=
  (does_note s _).bind (does_pure s _)

theorem does_unplaced (s : Store) (type : String) (index panels : Nat) :
    Does (unplaced type index panels) s
      ("Child " ++ toString index ++ " of '" ++ type ++ "' has no container") s :=
  (does_note s _).bind (does_pure s _)

/-- A node is rendered into any host of any store. -/
def Renders (settings : Settings) (node : Node) : Prop :=
  ∀ (s : Store) (h : HostId), h < s.hosts.length →
    ∃ r s', Does (renderNode (libraryContext settings) (some (.host h)) node) s r s' ∧
      Rendered s h node r s'

/-- Nodes are rendered into one host, one behind the other. -/
def Together (settings : Settings) (nodes : List Node) : Prop :=
  ∀ (s : Store) (g : HostId), g < s.hosts.length →
    ∃ results s', Does (renderTogether (libraryContext settings) (.host g) nodes) s results s' ∧
      RenderedAll s (Store.only g (results.filterMap RenderResult.component)) nodes results s'

/-- Nodes are rendered into panels from a position on, and reported once there are none. -/
def Apart (settings : Settings) (nodes : List Node) : Prop :=
  ∀ (s : Store) (type : String) (panels : List HostId) (index : Nat),
    (∀ p ∈ panels, p < s.hosts.length) →
    ∃ results s', Does (renderApart (libraryContext settings) type panels index nodes) s
        (results, surplusWarnings type (max index panels.length)
          (nodes.length - (panels.length - index))) s' ∧
      RenderedAll s (spread (panels.drop index) results) (nodes.take (panels.length - index))
        results s'

theorem Together.nil : Together settings [] := by
  intro s g _
  refine ⟨[], s, does_pure s _, (RenderedAll.nil s).congr fun g' _ => ?_⟩
  rw [List.filterMap_nil, Store.only]
  split <;> rfl

theorem Together.cons (hoff : settings.validateChildren = false) (hnode : Renders settings node)
    (hrest : Together settings nodes) : Together settings (node :: nodes) := by
  intro s g hg
  obtain ⟨r, s₁, hdoes, R⟩ := hnode s g hg
  obtain ⟨results, s₂, hdoes', A⟩ := hrest s₁ g (Nat.lt_of_lt_of_le hg R.adds.hosts_le)
  refine ⟨r :: results, s₂,
    (does_unlessRefused hoff hdoes).bind (hdoes'.bind (does_pure _ _)), ?_⟩
  have hother (g' : HostId) (hle : s.hosts.length ≤ g') :
      Store.only g (results.filterMap RenderResult.component) g' = [] :=
    if_neg (Nat.ne_of_gt (Nat.lt_of_lt_of_le hg hle))
  refine (RenderedAll.cons R A hother).congr fun g' _ => ?_
  simp only [Store.only, List.filterMap_cons]
  split
  · cases r.component <;> rfl
  · rfl

theorem Apart.nil : Apart settings [] := by
  intro s type panels index _
  refine ⟨[], s, ?_, ?_⟩
  · rw [List.length_nil, Nat.zero_sub]
    exact does_pure s _
  · rw [List.take_nil]
    refine (RenderedAll.nil s).congr fun g _ => ?_
    cases panels.drop index <;> rfl

theorem Apart.cons (hoff : settings.validateChildren = false) (hnode : Renders settings node)
    (hrest : Apart settings nodes) : Apart settings (node :: nodes) := by
  intro s type panels index hpanels
  rw [renderApart]
  rcases Nat.lt_or_ge index panels.length with hlt | hge
  · obtain ⟨p, hp⟩ : ∃ p, panels[index]? = some p := ⟨_, List.getElem?_eq_getElem hlt⟩
    have hmem := List.mem_of_getElem? hp
    obtain ⟨r, s₁, hdoes, R⟩ := hnode s p (hpanels p hmem)
    obtain ⟨results, s₂, hdoes', A⟩ := hrest s₁ type panels (index + 1) fun q hq =>
      Nat.lt_of_lt_of_le (hpanels q hq) R.adds.hosts_le
    have hleft : panels.length - index = (panels.length - (index + 1)) + 1 := by omega
    have hmax : max (index + 1) panels.length = max index panels.length := by omega
    have hdrop : panels.drop index = p :: panels.drop (index + 1) :=
      List.drop_eq_getElem?_toList_append.trans (by rw [hp]; rfl)
    simp only [hp]
    rw [hmax] at hdoes'
    rw [hleft, hdrop, List.length_cons, Nat.add_sub_add_right, List.take_succ_cons]
    refine ⟨r :: results, s₂,
      (does_unlessRefused hoff hdoes).bind (hdoes'.bind (does_pure _ _)),
      RenderedAll.cons R A fun g hle => ?_⟩
    refine spread_of_not_mem results fun hg => ?_
    exact Nat.not_lt.mpr hle (hpanels g (List.mem_of_mem_drop hg))
  · have hnone : panels[index]? = none := List.getElem?_eq_none hge
    obtain ⟨results, s₁, hdoes, A⟩ := hrest s type panels (index + 1) hpanels
    have hleft : panels.length - index = 0 := Nat.sub_eq_zero_of_le hge
    have hleft' : panels.length - (index + 1) = 0 := Nat.sub_eq_zero_of_le (Nat.le_succ_of_le hge)
    have hmax : max index panels.length = index := Nat.max_eq_left hge
    have hmax' : max (index + 1) panels.length = index + 1 :=
      Nat.max_eq_left (Nat.le_succ_of_le hge)
    rw [hleft', hmax'] at hdoes
    rw [hleft', List.take_zero, List.drop_eq_nil_of_le (Nat.le_succ_of_le hge)] at A
    simp only [hnone]
    rw [hleft, hmax, List.take_zero, List.drop_eq_nil_of_le hge]
    exact ⟨results, s₁, (does_unplaced s type index _).bind (hdoes.bind (does_pure _ _)), A⟩

end Children

/-! ## Trees -/

/-- A node without children has nothing to place. -/
theorem Prepared.rendered_childless {s s₁ : Store} {h : HostId} {node : Node} {c : Capability}
    {x : Instance} (P : Prepared s h node c x s₁) (hc : capabilityOf node = some c)
    (hnone : node.children = []) :
    Rendered s h node ⟨some s.instances.length, some node, none, [], eventWarnings c node⟩
      (done s₁ s.instances.length x) := by
  have A : RenderedAll s₁ (fun _ => []) node.children [] s₁ := hnone ▸ .nil s₁
  rcases P.childPlaces_cases with
    ⟨hleaf, -⟩ | ⟨g, hcontainer, hcount, hcontent, -⟩ | ⟨hcount, -⟩
  · have R := P.rendered_leaf hc hleaf
    rwa [homelessWarnings, hnone, List.isEmpty_nil, if_pos rfl, List.append_nil] at R
  · refine P.rendered_together hc hcontainer hcount hcontent (A.congr fun g' _ => ?_)
    rw [List.filterMap_nil, Store.only]
    split <;> rfl
  · have A' : RenderedAll s₁ (spread x.panels []) (node.children.take (panelCount c node.props))
        [] s₁ := by
      rw [hnone] at A ⊢
      rw [List.take_nil]
      refine A.congr fun g _ => ?_
      cases x.panels <;> rfl
    have R := P.rendered_apart hc hcount A'
    rwa [hnone, List.length_nil, Nat.zero_sub, surplusWarnings, List.append_nil] at R

/-- A node is rendered if its children are. -/
theorem renders_node {node : Node} (hnode : Proper node)
    (htogether : Together settings node.children) (hapart : Apart settings node.children) :
    Renders settings node := by
  intro s h hh
  obtain ⟨id, type, props, children, events, extras, source⟩ := node
  rw [Proper] at hnode
  obtain ⟨hprops, hevents, htabs, -⟩ := hnode
  let node : Node := ⟨id, type, props, children, events, extras, source⟩
  rw [renderNode]
  cases hc : capabilityOf node with
  | none =>
    refine ⟨_, s, ?_, rendered_absent s h hc⟩
    exact (does_instantiate_absent settings s h hc).bind ((does_note s _).bind (does_pure s _))
  | some c =>
    obtain ⟨hcatalog, htype, -, -⟩ := capabilityOf_some hc
    have hlisted (hname : c.name = "tabs") : TabsListed props :=
      htabs (htype.trans (congrArg some hname))
    obtain ⟨x, s₁, hprepare, P⟩ :=
      does_prepare node hh hcatalog htype hprops hevents hlisted
    obtain rfl : type = some c.name := htype
    have hinstantiate := does_instantiate settings s h hc
    -- places are looked for only where there are children
    cases children with
    | nil =>
      have hfinish := P.does_finish (.refl s₁) [] (eventWarnings c node)
      exact ⟨_, _, hinstantiate.bind (hprepare.bind hfinish), P.rendered_childless hc rfl⟩
    | cons child rest =>
      obtain ⟨y, s₂, hplaces, Q⟩ := P.does_placesOf settings hc
      rcases Q.childPlaces_cases with
        ⟨hleaf, hwhere⟩ | ⟨g, hcontainer, hcount, hcontent, hwhere⟩ | ⟨hcount, hwhere⟩
      · rw [hwhere] at hplaces
        have hfinish := Q.does_finish (.refl s₂) []
          (eventWarnings c node ++ homelessWarnings c node)
        refine ⟨_, _, ?_, Q.rendered_leaf hc hleaf⟩
        exact hinstantiate.bind (hprepare.bind
          (hplaces.bind ((does_homeless s₂ c.name _).bind hfinish)))
      · rw [hwhere] at hplaces
        have hplace : g ∈ y.places := List.mem_append_left _ (Option.mem_toList.mpr hcontent)
        obtain ⟨results, s₃, hdoes, A⟩ := htogether s₂ g (Q.le_of_place hplace).2
        have hfinish := Q.does_finish A.adds results (eventWarnings c node)
        refine ⟨_, _, ?_, Q.rendered_together hc hcontainer hcount hcontent A⟩
        exact hinstantiate.bind (hprepare.bind (hplaces.bind (hdoes.bind hfinish)))
      · rw [hwhere] at hplaces
        obtain ⟨results, s₃, hdoes, A⟩ := hapart s₂ c.name y.panels 0 fun p hp =>
          (Q.le_of_place (List.mem_append_right _ hp)).2
        rw [Nat.zero_max, Nat.sub_zero, Q.panels_length] at hdoes
        rw [List.drop_zero, Nat.sub_zero, Q.panels_length] at A
        have hfinish := Q.does_finish A.adds results (eventWarnings c node ++
          surplusWarnings c.name (panelCount c node.props)
            ((child :: rest).length - panelCount c node.props))
        refine ⟨_, _, ?_, Q.rendered_apart hc hcount A⟩
        exact hinstantiate.bind (hprepare.bind (hplaces.bind (hdoes.bind hfinish)))

mutual
/-- Every tree in order is rendered. -/
theorem renders (hoff : settings.validateChildren = false) :
    ∀ node : Node, Proper node → Renders settings node
  | ⟨id, type, props, children, events, extras, source⟩, hnode => by
    have hchildren : ProperAll children := by
      rw [Proper] at hnode
      exact hnode.2.2.2
    obtain ⟨htogether, hapart⟩ := renders_all hoff children hchildren
    exact renders_node hnode htogether hapart

theorem renders_all (hoff : settings.validateChildren = false) :
    ∀ nodes : List Node, ProperAll nodes → Together settings nodes ∧ Apart settings nodes
  | [], _ => ⟨.nil, .nil⟩
  | node :: nodes, hnodes => by
    rw [ProperAll] at hnodes
    have hnode := renders hoff node hnodes.1
    obtain ⟨htogether, hapart⟩ := renders_all hoff nodes hnodes.2
    exact ⟨.cons hoff hnode htogether, .cons hoff hnode hapart⟩
end

/-- A tree that is rendered into an empty host: the instances of the pass are those of its
    image, which is all that the host holds, and nothing else has changed. -/
theorem image_of_render (settings : Settings) (hoff : settings.validateChildren = false) (w : World)
    (node : Node) (hnode : Proper node) (h : HostId) (hh : h < w.store.hosts.length)
    (hempty : w.store.mounted h = []) :
    ∃ r w', (render (libraryContext settings) node (some h)).run w = (r, w') ∧
      Image w'.store node r ∧
      w'.store.mounted h = r.component.toList ∧
      r.components = List.range' w.store.instances.length
        (w'.store.instances.length - w.store.instances.length) ∧
      w.store.instances <+: w'.store.instances ∧
      ∀ g < w.store.hosts.length, g ≠ h → w'.store.mounted g = w.store.mounted g := by
  obtain ⟨r, s', hdoes, R⟩ := renders hoff node hnode w.store h hh
  have hrender : Does (render (libraryContext settings) node (some h)) w.store r s' :=
    (does_note _ _).bind (hdoes.bind ((does_note _ _).bind (does_pure _ _)))
  obtain ⟨hanswer, hstore⟩ := hrender w rfl
  refine ⟨r, ((render (libraryContext settings) node (some h)).run w).2, Prod.ext hanswer rfl, ?_⟩
  rw [hstore]
  refine ⟨R.image, ?_, R.components, R.adds.instances, fun g hg hne => ?_⟩
  · rw [R.adds.mounted hh, hempty, Store.only, if_pos rfl, List.nil_append]
  · rw [R.adds.mounted hg, Store.only, if_neg hne, List.append_nil]

/-- A card with tabs for one panel, of whose two children the second one has no place, and
    a child of no known type. -/
def crowdedCard : Node :=
  let handler : Handler := { serial := 0, name := "pressed", typeName := "Handler",
                             callable := true, next := false, emit := false, fails := false }
  let button : Node := { (default : Node) with
    type := some "button"
    props := [("label", .str "Go")]
    events := [("click", .handler handler), ("vanish", .handler handler)] }
  let tabs : Node := { (default : Node) with
    type := some "tabs"
    props := [("tabs", .arr [.str "One"])]
    children := [button, { (default : Node) with type := some "divider" }] }
  { (default : Node) with
    type := some "card"
    children := [tabs, { (default : Node) with type := some "nothing" }] }

/-- The card, the tabs and the button are new; the divider and what has no type are not. -/
theorem image_of_render_crowdedCard :
    let root : World := { World.empty with store := (Store.empty.newHost "root").2 }
    ∃ r w', (render (libraryContext .default) crowdedCard (some 0)).run root = (r, w') ∧
      Image w'.store crowdedCard r ∧ w'.store.mounted 0 = [0] ∧ r.components = [0, 1, 2] := by
  intro root
  have hproper : Proper crowdedCard := by
    have hlisted : TabsListed [("tabs", .arr [.str "One"])] := by
      rintro v hv
      cases hv
      exact .inr ⟨_, rfl⟩
    simp [crowdedCard, Proper, ProperAll, default, hlisted, Fields.keys]
  obtain ⟨r, w', hrun, himage, hmounted, hcomponents, -⟩ :=
    image_of_render .default rfl root crowdedCard hproper 0 (by decide) rfl
  have hcomponent : ((render (libraryContext .default) crowdedCard (some 0)).run root).1.component =
      some 0 := by
    decide +kernel
  have hcount : ((render (libraryContext .default) crowdedCard (some 0)).run
      root).2.store.instances.length = 3 := by
    decide +kernel
  rw [hrun] at hcomponent hcount
  rw [hcomponent] at hmounted
  rw [hcount] at hcomponents
  exact ⟨r, w', hrun, himage, hmounted, hcomponents⟩

end ViewTree.Render
