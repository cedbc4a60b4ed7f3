import ViewTree.Proofs.Render.Prepare

/-
  ViewTree.Proofs.Render.Image — what is shown is the image of the tree.

  A result is the image of a node in a store (`Image`) when it fails exactly where the
  node has no component of the library, and otherwise names an instance that shows the
  node, with images of the children in its content host or, for tabs with panels, one in
  each panel. Rendering a tree into a host brings its image into the store, with one new
  instance for each node that has a component and for nothing else, and with nothing
  changed that was there before (`Rendered`).

  The proof follows the tree. The children of a node are rendered one after the other
  into hosts that are new, so a later child leaves the images of the earlier ones alone
  (`Image.agree`), and so does the last refresh of the node itself.
-/

namespace ViewTree

open Live

mutual
/-- The instances of a result and of everything below it, depth first. -/
def RenderResult.components : RenderResult → List InstanceId
  | ⟨component, _, _, children, _⟩ => component.toList ++ componentsOf children

def RenderResult.componentsOf : List RenderResult → List InstanceId
  | [] => []
  | r :: rest => components r ++ componentsOf rest
end

namespace Render

/-! ## Trees in order -/

mutual
/-- Props and events have different keys, and tabs list their tabs or say nothing of them. -/
def Proper : Node → Prop
  | ⟨_, type, props, children, events, _, _⟩ =>
    props.keys.Nodup ∧ events.keys.Nodup ∧ (type = some "tabs" → TabsListed props) ∧
      ProperAll children

def ProperAll : List Node → Prop
  | [] => True
  | node :: rest => Proper node ∧ ProperAll rest
end

/-! ## Images -/

/-- The component of the library that a node names. -/
def capabilityOf (node : Node) : Option Capability :=
  (node.type.filter (· ≠ "")).bind Registry.library.capability?

/-- Why a node that names no component has no instance. -/
def absence (node : Node) : RenderFault :=
  match node.type.filter (· ≠ "") with
  | none => .noType
  | some type => .unregistered type

def eventWarnings (c : Capability) (node : Node) : List String :=
  node.events.filterMap (eventWarning c.name c.outputs)

/-- One warning for all children of a node that takes none. -/
def homelessWarnings (c : Capability) (node : Node) : List String :=
  if node.children.isEmpty then []
  else ["Component '" ++ c.name ++ "' cannot host children; " ++ toString node.children.length ++
    " not rendered"]

/-- One warning for each child at or beyond the number of panels. -/
def surplusWarnings (type : String) (index : Nat) : Nat → List String
  | 0 => []
  | count + 1 =>
    ("Child " ++ toString index ++ " of '" ++ type ++ "' has no container") ::
      surplusWarnings type (index + 1) count

mutual
/-- A result is the image of a node in a store. -/
inductive Image (s : Store) : Node → RenderResult → Prop where
  | failed {node : Node} : capabilityOf node = none →
    Image s node (.failed (some node) (absence node).message)
  | leaf {node : Node} {c : Capability} {i : InstanceId} {x : Instance} :
    capabilityOf node = some c → Shows s node c i x → c.isContainer = false →
    Image s node ⟨some i, some node, none, [], eventWarnings c node ++ homelessWarnings c node⟩
  | together {node : Node} {c : Capability} {i : InstanceId} {x : Instance} {g : HostId}
      {results : List RenderResult} :
    capabilityOf node = some c → Shows s node c i x → c.isContainer = true →
    panelCount c node.props = 0 → x.panels = [] → x.content = some g →
    ImageAll s node.children results → s.mounted g = results.filterMap RenderResult.component →
    Image s node ⟨some i, some node, none, results, eventWarnings c node⟩
  | apart {node : Node} {c : Capability} {i : InstanceId} {x : Instance}
      {results : List RenderResult} :
    capabilityOf node = some c → Shows s node c i x → 0 < panelCount c node.props →
    x.panels.length = panelCount c node.props →
    ImageAll s (node.children.take (panelCount c node.props)) results →
    (∀ (k : Nat) (g : HostId), x.panels[k]? = some g →
      s.mounted g = ((results[k]?).bind RenderResult.component).toList) →
    (∀ g, x.content = some g → s.mounted g = []) →
    Image s node ⟨some i, some node, none, results, eventWarnings c node ++
      surplusWarnings c.name (panelCount c node.props)
        (node.children.length - panelCount c node.props)⟩

/-- Results are the images of nodes, in order. -/
inductive ImageAll (s : Store) : List Node → List RenderResult → Prop where
  | nil : ImageAll s [] []
  | cons {node : Node} {r : RenderResult} {nodes : List Node} {results : List RenderResult} :
    Image s node r → ImageAll s nodes results → ImageAll s (node :: nodes) (r :: results)
end

/-! ## Stores that agree -/

section Agreement

variable {s s' : Store} {P : InstanceId → Prop} {node : Node} {c : Capability} {i : InstanceId}
variable {x : Instance}

theorem Subscribed.agree {event : String} {callback : Callback} (h : Subscribed s x event callback)
    (hx : s.instances[i]? = some x) (hi : P i) (a : Store.Agree P s s') :
    Subscribed s' x event callback := by
  obtain ⟨e, id, hemitter, hlisteners, hsub, hcount⟩ := h
  refine ⟨e, id, hemitter, ?_, a.subscriptions hsub, hcount⟩
  have hmem := Store.mem_emittersOf hx (Instance.mem_outputs_of_emitter? hemitter)
  rw [a.listeners hi hmem, hlisteners]

theorem Shows.agree (h : Shows s node c i x) (hi : P i) (a : Store.Agree P s s') :
    Shows s' node c i x where
  found := a.instances hi h.found
  blueprint := h.blueprint
  inputs := h.inputs
  alive := h.alive
  events hentry hwarning := by
    obtain ⟨callback, hcallback, hsubscribed⟩ := h.events hentry hwarning
    exact ⟨callback, hcallback, hsubscribed.agree h.found hi a⟩
  kept := h.kept
  silent ho hlistening := by
    rw [a.listeners hi (Store.mem_emittersOf h.found ho)] at hlistening
    exact h.silent ho hlistening

mutual
/-- An image stays one where the instances of the result are left alone. -/
theorem Image.agree {node : Node} {r : RenderResult} (h : Image s node r)
    (hP : ∀ i ∈ r.components, P i) (a : Store.Agree P s s') : Image s' node r := by
  cases h with
  | failed hc => exact .failed hc
  | @leaf _ c i x hc hshows hleaf =>
    exact .leaf hc (hshows.agree (hP i List.mem_cons_self) a) hleaf
  | @together _ c i x g results hc hshows hcontainer hcount hpanels hcontent hchildren hmounted =>
    have hi := hP i List.mem_cons_self
    have hchildren' := hchildren.agree (fun j hj => hP j (List.mem_cons_of_mem _ hj)) a
    refine .together hc (hshows.agree hi a) hcontainer hcount hpanels hcontent hchildren' ?_
    rw [a.mounted hi, hmounted]
    rw [Store.offered_some hshows.found]
    exact List.mem_append_left _ (Option.mem_toList.mpr hcontent)
  | @apart _ c i x results hc hshows hcount hpanels hchildren hmounted hunused =>
    have hi := hP i List.mem_cons_self
    have hchildren' := hchildren.agree (fun j hj => hP j (List.mem_cons_of_mem _ hj)) a
    have hsame {g : HostId} (hg : g ∈ x.places) : s'.mounted g = s.mounted g :=
      a.mounted hi (Store.offered_some hshows.found ▸ hg)
    refine .apart hc (hshows.agree hi a) hcount hpanels hchildren' (fun k g hg => ?_) fun g hg => ?_
    · rw [hsame (List.mem_append_right _ (List.mem_of_getElem? hg)), hmounted k g hg]
    · rw [hsame (List.mem_append_left _ (Option.mem_toList.mpr hg)), hunused g hg]

theorem ImageAll.agree {nodes : List Node} {results : List RenderResult}
    (h : ImageAll s nodes results) (hP : ∀ i ∈ RenderResult.componentsOf results, P i)
    (a : Store.Agree P s s') : ImageAll s' nodes results := by
  cases h with
  | nil => exact .nil
  | cons himage hrest =>
    exact .cons (himage.agree (fun i hi => hP i (List.mem_append_left _ hi)) a)
      (hrest.agree (fun i hi => hP i (List.mem_append_right _ hi)) a)
end

end Agreement

/-! ## One node -/

/-- A tree was rendered into a host: its image is in the store, its instance behind those
    that the host held, and there is one new instance for each component of the image. -/
structure Rendered (s : Store) (h : HostId) (node : Node) (r : RenderResult) (s' : Store) :
    Prop where
  image : Image s' node r
  adds : s.Adds (Store.only h r.component.toList) s'
  components : r.components =
    List.range' s.instances.length (s'.instances.length - s.instances.length)

/-- Numbers in a row, and those behind them. -/
theorem range'_append_range' {a b c : Nat} (hab : a ≤ b) (hbc : b ≤ c) :
    List.range' a (b - a) ++ List.range' b (c - b) = List.range' a (c - a) := by
  have hb : b = a + (b - a) := by omega
  have hc : c - a = (b - a) + (c - b) := by omega
  rw [hc, ← List.range'_append_1, ← hb]

/-- Trees were rendered one after the other: their images are in the store, and there is
    one new instance for each component of them. -/
structure RenderedAll (s : Store) (into : HostId → List InstanceId) (nodes : List Node)
    (results : List RenderResult) (s' : Store) : Prop where
  images : ImageAll s' nodes results
  adds : s.Adds into s'
  components : RenderResult.componentsOf results =
    List.range' s.instances.length (s'.instances.length - s.instances.length)

theorem RenderedAll.nil (s : Store) : RenderedAll s (fun _ => []) [] [] s where
  images := .nil
  adds := .refl s
  components := by
    rw [Nat.sub_self]
    rfl

theorem RenderedAll.congr {s s' : Store} {into into' : HostId → List InstanceId}
    {nodes : List Node} {results : List RenderResult} (A : RenderedAll s into nodes results s')
    (hinto : ∀ g < s.hosts.length, into' g = into g) : RenderedAll s into' nodes results s' :=
  { A with adds := A.adds.congr hinto }

/-- A tree and those behind it, which go into hosts that were there before it. -/
theorem RenderedAll.cons {s s₁ s₂ : Store} {h : HostId} {node : Node} {r : RenderResult}
    {into : HostId → List InstanceId} {nodes : List Node} {results : List RenderResult}
    (R : Rendered s h node r s₁) (A : RenderedAll s₁ into nodes results s₂)
    (hinto : ∀ g, s.hosts.length ≤ g → into g = []) :
    RenderedAll s (fun g => Store.only h r.component.toList g ++ into g) (node :: nodes)
      (r :: results) s₂ where
  images := by
    refine .cons (R.image.agree (fun i hi => ?_) (R.adds.agree A.adds hinto)) A.images
    rw [R.components, List.mem_range'_1,
      Nat.add_sub_of_le R.adds.instances.length_le] at hi
    exact hi
  adds := R.adds.trans A.adds
  components := by
    rw [RenderResult.componentsOf, R.components, A.components]
    exact range'_append_range' R.adds.instances.length_le A.adds.instances.length_le

section Node

variable {settings : Settings} {s : Store} {h : HostId} {node : Node} {c : Capability}

theorem does_instantiate_absent (settings : Settings) (s : Store) (h : HostId)
    (hc : capabilityOf node = none) :
    Does (instantiate (libraryContext settings) node (some (.host h))) s
      (.error (absence node)) s := by
  rw [instantiate, absence]
  cases htype : node.type.filter (· ≠ "") with
  | none => exact does_pure s _
  | some type =>
    have hget : Registry.library.get? type = none := by
      rw [capabilityOf, htype, Option.bind_some, Registry.capability?, Option.map_eq_none_iff] at hc
      exact hc
    simp only [libraryContext, hget]
    exact does_pure s _

/-- A node without a component brings nothing. -/
theorem rendered_absent (s : Store) (h : HostId) (hc : capabilityOf node = none) :
    Rendered s h node (.failed (some node) (absence node).message) s where
  image := .failed hc
  adds := (Store.Adds.refl s).congr fun g _ => by
    rw [RenderResult.failed, Store.only]
    split <;> rfl
  components := by
    rw [Nat.sub_self]
    rfl

theorem capabilityOf_some (hc : capabilityOf node = some c) :
    c ∈ Catalog.all ∧ node.type = some c.name ∧ node.type.filter (· ≠ "") = some c.name ∧
      Registry.library.get? c.name = some (Registry.libraryEntry c) := by
  obtain ⟨type, htype, hfound⟩ := Option.bind_eq_some_iff.mp hc
  obtain ⟨entry, hentry, rfl⟩ := Option.map_eq_some_iff.mp hfound
  obtain ⟨c', hc', rfl, rfl⟩ := Registry.library_get? hentry
  exact ⟨hc', (Option.filter_eq_some_iff.mp htype).1, htype, hentry⟩

theorem does_instantiate (settings : Settings) (s : Store) (h : HostId)
    (hc : capabilityOf node = some c) :
    Does (instantiate (libraryContext settings) node (some (.host h))) s
      (.ok s.instances.length) (s.created h (.ofCapability c)) := by
  obtain ⟨hcatalog, -, htype, hget⟩ := capabilityOf_some hc
  rw [instantiate, htype]
  simp only [libraryContext, hget]
  exact (does_checkVersion _ node s).bind
    ((does_createIn s h (ofCapability_plain c hcatalog)).bind (does_pure _ _))

namespace Prepared

variable {x : Instance} {s₁ s₂ : Store} {into : HostId → List InstanceId}

/-- The store behind the last refresh of a node's instance. -/
def done (s₂ : Store) (i : InstanceId) (x : Instance) : Store :=
  { s₂ with instances := s₂.instances.set i x.counted }

theorem length_eq (P : Prepared s h node c x s₁) :
    s₁.instances.length = s.instances.length + 1 := by
  rw [P.instances, List.length_append, List.length_singleton]

theorem found_behind (P : Prepared s h node c x s₁) (a : s₁.Adds into s₂) :
    s₂.instances[s.instances.length]? = some x :=
  Store.getElem?_front_some a.instances P.shows.found

theorem does_refresh (P : Prepared s h node c x s₁) (a : s₁.Adds into s₂) :
    Does (Act.refresh s.instances.length) s₂ (.ok ()) (done s₂ s.instances.length x) := by
  have hrefresh := Render.does_refresh (P.found_behind a) P.plain P.shows.alive
  rw [P.outcome, Store.refreshed, Instance.refreshed_settled P.settled, P.settled,
    List.append_nil] at hrefresh
  exact hrefresh

theorem does_finish (P : Prepared s h node c x s₁) (a : s₁.Adds into s₂)
    (results : List RenderResult) (warnings : List String) :
    Does (finish node s.instances.length results warnings) s₂
      ⟨some s.instances.length, some node, none, results, warnings⟩
      (done s₂ s.instances.length x) :=
  (P.does_refresh a).bind (does_pure _ _)

/-- What was added below the instance is added to the store it was created in, and so is
    the instance. -/
theorem adds_behind (P : Prepared s h node c x s₁) (a : s₁.Adds into s₂)
    (hinto : ∀ g < s.hosts.length, into g = []) :
    s.Adds (Store.only h [s.instances.length]) (done s₂ s.instances.length x) := by
  have hboth := (P.adds.trans a).set (Nat.le_refl _) (P.found_behind a) (y := x.counted) rfl rfl
  refine hboth.congr fun g hg => ?_
  rw [hinto g hg, List.append_nil]

/-- Nothing that is added later listens to the outputs of the instance. -/
theorem listeners_behind (P : Prepared s h node c x s₁) (a : s₁.Adds into s₂)
    {o : String × EmitterId} (ho : o ∈ x.outputs) :
    (done s₂ s.instances.length x).listeners o.2 = s₁.listeners o.2 := by
  have hlt := P.adds.emittersOf (Nat.le_refl _) (Store.mem_emittersOf P.shows.found ho)
  rw [Store.listeners, Store.listeners]
  change ((s₂.emitters[o.2]?).map _).getD [] = _
  rw [Store.getElem?_front a.emitters hlt]

theorem shows_behind (P : Prepared s h node c x s₁) (a : s₁.Adds into s₂) :
    Shows (done s₂ s.instances.length x) node c s.instances.length x.counted where
  found := List.getElem?_set_self (List.getElem?_eq_some_iff.mp (P.found_behind a)).1
  blueprint := P.shows.blueprint
  inputs := P.shows.inputs
  alive := P.shows.alive
  events hentry hwarning := by
    obtain ⟨callback, hcallback, e, id, hemitter, hlisteners, hsub, hcount⟩ :=
      P.shows.events hentry hwarning
    refine ⟨callback, hcallback, e, id, hemitter, ?_,
      Store.getElem?_front_some a.subscriptions hsub, hcount⟩
    exact (P.listeners_behind a (Instance.mem_outputs_of_emitter? hemitter)).trans hlisteners
  kept := P.shows.kept
  silent ho hlistening := P.shows.silent ho (P.listeners_behind a ho ▸ hlistening)

/-- The instance of a node comes before those of its children. -/
theorem components_behind (P : Prepared s h node c x s₁) {nodes : List Node}
    {results : List RenderResult} (A : RenderedAll s₁ into nodes results s₂) :
    s.instances.length :: RenderResult.componentsOf results =
      List.range' s.instances.length
        ((done s₂ s.instances.length x).instances.length - s.instances.length) := by
  have hle := A.adds.instances.length_le
  have hlength : (done s₂ s.instances.length x).instances.length = s₂.instances.length :=
    List.length_set
  rw [A.components, hlength, P.length_eq] at *
  have hsucc : s₂.instances.length - s.instances.length =
      (s₂.instances.length - (s.instances.length + 1)) + 1 := by omega
  rw [hsucc, List.range'_succ]

/-- The last refresh of a node leaves the images of its children alone. -/
theorem images_behind (P : Prepared s h node c x s₁) {nodes : List Node}
    {results : List RenderResult} (A : RenderedAll s₁ into nodes results s₂) :
    ImageAll (done s₂ s.instances.length x) nodes results := by
  refine A.images.agree (fun j hj => ?_) (Store.Agree.set s₂ s.instances.length x.counted)
  rw [A.components, P.length_eq] at hj
  exact Nat.ne_of_gt (List.mem_range'_1.mp hj).1

/-- What an instance offers is new. -/
theorem le_of_place (P : Prepared s h node c x s₁) {g : HostId} (hg : g ∈ x.places) :
    s.hosts.length ≤ g ∧ g < s₁.hosts.length :=
  P.adds.offered (Nat.le_refl _) (Store.offered_some P.shows.found ▸ hg)

/-! ### The three kinds of nodes -/

theorem rendered_leaf (P : Prepared s h node c x s₁) (hc : capabilityOf node = some c)
    (hleaf : c.isContainer = false) :
    Rendered s h node ⟨some s.instances.length, some node, none, [],
      eventWarnings c node ++ homelessWarnings c node⟩ (done s₁ s.instances.length x) where
  image := .leaf hc (P.shows_behind (.refl s₁)) hleaf
  adds := P.adds_behind (.refl s₁) fun _ _ => rfl
  components := P.components_behind (.nil s₁)

theorem rendered_together (P : Prepared s h node c x s₁) (hc : capabilityOf node = some c)
    (hcontainer : c.isContainer = true) (hcount : panelCount c node.props = 0) {g : HostId}
    (hcontent : x.content = some g) {results : List RenderResult}
    (A : RenderedAll s₁ (Store.only g (results.filterMap RenderResult.component)) node.children
      results s₂) :
    Rendered s h node ⟨some s.instances.length, some node, none, results, eventWarnings c node⟩
      (done s₂ s.instances.length x) := by
  have hplace : g ∈ x.places := List.mem_append_left _ (Option.mem_toList.mpr hcontent)
  obtain ⟨hnew, hlt⟩ := P.le_of_place hplace
  have hpanels : x.panels = [] := List.eq_nil_of_length_eq_zero (P.panels_length.trans hcount)
  refine ⟨?_, P.adds_behind A.adds fun g' hg' => ?_, P.components_behind A⟩
  · refine .together hc (P.shows_behind A.adds) hcontainer hcount hpanels hcontent
      (P.images_behind A) ?_
    refine (A.adds.mounted hlt).trans ?_
    rw [P.empty hplace, Store.only, if_pos rfl, List.nil_append]
  · exact if_neg (Nat.ne_of_lt (Nat.lt_of_lt_of_le hg' hnew))

end Prepared

end Node

/-! ## Children in panels -/

/-- The instances of results, each in the panel of its position. -/
def spread : List HostId → List RenderResult → HostId → List InstanceId
  | p :: panels, r :: results, g =>
    Store.only p r.component.toList g ++ spread panels results g
  | _, _, _ => []

theorem spread_of_not_mem {panels : List HostId} (results : List RenderResult) {g : HostId}
    (h : g ∉ panels) : spread panels results g = [] := by
  induction panels generalizing results with
  | nil => rfl
  | cons p panels ih =>
    rw [List.mem_cons, not_or] at h
    cases results with
    | nil => rfl
    | cons r results =>
      rw [spread, Store.only, if_neg h.1, ih results h.2]
      rfl

/-- Panels that are different hold one instance each. -/
theorem spread_panel {panels : List HostId} (hnodup : panels.Nodup) (results : List RenderResult)
    {k : Nat} {g : HostId} (hg : panels[k]? = some g) :
    spread panels results g = ((results[k]?).bind RenderResult.component).toList := by
  induction panels generalizing results k with
  | nil => cases hg
  | cons p panels ih =>
    obtain ⟨hnew, hnodup⟩ := List.nodup_cons.mp hnodup
    cases results with
    | nil => rfl
    | cons r results =>
      cases k with
      | zero =>
        obtain rfl := Option.some.inj hg
        rw [spread, Store.only, if_pos rfl, spread_of_not_mem results hnew, List.append_nil]
        rfl
      | succ k =>
        have hne : g ≠ p := fun heq => hnew (heq ▸ List.mem_of_getElem? hg)
        rw [spread, Store.only, if_neg hne, ih hnodup results hg]
        rfl

theorem Prepared.rendered_apart {s s₁ s₂ : Store} {h : HostId} {node : Node} {c : Capability}
    {x : Instance} (P : Prepared s h node c x s₁) (hc : capabilityOf node = some c)
    (hcount : 0 < panelCount c node.props) {results : List RenderResult}
    (A : RenderedAll s₁ (spread x.panels results)
      (node.children.take (panelCount c node.props)) results s₂) :
    Rendered s h node ⟨some s.instances.length, some node, none, results, eventWarnings c node ++
      surplusWarnings c.name (panelCount c node.props)
        (node.children.length - panelCount c node.props)⟩ (done s₂ s.instances.length x) := by
  have hplace {g : HostId} (hg : g ∈ x.panels) : g ∈ x.places := List.mem_append_right _ hg
  obtain ⟨-, hpanels, hapart⟩ := List.nodup_append.mp P.places_nodup
  have hmounted {g : HostId} (hg : g ∈ x.places) :
      (done s₂ s.instances.length x).mounted g = spread x.panels results g := by
    refine (A.adds.mounted (P.le_of_place hg).2).trans ?_
    rw [P.empty hg, List.nil_append]
  refine ⟨?_, P.adds_behind A.adds fun g' hg' => ?_, P.components_behind A⟩
  · refine .apart hc (P.shows_behind A.adds) hcount P.panels_length (P.images_behind A)
      (fun k g hg => ?_) fun g hg => ?_
    · rw [hmounted (hplace (List.mem_of_getElem? hg))]
      exact spread_panel hpanels results hg
    · have hmem : g ∈ x.content.toList := Option.mem_toList.mpr hg
      rw [hmounted (List.mem_append_left _ hmem)]
      exact spread_of_not_mem results fun hpanel => hapart g hmem g hpanel rfl
  · refine spread_of_not_mem results fun hmem => ?_
    exact absurd hg' (Nat.not_lt.mpr (P.le_of_place (hplace hmem)).1)

end Render

end ViewTree
