import ViewTree.Proofs.Render.Handlers

/-
  ViewTree.Proofs.Render.Prepare — what an instance has before its children are rendered.

  An instance is created, given its props, wired to its handlers and refreshed for the
  first time. Each stage is an instance behind all that there were, so in the end the
  store has one instance more, in its host, which shows its node (`Shows`) and has its
  mount points, new and empty. The panels of tabs are as many as their props list, so that
  a further refresh brings nothing (`Prepared`).
-/

namespace ViewTree.Render

open Live

/-! ## Tabs -/

/-- The entries of a tab list. -/
def tabEntries (props : Fields) : List Json :=
  match props.get? "tabs" with
  | some (.arr entries) => entries
  | _ => []

/-- The tab list is a list, null or absent. -/
def TabsListed (props : Fields) : Prop :=
  ∀ v, props.get? "tabs" = some v → v = .null ∨ ∃ entries, v = .arr entries

/-- How many panels an instance of the library has for its props. -/
def panelCount (c : Capability) (props : Fields) : Nat :=
  if c.name = "tabs" then (tabEntries props).length else 0

theorem tabCount_listed {x : Instance} (h : x.Plain) (hlisted : TabsListed x.inputs) :
    Store.tabCount x = .ok (tabEntries x.inputs).length := by
  rw [Store.tabCount, h.hidden? (by decide), tabEntries]
  cases hfound : x.inputs.get? "tabs" with
  | none => rfl
  | some v =>
    rcases hlisted v hfound with rfl | ⟨entries, rfl⟩
    · rfl
    · cases entries <;> rfl

section Kinds

variable {c : Capability} {x : Instance}

theorem isTabs_iff (hx : x.blueprint = .ofCapability c) : x.isTabs = true ↔ c.name = "tabs" := by
  rw [Instance.isTabs, hx, Blueprint.ofCapability]
  split_ifs with htabs hcontainer
  · exact ⟨fun _ => htabs, fun _ => rfl⟩
  · exact ⟨fun h => absurd h Bool.false_ne_true, fun h => absurd h htabs⟩
  · exact ⟨fun h => absurd h Bool.false_ne_true, fun h => absurd h htabs⟩

/-- With a tab list in order, a refresh brings the panels that are missing and succeeds. -/
theorem newPanels_listed (hx : x.blueprint = .ofCapability c) (h : x.Plain)
    (hlisted : c.name = "tabs" → TabsListed x.inputs) :
    x.newPanels = panelCount c x.inputs - x.panels.length ∧ x.refreshOutcome = .ok () := by
  rw [Instance.newPanels, Instance.refreshOutcome, panelCount]
  by_cases htabs : c.name = "tabs"
  · rw [if_pos ((isTabs_iff hx).mpr htabs), if_pos ((isTabs_iff hx).mpr htabs), if_pos htabs,
      tabCount_listed h (hlisted htabs)]
    exact ⟨rfl, rfl⟩
  · have hno : ¬ x.isTabs = true := fun h => htabs ((isTabs_iff hx).mp h)
    rw [if_neg hno, if_neg hno, if_neg htabs]
    exact ⟨(Nat.zero_sub _).symm, rfl⟩

end Kinds

/-! ## A prepared instance -/

/-- An instance shows a node: it is one of the node's type with its props for inputs, every
    event handler that is not reported is subscribed, and there are no subscriptions but
    these. -/
structure Shows (s : Store) (node : Node) (c : Capability) (i : InstanceId) (x : Instance) :
    Prop where
  found : s.instances[i]? = some x
  blueprint : x.blueprint = .ofCapability c
  inputs : x.inputs = node.props
  alive : x.destroyed = false
  events {event : String} {handler : Json} :
    (event, handler) ∈ node.events → eventWarning c.name c.outputs (event, handler) = none →
      ∃ callback, Callback.ofBinding? handler = some callback ∧ Subscribed s x event callback
  kept : x.tracked.length =
    node.events.countP fun entry => (eventWarning c.name c.outputs entry).isNone
  silent {event : String} {e : EmitterId} : (event, e) ∈ x.outputs → s.listeners e ≠ [] →
    ∃ handler, (event, handler) ∈ node.events ∧
      eventWarning c.name c.outputs (event, handler) = none

/-- An instance that was added for a node in a host and is ready for children. -/
structure Prepared (s : Store) (h : HostId) (node : Node) (c : Capability) (x : Instance)
    (s' : Store) : Prop where
  adds : s.Adds (Store.only h [s.instances.length]) s'
  instances : s'.instances = s.instances ++ [x]
  shows : Shows s' node c s.instances.length x
  plain : x.Plain
  /-- A further refresh brings nothing. -/
  settled : x.newMounts = []
  outcome : x.refreshOutcome = .ok ()
  content : x.content.isSome = c.isContainer
  panels_length : x.panels.length = panelCount c node.props
  places_nodup : x.places.Nodup
  empty {g : HostId} : g ∈ x.places → s'.mounted g = []

/-! ## A fresh instance -/

namespace Fresh

section Stages

variable (s : Store) (h : HostId) (c : Capability) (node : Node)

/-- The new instance of a node with its props. -/
def given : Instance := { s.born h (.ofCapability c) with inputs := node.props }

/-- The store with the new instance of a node and its props. -/
def givenStore : Store :=
  { s.created h (.ofCapability c) with instances := s.instances ++ [given s h c node] }

/-- The new instance of a node, which keeps the subscriptions of its handlers. -/
def wired : Instance :=
  { given s h c node with
    tracked := List.range' s.subscriptions.length (bindings (given s h c node) node.events).length }

/-- The store in which the handlers of a node listen to its new instance. -/
def wiredStore : Store :=
  (givenStore s h c node).listeningAll s.instances.length (given s h c node)
    (bindings (given s h c node) node.events)

/-- The new instance of a node with its mount points. -/
def shown : Instance := (wired s h c node).refreshed (wiredStore s h c node).hosts.length

/-- The store with the mount points of the new instance. -/
def shownStore : Store := (wiredStore s h c node).refreshed s.instances.length (wired s h c node)

end Stages

variable {s : Store} {h : HostId} {c : Capability} {node : Node}

theorem given_plain (hc : c ∈ Catalog.all) : (given s h c node).Plain := by
  have hborn := s.born_plain h (ofCapability_plain c hc)
  exact ⟨hborn.blueprint, hborn.attributes, hborn.outputs, hborn.content, hborn.panels⟩

theorem wired_plain (hc : c ∈ Catalog.all) : (wired s h c node).Plain := by
  have hgiven : (given s h c node).Plain := given_plain hc
  exact ⟨hgiven.blueprint, hgiven.attributes, hgiven.outputs, hgiven.content, hgiven.panels⟩

/-! ### The stores of the stages -/

theorem givenStore_get :
    (givenStore s h c node).instances[s.instances.length]? = some (given s h c node) :=
  List.getElem?_concat_length

theorem wiredStore_instances :
    (wiredStore s h c node).instances = s.instances ++ [wired s h c node] :=
  (listeningAll_instances givenStore_get _).trans (Store.concat_set ..)

theorem wiredStore_get :
    (wiredStore s h c node).instances[s.instances.length]? = some (wired s h c node) := by
  rw [wiredStore_instances]
  exact List.getElem?_concat_length

theorem wiredStore_hosts :
    (wiredStore s h c node).hosts = (s.created h (.ofCapability c)).hosts :=
  listeningAll_hosts _

theorem shownStore_instances :
    (shownStore s h c node).instances = s.instances ++ [shown s h c node] := by
  change (wiredStore s h c node).instances.set _ (shown s h c node) = _
  rw [wiredStore_instances, Store.concat_set]

theorem shownStore_get :
    (shownStore s h c node).instances[s.instances.length]? = some (shown s h c node) := by
  rw [shownStore_instances]
  exact List.getElem?_concat_length

theorem shownStore_hosts :
    (shownStore s h c node).hosts =
      (s.created h (.ofCapability c)).hosts ++ (wired s h c node).newMounts := by
  change (wiredStore s h c node).hosts ++ _ = _
  rw [wiredStore_hosts]

theorem hosts_length :
    (shownStore s h c node).hosts.length =
      s.hosts.length + (wired s h c node).newMounts.length := by
  rw [shownStore_hosts, List.length_append, Store.hosts_length_created]

theorem emitters_length :
    (shownStore s h c node).emitters.length =
      s.emitters.length + (Blueprint.ofCapability c).outputs.length := by
  refine (listeningAll_emitters_length _).trans ?_
  change (s.emitters ++ _).length = _
  rw [List.length_append, List.length_map]

/-- The emitters of the new instance come behind those that there were. -/
theorem given_emitters : (given s h c node).outputs.map Prod.snd =
    List.range' s.emitters.length (Blueprint.ofCapability c).outputs.length :=
  s.born_emitters h (.ofCapability c)

theorem emitter_range {o : String × EmitterId} (ho : o ∈ (given s h c node).outputs) :
    s.emitters.length ≤ o.2 ∧
      o.2 < s.emitters.length + (Blueprint.ofCapability c).outputs.length := by
  have hrange := List.mem_map_of_mem (f := Prod.snd) ho
  rw [given_emitters] at hrange
  exact List.mem_range'_1.mp hrange

/-- Nothing listens to the new instance before its handlers do. -/
theorem given_quiet : ∀ o ∈ (given s h c node).outputs,
    ((givenStore s h c node).emitters[o.2]?).map Emitter.listeners = some [] := by
  intro o ho
  obtain ⟨hle, hlt⟩ := emitter_range ho
  have hk : o.2 - s.emitters.length < (Blueprint.ofCapability c).outputs.length :=
    Nat.sub_lt_left_of_lt_add hle hlt
  rw [givenStore, Store.created, List.getElem?_append_right hle, List.getElem?_map,
    List.getElem?_eq_getElem hk]
  rfl

/-- Its handlers leave the emitters alone that there were. -/
theorem emitters_front : s.emitters <+: (shownStore s h c node).emitters := by
  change s.emitters <+: (wiredStore s h c node).emitters
  rw [List.prefix_iff_getElem?]
  intro e he
  have hnone : (bindings (given s h c node) node.events).filter (fun b => b.1 = e) = [] := by
    rw [List.filter_eq_nil_iff]
    intro binding hbinding heq
    rw [decide_eq_true_eq] at heq
    obtain ⟨entry, -, hfound⟩ := List.mem_filterMap.mp hbinding
    have hle := (emitter_range (Instance.mem_outputs_of_emitter? (emitter?_of_binding? hfound))).1
    exact absurd he (Nat.not_lt.mpr (heq ▸ hle))
  have hold : (givenStore s h c node).emitters[e]? = some s.emitters[e] := by
    rw [givenStore, Store.created, List.getElem?_append_left he, List.getElem?_eq_getElem he]
  rw [wiredStore, listeningAll_emitter, hold, hnone]
  simp

/-- The instance is in its host, and its mount points are empty. -/
theorem mounted (hh : h < s.hosts.length) (g : HostId) :
    (shownStore s h c node).mounted g = s.mounted g ++ Store.only h [s.instances.length] g := by
  rw [Store.mounted_append (fun _ => Instance.newMounts_empty) shownStore_hosts,
    Store.mounted_created _ hh, Store.only]
  split
  · rfl
  · exact (List.append_nil _).symm

theorem place_range {g : HostId} (hg : g ∈ (shown s h c node).places) :
    s.hosts.length ≤ g ∧ g < (shownStore s h c node).hosts.length := by
  have hnew := (Instance.mem_places_refreshed hg).resolve_left List.not_mem_nil
  rw [wiredStore_hosts, Store.hosts_length_created] at hnew
  exact ⟨hnew.1, hosts_length ▸ hnew.2⟩

/-! ### What there is in the end -/

theorem adds (hh : h < s.hosts.length) :
    s.Adds (Store.only h [s.instances.length]) (shownStore s h c node) := by
  have hlast {i : InstanceId} (hle : s.instances.length ≤ i)
      (hlt : i < (shownStore s h c node).instances.length) : i = s.instances.length := by
    rw [shownStore_instances, List.length_append] at hlt
    exact Nat.le_antisymm (Nat.le_of_lt_succ hlt) hle
  constructor
  case instances => exact ⟨_, shownStore_instances.symm⟩
  case emitters => exact emitters_front
  case subscriptions =>
    exact ⟨_, (listeningAll_subscriptions (s := givenStore s h c node) (i := s.instances.length)
      (x := given s h c node) (bindings _ node.events)).symm⟩
  case hosts_le => exact hosts_length ▸ Nat.le_add_right _ _
  case mounted => exact fun _ => mounted hh _
  case offered =>
    intro i g hle hmem
    obtain rfl := hlast hle (Store.lt_of_offered hmem)
    rw [Store.offered_some shownStore_get] at hmem
    exact place_range hmem
  case emittersOf =>
    intro i e hle hmem
    have hlt : i < (shownStore s h c node).instances.length := by
      rcases Nat.lt_or_ge i (shownStore s h c node).instances.length with hlt | hge
      · exact hlt
      · rw [Store.emittersOf, List.getElem?_eq_none hge] at hmem
        cases hmem
    obtain rfl := hlast hle hlt
    rw [Store.emittersOf_some shownStore_get] at hmem
    obtain ⟨o, ho, rfl⟩ := List.mem_map.mp hmem
    have hown : o ∈ (given s h c node).outputs := ho
    exact emitters_length ▸ (emitter_range hown).2

theorem shows (hc : c ∈ Catalog.all) (hevents : node.events.keys.Nodup) :
    Shows (shownStore s h c node) node c s.instances.length (shown s h c node) := by
  have hplain : (given s h c node).Plain := given_plain hc
  have houtputs : ((given s h c node).outputs.map Prod.snd).Nodup := by
    rw [given_emitters]
    exact List.nodup_range'
  refine ⟨shownStore_get, rfl, rfl, rfl, fun hentry hwarning => ?_, ?_, fun ho hlistening => ?_⟩
  · exact subscribed_of_no_warning (s := givenStore s h c node) (i := s.instances.length)
      hplain rfl houtputs hevents given_quiet hentry hwarning
  · exact List.length_range'.trans (length_bindings hplain rfl node.events)
  · exact handler_of_listening (s := givenStore s h c node) (i := s.instances.length)
      hplain rfl houtputs given_quiet ho hlistening

theorem prepared (hh : h < s.hosts.length) (hc : c ∈ Catalog.all)
    (hevents : node.events.keys.Nodup) (hlisted : c.name = "tabs" → TabsListed node.props) :
    Prepared s h node c (shown s h c node) (shownStore s h c node) := by
  have hplain : (shown s h c node).Plain := (wired_plain hc).refreshed _
  obtain ⟨hmissing, -⟩ :=
    newPanels_listed (c := c) (x := wired s h c node) rfl (wired_plain hc) hlisted
  obtain ⟨hfurther, houtcome⟩ :=
    newPanels_listed (c := c) (x := shown s h c node) rfl hplain hlisted
  have hcount : (shown s h c node).panels.length = panelCount c node.props := by
    change (List.range' _ (wired s h c node).newPanels).length = _
    rw [List.length_range', hmissing]
    exact Nat.sub_zero _
  constructor
  case adds => exact adds hh
  case instances => exact shownStore_instances
  case shows => exact shows hc hevents
  case plain => exact hplain
  case settled =>
    have hpanels : (shown s h c node).newPanels = 0 := by
      rw [hfurther, hcount]
      exact Nat.sub_self _
    rw [Instance.newMounts, shown, Instance.newContent_refreshed, ← shown, hpanels]
    rfl
  case outcome => exact houtcome
  case content =>
    change ((none : Option HostId).or ((Blueprint.ofCapability c).host?.map _)).isSome = _
    rw [Option.none_or, Option.isSome_map, ofCapability_host? hc]
    cases c.isContainer <;> rfl
  case panels_length => exact hcount
  case places_nodup => exact Instance.places_refreshed_nodup rfl _
  case empty =>
    intro g hg
    obtain ⟨hnew, -⟩ := place_range hg
    have hnone : s.mounted g = [] := by
      rw [Store.mounted, List.getElem?_eq_none hnew]
      rfl
    rw [mounted hh, hnone, Store.only, if_neg (Nat.ne_of_gt (Nat.lt_of_lt_of_le hh hnew))]
    rfl

end Fresh

/-- Up to its children, a node is rendered without fail. -/
theorem does_prepare {s : Store} {h : HostId} (node : Node) {c : Capability}
    (hh : h < s.hosts.length) (hc : c ∈ Catalog.all) (htype : node.type = some c.name)
    (hprops : node.props.keys.Nodup) (hevents : node.events.keys.Nodup)
    (hlisted : c.name = "tabs" → TabsListed node.props) :
    ∃ x s', Does (prepare node s.instances.length) (s.created h (.ofCapability c))
        (node.events.filterMap (eventWarning c.name c.outputs), .ok ()) s' ∧
      Prepared s h node c x s' := by
  have P := Fresh.prepared hh hc hevents hlisted
  refine ⟨_, _, ?_, P⟩
  have hborn : (s.born h (.ofCapability c)).Plain := s.born_plain h (ofCapability_plain c hc)
  have hget : (s.created h (.ofCapability c)).instances[s.instances.length]? =
      some (s.born h (.ofCapability c)) :=
    List.getElem?_concat_length
  have hcan := does_ofStore (s.created h (.ofCapability c)) (·.can s.instances.length .setInput)
  simp only [Store.can_plain hget hborn (by decide : Operation.setInput ≠ .listPanels)] at hcan
  have hgive : Does (bindProps s.instances.length true node.props)
      (s.created h (.ofCapability c)) (.ok ()) (Fresh.givenStore s h c node) := by
    have hset := does_bindProps hget hborn node.props
    have hmerge : (s.born h (.ofCapability c)).inputs.merge node.props = node.props :=
      Fields.merge_of_nodup hprops
    rw [hmerge, Store.created, Store.concat_set] at hset
    exact hset
  have hwire : Does (bindEvents s.instances.length c.name node.events)
      (Fresh.givenStore s h c node)
      (node.events.filterMap (eventWarning c.name c.outputs), .ok ())
      (Fresh.wiredStore s h c node) := by
    have hplain : (Fresh.given s h c node).Plain := Fresh.given_plain hc
    have hbind := does_bindEvents c.name node.events Fresh.givenStore_get hplain
    rw [show (Fresh.given s h c node).blueprint.outputs = c.outputs from ofCapability_outputs c]
      at hbind
    exact hbind
  have hplain : (Fresh.wired s h c node).Plain := Fresh.wired_plain hc
  have hrefresh := does_refresh Fresh.wiredStore_get hplain rfl
  rw [(newPanels_listed (c := c) rfl hplain hlisted).2] at hrefresh
  rw [prepare, htype]
  exact hcan.bind (hgive.bind (hwire.bind (hrefresh.bind (does_pure _ _))))

end ViewTree.Render
