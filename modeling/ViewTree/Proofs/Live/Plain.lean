import Mathlib.Tactic.SplitIfs
import ViewTree.Live.Refresh
import ViewTree.Proofs.Registry.Built

/-
  ViewTree.Proofs.Live.Plain — instances whose members do not get in each other's way.

  An output or a mount point may bear the name of a member that every instance has, and
  then hides it. Nothing of the kind happens in the built-in library: its blueprints are
  plain (`ofCapability_plain`), which is checked for each. An instance made from a plain
  blueprint, on which no attribute was set, is plain as well. Of such an instance nothing
  is hidden and no operation is blocked; under the name of an event it has the output of
  that name, and under the name of a library mount point it has its content host, if
  that is its own mount point and it has appeared, and nothing else.
-/

namespace ViewTree

open Live

namespace Live

/-- The names of the members that instances have of their own. -/
def reserved : List String :=
  Instance.operations.map Operation.name ++ Instance.data.map Datum.name ++
    [hostNameMember, panelsMember, Blueprint.classMember]

/-- The names of the mount points of the library. -/
def libraryHosts : List String :=
  (Catalog.all.filter Capability.isContainer).map Capability.hostProperty

/-- A leaf, a container or tabs, with names of its own, that never fails of itself. -/
structure Blueprint.Plain (b : Blueprint) : Prop where
  shape : b.shape = .leaf ∨ b.host?.map .container = some b.shape ∨
    b.host?.map .tabs = some b.shape
  hooks : b.hooks = .never
  nodup : b.outputs.Nodup
  outputs : ∀ name ∈ b.outputs, name ∉ reserved ++ libraryHosts
  host : ∀ name ∈ b.host?, name ∉ reserved ∧ name ∈ libraryHosts

theorem ofCapability_shape (c : Capability) :
    let b := Blueprint.ofCapability c
    b.shape = .leaf ∨ b.host?.map .container = some b.shape ∨
      b.host?.map .tabs = some b.shape := by
  unfold Blueprint.ofCapability
  split_ifs
  · exact .inr (.inr rfl)
  · exact .inr (.inl rfl)
  · exact .inl rfl

theorem ofCapability_hooks (c : Capability) : (Blueprint.ofCapability c).hooks = .never := by
  unfold Blueprint.ofCapability
  split_ifs <;> rfl

theorem ofCapability_plain (c : Capability) (hc : c ∈ Catalog.all) :
    (Blueprint.ofCapability c).Plain := by
  have hnames : ∀ c ∈ Catalog.all, let b := Blueprint.ofCapability c
      b.outputs.Nodup ∧ (∀ name ∈ b.outputs, name ∉ reserved ++ libraryHosts) ∧
        ∀ name ∈ b.host?, name ∉ reserved ∧ name ∈ libraryHosts := by
    decide +kernel
  obtain ⟨hnodup, houtputs, hhost⟩ := hnames c hc
  exact ⟨ofCapability_shape c, ofCapability_hooks c, hnodup, houtputs, hhost⟩

theorem hostProperty_of_library {c : Capability} (hc : c ∈ Catalog.all)
    (hcontainer : c.isContainer = true) : c.hostProperty ∈ libraryHosts :=
  List.mem_map_of_mem (List.mem_filter.mpr ⟨hc, hcontainer⟩)

theorem tabs_isContainer : ∀ c ∈ Catalog.all, c.name = "tabs" → c.isContainer = true := by
  decide +kernel

theorem ofCapability_outputs (c : Capability) : (Blueprint.ofCapability c).outputs = c.outputs := by
  unfold Blueprint.ofCapability
  split_ifs <;> rfl

theorem ofCapability_host? {c : Capability} (hc : c ∈ Catalog.all) :
    (Blueprint.ofCapability c).host? = if c.isContainer then some c.hostProperty else none := by
  unfold Blueprint.ofCapability
  split_ifs with htabs hcontainer hcontainer
  · rfl
  · exact absurd (tabs_isContainer c hc htabs) hcontainer
  · rfl
  · rfl

namespace Blueprint.Plain

variable {b : Blueprint}

theorem not_bare (h : b.Plain) : b.shape ≠ .bare := by
  intro hbare
  rcases h.shape with hshape | hshape | hshape
  · rw [hbare] at hshape
    cases hshape
  · simp [host?, hbare] at hshape
  · simp [host?, hbare] at hshape

theorem output_not_reserved (h : b.Plain) {name : String} (hname : name ∈ b.outputs) :
    name ∉ reserved :=
  fun hmem => h.outputs name hname (List.mem_append_left _ hmem)

theorem output_no_host (h : b.Plain) {name : String} (hname : name ∈ b.outputs) :
    name ∉ libraryHosts :=
  fun hmem => h.outputs name hname (List.mem_append_right _ hmem)

theorem host_not_reserved (h : b.Plain) {name : String} (hname : b.host? = some name) :
    name ∉ reserved :=
  (h.host name hname).1

theorem host_of_library (h : b.Plain) {name : String} (hname : b.host? = some name) :
    name ∈ libraryHosts :=
  (h.host name hname).2

/-- Nothing is in the way of making an instance, or of looking for its mount point. -/
theorem fault? (h : b.Plain) : b.fault? = none := by
  have houtputs : Blueprint.classMember ∉ b.outputs :=
    fun hmem => h.output_not_reserved hmem (by decide)
  have hhost : b.host? ≠ some Blueprint.classMember :=
    fun hmem => h.host_not_reserved hmem (by decide)
  simp [Blueprint.fault?, houtputs, hhost]

end Blueprint.Plain

theorem libraryHosts_not_reserved : ∀ name ∈ libraryHosts, name ∉ reserved := by decide +kernel

/-! ## Plain instances -/

namespace Instance

/-- The emitter of an event. -/
def emitter? (x : Instance) (event : String) : Option EmitterId :=
  (x.outputs.find? fun o => o.1 = event).map Prod.snd

structure Plain (x : Instance) : Prop where
  blueprint : x.blueprint.Plain
  attributes : x.attributes = []
  outputs : x.outputs.map Prod.fst = x.blueprint.outputs
  /-- Only containers have a content host, and only tabs have panels. -/
  content : x.blueprint.host? = none → x.content = none
  panels : x.isTabs = false → x.panels = []

namespace Plain

variable {x : Instance}

theorem isBare (h : x.Plain) : x.isBare = false := by
  rw [Instance.isBare]
  split
  · rename_i hbare
    exact absurd hbare h.blueprint.not_bare
  · rfl

theorem find_output (h : x.Plain) {name : String} (hname : name ∉ x.blueprint.outputs) :
    x.outputs.find? (fun o => o.1 = name) = none := by
  rw [List.find?_eq_none]
  intro o ho heq
  apply hname
  rw [← h.outputs, ← of_decide_eq_true heq]
  exact List.mem_map_of_mem ho

/-- What a container keeps is under a reserved name or under that of its mount point. -/
theorem kept?_eq_none {name : String} (hreserved : name ∉ reserved)
    (hhost : x.blueprint.host? ≠ some name) : x.kept? name = none := by
  have hpanels : name ≠ panelsMember := fun h => hreserved (h ▸ by decide)
  have hmember : name ≠ hostNameMember := fun h => hreserved (h ▸ by decide)
  unfold kept?
  cases hx : x.blueprint.host? with
  | none => rfl
  | some hostName =>
    have hne : name ≠ hostName := fun h => hhost (hx.trans (congrArg some h.symm))
    simp [hpanels, hmember, hne]

/-- Nothing that was given hides a member of its own, but for the host and what a
    container keeps. -/
theorem given?_eq_none (h : x.Plain) {name : String} (hreserved : name ∈ reserved)
    (hhost : name ≠ Datum.host.name) (hpanels : name ≠ panelsMember)
    (hmember : name ≠ hostNameMember) : x.given? name = none := by
  have hkept : x.kept? name = none := by
    unfold kept?
    cases hx : x.blueprint.host? with
    | none => rfl
    | some hostName =>
      have hne : name ≠ hostName := fun heq => h.blueprint.host_not_reserved hx (heq ▸ hreserved)
      simp [hpanels, hmember, hne]
  have houtput := h.find_output fun hname => h.blueprint.output_not_reserved hname hreserved
  simp [given?, h.attributes, hhost, hkept, houtput]

theorem blocked? (h : x.Plain) (o : Operation) : x.blocked? o = none := by
  have hgiven : x.given? o.name = none := by
    refine h.given?_eq_none ?_ ?_ ?_ ?_ <;> cases o <;> decide
  rw [Instance.blocked?, hgiven]
  rfl

theorem hidden? (h : x.Plain) {d : Datum} (hd : d ≠ .host) : x.hidden? d = none := by
  refine h.given?_eq_none ?_ ?_ ?_ ?_ <;> cases d <;> first | exact absurd rfl hd | decide

theorem contentFault? (h : x.Plain) : x.contentFault? = none :=
  if_neg fun hhost => h.blueprint.host_not_reserved hhost (by decide)

theorem can (h : x.Plain) (o : Operation) : x.can o = x.offers o := by
  rw [Instance.can, h.blocked? o]
  exact Bool.and_true _

theorem own?_eq_none {name : String} (h : name ∉ reserved) : x.own? name = none := by
  have hdata : data.find? (fun d => d.name = name) = none := by
    rw [List.find?_eq_none]
    intro d hd heq
    refine h (List.mem_append_left _ (List.mem_append_right _ ?_))
    rw [← of_decide_eq_true heq]
    exact List.mem_map_of_mem hd
  have hoperations : operations.find? (fun o => o.name = name && x.offers o) = none := by
    rw [List.find?_eq_none]
    intro o ho heq
    rw [Bool.and_eq_true, decide_eq_true_eq] at heq
    refine h (List.mem_append_left _ (List.mem_append_left _ ?_))
    rw [← heq.1]
    exact List.mem_map_of_mem ho
  rw [own?, hdata, hoperations]
  rfl

/-- Under the name of a mount point of the library there is the content host, if it is
    the instance's own. -/
theorem member?_host (h : x.Plain) {name : String} (hname : name ∈ libraryHosts) :
    x.member? name =
      if x.blueprint.host? = some name then some ((x.content.map Member.host).getD .vacant)
      else none := by
  have hreserved : name ∉ reserved := libraryHosts_not_reserved name hname
  have hdatum : name ≠ Datum.host.name := fun heq => hreserved (heq ▸ by decide)
  have houtput := h.find_output fun hevent => h.blueprint.output_no_host hevent hname
  split
  · rename_i hhost
    have hpanels : name ≠ panelsMember := fun heq => hreserved (heq ▸ by decide)
    have hkept : x.kept? name = some ((x.content.map Member.host).getD .vacant) := by
      simp [kept?, hhost, hpanels]
    simp [member?, given?, h.attributes, hdatum, hkept]
  · rename_i hhost
    have hkept : x.kept? name = none := kept?_eq_none hreserved hhost
    simp [member?, given?, h.attributes, hdatum, hkept, houtput, own?_eq_none hreserved]

/-- Under the name of an event there is its output, if the instance has one. -/
theorem member?_event (h : x.Plain) {event : String} (hevent : event ∈ x.blueprint.outputs) :
    x.member? event = (x.emitter? event).map Member.output := by
  have hreserved : event ∉ reserved := h.blueprint.output_not_reserved hevent
  have hdatum : event ≠ Datum.host.name := fun heq => hreserved (heq ▸ by decide)
  have hkept : x.kept? event = none := kept?_eq_none hreserved fun hhost =>
    h.blueprint.output_no_host hevent (h.blueprint.host_of_library hhost)
  simp [member?, given?, h.attributes, hdatum, hkept, own?_eq_none hreserved, emitter?,
    Function.comp_def]

/-- What is not an event has no output, whatever it names. -/
theorem member?_no_event (h : x.Plain) {event : String} (hevent : event ∉ x.blueprint.outputs)
    (e : EmitterId) : x.member? event ≠ some (.output e) := by
  have houtput := h.find_output hevent
  have hkept : x.kept? event ≠ some (.output e) := by
    unfold kept?
    cases x.blueprint.host? with
    | none => nofun
    | some hostName => cases x.content <;> (simp only; split_ifs <;> simp)
  have hown : x.own? event ≠ some (.output e) := by
    unfold own?
    cases data.find? fun d => d.name = event with
    | none => cases operations.find? fun o => o.name = event && x.offers o <;> simp
    | some d =>
      unfold datum?
      cases operations.find? fun o => o.name = event && x.offers o <;> cases d <;>
        cases x.isBare <;> simp
  have hhost : (if event = Datum.host.name then x.host.map Member.host else none) ≠
      some (.output e) := by
    split
    · cases x.host <;> simp
    · nofun
  intro hmember
  simp only [member?, given?, h.attributes, Fields.get?_nil, houtput, Option.map_none,
    Option.none_or, Option.or_none, Option.or_eq_some_iff] at hmember
  rcases hmember with (hfound | ⟨-, hfound⟩) | ⟨-, hfound⟩
  · exact hhost hfound
  · exact hkept hfound
  · exact hown hfound

theorem distributes (h : x.Plain) : x.distributes = x.isTabs := by
  unfold Instance.distributes Instance.isTabs
  rcases h.blueprint.shape with hshape | hshape | hshape
  · rw [hshape]
  · cases hhost : x.blueprint.host? with
    | none => simp [hhost] at hshape
    | some name => simp [← Option.some.inj (hhost ▸ hshape)]
  · cases hhost : x.blueprint.host? with
    | none => simp [hhost] at hshape
    | some name => simp [← Option.some.inj (hhost ▸ hshape)]

end Plain

end Instance

/-! ## Plain instances in a store -/

namespace Store

theorem typeText_plain {x : Instance} (h : x.Plain) (s : Store) :
    s.typeText x = x.blueprint.componentType := by
  rw [typeText, h.hidden? (by decide)]

/-- Nothing stands in the place of the mark of a plain instance. -/
theorem marked_plain {x : Instance} (h : x.Plain) : marked x = { x with destroyed := true } := by
  rw [marked, h.hidden? (by decide)]

/-- The tab list of a plain instance is an input. -/
theorem tabCount_plain {x y : Instance} (hx : x.Plain) (hy : y.Plain) (h : x.inputs = y.inputs) :
    tabCount x = tabCount y := by
  rw [tabCount, tabCount, hx.hidden? (by decide), hy.hidden? (by decide), h]

@[simp] theorem ok_andThen (s : Store) (next : Store → Attempt) :
    andThen (s, .ok ()) next = next s := rfl

@[simp] theorem andThen_ok (a : Attempt) : (andThen a fun s => (s, .ok ())) = a := by
  obtain ⟨s, _ | ⟨⟩⟩ := a <;> rfl

section Reading

variable {s : Store} {i : InstanceId} {x : Instance} (hx : s.instances[i]? = some x) (h : x.Plain)
include hx h

theorem can_plain {o : Operation} (ho : o ≠ .listPanels) : s.can i o = true := by
  rw [can, hx, Option.any_some, h.can o, Instance.offers.eq_def]
  cases o with
  | listPanels => exact absurd rfl ho
  | _ => simp [h.isBare]

theorem output?_plain (event : String) : s.output? i event = x.emitter? event := by
  rw [output?, member?, hx, Option.bind_some]
  by_cases hevent : event ∈ x.blueprint.outputs
  · rw [h.member?_event hevent]
    cases x.emitter? event <;> rfl
  · have hno := h.member?_no_event hevent
    have hemitter : x.emitter? event = none := by
      rw [Instance.emitter?, h.find_output hevent]
      rfl
    rw [hemitter]
    split
    · rename_i e hmember
      exact absurd hmember (hno e)
    · rfl

theorem mount?_plain {name : String} (hname : name ∈ libraryHosts) :
    s.mount? i name =
      if x.blueprint.host? = some name then x.content.map Member.host else none := by
  rw [mount?, member?, hx, Option.bind_some, h.member?_host hname]
  split
  · cases x.content <;> rfl
  · rfl

theorem panelsFault?_plain : s.panelsFault? i = none := by
  have hgiven : x.given? Operation.listPanels.name = none :=
    h.given?_eq_none (by decide) (by decide) (by decide) (by decide)
  rw [panelsFault?, hx, Option.bind_some, hgiven]
  rfl

theorem childPanels?_plain : s.childPanels? i = if x.isTabs then some x.panels else none := by
  rw [childPanels?, hx]
  simp only [h.can, Instance.offers, h.distributes]

theorem setInput_plain (name : String) (value : Json) :
    s.setInput i name value =
      .ok (s.updateInstance i fun x => { x with inputs := Fields.put name value x.inputs }) := by
  rw [setInput, hx]
  simp [h.blueprint.hooks, Hooks.never, h.hidden? (d := .inputs) (by decide)]

theorem track_plain (id : SubscriptionId) :
    s.track i id = .ok (s.updateInstance i fun x => { x with tracked := x.tracked ++ [id] }) := by
  rw [track, hx, Option.bind_some, h.hidden? (d := .tracked) (by decide)]

/-- A refresh is counted, and mount points appear; a destroyed instance refuses it. -/
theorem refresh_plain :
    s.refresh i =
      if x.destroyed then (s, .error (.usedAfterDestroy x.blueprint.componentType))
      else (s.updateInstance i fun x => { x with checks := x.checks + 1 }).showOffered i x := by
  have hend : refreshEnd x = .ok () := by rw [refreshEnd, h.blueprint.hooks, Hooks.never]
  rw [refresh, hx]
  simp only [h.blocked?, h.isBare, h.blueprint.hooks, Hooks.never, isGone, typeText_plain h,
    h.hidden? (d := .destroyed) (by decide), countCheck, h.hidden? (d := .checks) (by decide),
    hend, ok_andThen, andThen_ok, showMounts, h.contentFault?, Bool.false_eq_true, if_false]

end Reading

end Store

end Live

end ViewTree
