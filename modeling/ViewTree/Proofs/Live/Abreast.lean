import ViewTree.Proofs.Json.Fields
import ViewTree.Proofs.Live.Spread
import ViewTree.Proofs.Live.Ties

/-
  ViewTree.Proofs.Live.Abreast — work on two instances that are tied.

  Whatever is done to an instance depends on the instance alone, with one exception: where
  the content host of a container bears the name of the mark of destroyed instances, the
  instance counts as destroyed while something is mounted there (`Blueprint.Shadowed`).
  Two instances are abreast when they are tied and, in that case, their content hosts are
  both empty or both not (`Store.Abreast`). They stay abreast, and are answered alike,
  when inputs or attributes are set on them, subscriptions are kept and they are
  refreshed; mount points that appear are tied then.

  A content host may also bear the name of the component type, which is a part of texts. It
  has appeared only after a refresh that found the instance alive, and no attribute is set
  after that (`Young`), so the instance stays alive (`Instance.Calm`) and the text in which
  the host would be shown is never made.
-/

namespace ViewTree.Live

/-- The content host stands in the place of the mark of destroyed instances. -/
def Blueprint.Shadowed (b : Blueprint) : Prop := b.host? = some Datum.destroyed.name

namespace Store

/-- What is mounted decides whether an instance counts as destroyed only where the content
    host stands in the place of the mark. -/
theorem isGone_congr {x : Instance} (h : ¬ x.blueprint.Shadowed) (s s' : Store) :
    s.isGone x = s'.isGone x := by
  unfold isGone
  split
  · rfl
  · rfl
  · rename_i g hhidden
    rcases Instance.host_of_given? hhidden with ⟨hname, -⟩ | ⟨hhost, -⟩
    · exact absurd hname (by decide)
    · exact absurd hhost h
  · rfl
  · rfl

end Store

/-- An instance does not count as destroyed once a content host is there that stands in the
    place of the component type. -/
def Instance.Calm (x : Instance) : Prop :=
  x.blueprint.host? = some Datum.componentType.name → x.content ≠ none →
    ∀ s : Store, s.isGone x = false

/-- Where the content host does not stand in the place of the mark, an instance counts as
    destroyed by its attributes, its outputs and the mark. -/
theorem Store.isGone_eq {x z : Instance} (h : ¬ x.blueprint.Shadowed)
    (hblueprint : z.blueprint = x.blueprint)
    (hattributes : Fields.get? Datum.destroyed.name z.attributes =
      Fields.get? Datum.destroyed.name x.attributes)
    (houtputs : z.outputs = x.outputs) (hdestroyed : z.destroyed = x.destroyed) (s s' : Store) :
    s'.isGone z = s.isGone x := by
  have hkept (y : Instance) (hy : y.blueprint = x.blueprint) :
      y.kept? Datum.destroyed.name = none := by
    rw [Instance.kept?, hy]
    split
    · rfl
    · rename_i name hhost
      have hne : Datum.destroyed.name ≠ name := fun heq =>
        h (hhost.trans (congrArg some heq.symm))
      have hpanels : Datum.destroyed.name ≠ panelsMember := by decide
      have hkeeper : Datum.destroyed.name ≠ hostNameMember := by decide
      simp [hpanels, hne, hkeeper]
  have hgiven : z.given? Datum.destroyed.name = x.given? Datum.destroyed.name := by
    rw [Instance.given?, Instance.given?, hattributes, hkept z hblueprint, hkept x rfl, houtputs,
      if_neg (by decide), if_neg (by decide)]
  rw [← Store.isGone_congr h s' s]
  simp only [Store.isGone, Instance.hidden?, hgiven, hdestroyed]

/-- A content host that has appeared with a refresh leaves an instance calm. -/
theorem Instance.calm_offered {x : Instance} {name : String} {g : HostId} {s : Store}
    (hname : x.blueprint.host? = some name) (hlive : s.isGone x = false) (n : Nat) :
    Instance.Calm { x with
      checks := n
      content := some g
      attributes := Fields.erase name x.attributes } := by
  intro hhost _ s'
  obtain rfl : name = Datum.componentType.name := Option.some.inj (hname.symm.trans hhost)
  have hshadow : ¬ x.blueprint.Shadowed := fun h =>
    absurd (Option.some.inj (hname.symm.trans h)) (by decide)
  have herased : Fields.get? Datum.destroyed.name (Fields.erase Datum.componentType.name
      x.attributes) = Fields.get? Datum.destroyed.name x.attributes :=
    Fields.get?_erase_of_ne (by decide) _
  rw [← hlive]
  refine Store.isGone_eq hshadow ?_ herased ?_ ?_ s s'
  all_goals rfl

namespace Store

/-- There is more in a store, and hosts have the names they had. -/
structure Widens (s s' : Store) : Prop where
  instances_le : s.instances.length ≤ s'.instances.length
  hosts_le : s.hosts.length ≤ s'.hosts.length
  hostName {g : HostId} : g < s.hosts.length → s'.hostName g = s.hostName g

variable {s s' : Store}

theorem widens_of_hosts (hlength : s'.instances.length = s.instances.length)
    (hhosts : s'.hosts = s.hosts) : Widens s s' where
  instances_le := Nat.le_of_eq hlength.symm
  hosts_le := Nat.le_of_eq (congrArg List.length hhosts).symm
  hostName _ := by rw [hostName, hostName, hhosts]

theorem Alters.widens {P : Instance → Instance → Prop} {i : InstanceId} (a : Alters P i s s') :
    Widens s s' :=
  ⟨Nat.le_of_eq a.length.symm, a.hosts_le, a.hostName⟩

theorem Makes.widens {h : HostId} {b : Blueprint} {x : Instance} (m : Makes h b x s s') :
    Widens s s' :=
  ⟨m.length ▸ Nat.le_succ _, Nat.le_of_eq m.hosts_length.symm, fun _ => m.hostName _⟩

theorem Spreads.widens {into : HostId → Prop} (p : Spreads into s s') : Widens s s' :=
  ⟨p.instances.length_le, p.hosts_le, p.hostName⟩

theorem widens_newHost (s : Store) (name : String) : Widens s (s.newHost name).2 where
  instances_le := Nat.le_refl _
  hosts_le := by simp [newHost]
  hostName {g} hlt := by
    rw [hostName, hostName, newHost, List.getElem?_append_left hlt]

theorem hostName_newHost (s : Store) (name : String) :
    (s.newHost name).2.hostName s.hosts.length = name := by
  rw [hostName, newHost, List.getElem?_concat_length]
  rfl

end Store

open Store

namespace Ties

/-- Instances are paired in order, hosts one to one and by name. -/
structure Fit (T : Ties) (s₁ s₂ : Store) : Prop where
  instances_lt {i j : InstanceId} :
    T.instances i j → i < s₁.instances.length ∧ j < s₂.instances.length
  instances_iff {i j i' j' : InstanceId} :
    T.instances i j → T.instances i' j' → (i < i' ↔ j < j')
  hosts_lt {g h : HostId} : T.hosts g h → g < s₁.hosts.length ∧ h < s₂.hosts.length
  hosts_iff {g h g' h' : HostId} : T.hosts g h → T.hosts g' h' → (g = g' ↔ h = h')
  names {g h : HostId} : T.hosts g h → s₁.hostName g = s₂.hostName h

variable {T : Ties} {s₁ s₁' s₂ s₂' : Store}

theorem Fit.widen (F : T.Fit s₁ s₂) (h₁ : Widens s₁ s₁') (h₂ : Widens s₂ s₂') : T.Fit s₁' s₂' where
  instances_lt hij := by
    obtain ⟨hi, hj⟩ := F.instances_lt hij
    exact ⟨Nat.lt_of_lt_of_le hi h₁.instances_le, Nat.lt_of_lt_of_le hj h₂.instances_le⟩
  instances_iff := F.instances_iff
  hosts_lt hgh := by
    obtain ⟨hg, hh⟩ := F.hosts_lt hgh
    exact ⟨Nat.lt_of_lt_of_le hg h₁.hosts_le, Nat.lt_of_lt_of_le hh h₂.hosts_le⟩
  hosts_iff := F.hosts_iff
  names hgh := by
    obtain ⟨hg, hh⟩ := F.hosts_lt hgh
    rw [h₁.hostName hg, h₂.hostName hh, F.names hgh]

/-- One more pair of hosts. -/
def linkHosts (T : Ties) (g h : HostId) : Ties :=
  { T with hosts := fun g' h' => T.hosts g' h' ∨ g' = g ∧ h' = h }

/-- One more pair of instances. -/
def linkInstances (T : Ties) (i j : InstanceId) : Ties :=
  { T with instances := fun i' j' => T.instances i' j' ∨ i' = i ∧ j' = j }

theorem le_linkHosts (T : Ties) (g h : HostId) : T.Le (T.linkHosts g h) := ⟨id, .inl⟩

theorem le_linkInstances (T : Ties) (i j : InstanceId) : T.Le (T.linkInstances i j) := ⟨.inl, id⟩

/-- New hosts of one name fit. -/
theorem Fit.newHost (F : T.Fit s₁ s₂) (name : String) :
    (T.linkHosts s₁.hosts.length s₂.hosts.length).Fit (s₁.newHost name).2 (s₂.newHost name).2 where
  instances_lt := F.instances_lt
  instances_iff := F.instances_iff
  hosts_lt := by
    rintro g h (hold | ⟨rfl, rfl⟩)
    · obtain ⟨hg, hh⟩ := F.hosts_lt hold
      exact ⟨Nat.lt_of_lt_of_le hg (widens_newHost s₁ name).hosts_le,
        Nat.lt_of_lt_of_le hh (widens_newHost s₂ name).hosts_le⟩
    · simp [Store.newHost]
  hosts_iff := by
    rintro g h g' h' (hold | ⟨rfl, rfl⟩) (hold' | ⟨rfl, rfl⟩)
    · exact F.hosts_iff hold hold'
    · obtain ⟨hg, hh⟩ := F.hosts_lt hold
      exact iff_of_false (Nat.ne_of_lt hg) (Nat.ne_of_lt hh)
    · obtain ⟨hg, hh⟩ := F.hosts_lt hold'
      exact iff_of_false (Nat.ne_of_gt hg) (Nat.ne_of_gt hh)
    · exact iff_of_true rfl rfl
  names := by
    rintro g h (hold | ⟨rfl, rfl⟩)
    · obtain ⟨hg, hh⟩ := F.hosts_lt hold
      rw [(widens_newHost s₁ name).hostName hg, (widens_newHost s₂ name).hostName hh, F.names hold]
    · rw [hostName_newHost, hostName_newHost]

/-- New instances fit. -/
theorem Fit.newInstances (F : T.Fit s₁ s₂) (h₁ : Widens s₁ s₁') (h₂ : Widens s₂ s₂')
    (hlt₁ : s₁.instances.length < s₁'.instances.length)
    (hlt₂ : s₂.instances.length < s₂'.instances.length) :
    (T.linkInstances s₁.instances.length s₂.instances.length).Fit s₁' s₂' :=
  { F.widen h₁ h₂ with
    instances_lt := by
      rintro i j (hold | ⟨rfl, rfl⟩)
      · exact (F.widen h₁ h₂).instances_lt hold
      · exact ⟨hlt₁, hlt₂⟩
    instances_iff := by
      rintro i j i' j' (hold | ⟨rfl, rfl⟩) (hold' | ⟨rfl, rfl⟩)
      · exact F.instances_iff hold hold'
      · obtain ⟨hi, hj⟩ := F.instances_lt hold
        exact iff_of_true hi hj
      · obtain ⟨hi, hj⟩ := F.instances_lt hold'
        exact iff_of_false (Nat.lt_asymm hi) (Nat.lt_asymm hj)
      · exact iff_of_false (Nat.lt_irrefl _) (Nat.lt_irrefl _) }

end Ties

namespace Store

/-- Two tied instances, each in a store, which fit; content hosts that make an instance
    count as destroyed do so in both or in none. -/
structure Abreast (T : Ties) (i j : InstanceId) (x y : Instance) (s₁ s₂ : Store) : Prop where
  fit : T.Fit s₁ s₂
  paired : T.instances i j
  left : s₁.instances[i]? = some x
  right : s₂.instances[j]? = some y
  tied : x.Tied T.hosts y
  even {g h : HostId} : x.blueprint.Shadowed → x.content = some g → y.content = some h →
    (s₁.mounted g = [] ↔ s₂.mounted h = [])
  calm : x.Calm

/-- Two instances are abreast, whatever they have come to. -/
def Paired (T : Ties) (i j : InstanceId) (s₁ s₂ : Store) : Prop :=
  ∃ x y, Abreast T i j x y s₁ s₂

/-- Two instances are abreast, and no content host has appeared yet. -/
def Young (T : Ties) (i j : InstanceId) (s₁ s₂ : Store) : Prop :=
  ∃ x y, Abreast T i j x y s₁ s₂ ∧ x.content = none

/-- Two instances are abreast, and more may be tied than was. -/
def Advances (T : Ties) (i j : InstanceId) (s₁ s₂ : Store) : Prop :=
  ∃ T', T.Le T' ∧ Paired T' i j s₁ s₂

variable {T : Ties} {i j : InstanceId} {x y : Instance} {s₁ s₂ s₁' s₂' : Store}

theorem Young.paired (h : Young T i j s₁ s₂) : Paired T i j s₁ s₂ := by
  obtain ⟨x, y, A, -⟩ := h
  exact ⟨x, y, A⟩

theorem Advances.trans (h : Advances T i j s₁ s₂)
    (k : ∀ T' x y, T.Le T' → Abreast T' i j x y s₁ s₂ → Advances T' i j s₁' s₂') :
    Advances T i j s₁' s₂' := by
  obtain ⟨T', hle, x, y, A⟩ := h
  obtain ⟨T'', hle', hpaired⟩ := k T' x y hle A
  exact ⟨T'', hle.trans hle', hpaired⟩

namespace Abreast

section Reading

variable (A : Abreast T i j x y s₁ s₂)
include A

theorem can (o : Operation) : s₁.can i o = s₂.can j o := by
  rw [Store.can, Store.can, A.left, A.right]
  exact A.tied.can o

theorem output?_isSome (event : String) :
    (s₁.output? i event).isSome = (s₂.output? j event).isSome := by
  rw [Store.output?, Store.output?, Store.member?, Store.member?, A.left, A.right]
  have hmember := A.tied.member? event
  revert hmember
  simp only [Option.bind_some]
  generalize x.member? event = a
  generalize y.member? event = b
  rintro (⟨_, _⟩ | _ | hm)
  · rfl
  · rfl
  · rfl
  · rfl

theorem mount? (name : String) :
    Option.Rel (Member.Tied T.hosts) (s₁.mount? i name) (s₂.mount? j name) := by
  rw [Store.mount?, Store.mount?, Store.member?, Store.member?, A.left, A.right]
  have hmember := A.tied.member? name
  revert hmember
  simp only [Option.bind_some]
  generalize x.member? name = a
  generalize y.member? name = b
  rintro (hm | _)
  · rw [Option.filter_some, Option.filter_some, hm.isVacant]
    split
    · exact .some hm
    · exact .none
  · exact .none

theorem panelsFault? : s₁.panelsFault? i = s₂.panelsFault? j := by
  rw [Store.panelsFault?, Store.panelsFault?, A.left, A.right]
  have hgiven := A.tied.given? Operation.listPanels.name
  revert hgiven
  simp only [Option.bind_some]
  generalize x.given? Operation.listPanels.name = a
  generalize y.given? Operation.listPanels.name = b
  rintro (hm | _)
  · rw [Option.bind_some, Option.bind_some, hm.isCallable, hm.callFault]
  · rfl

theorem childPanels? :
    Option.Rel (List.Forall₂ T.hosts) (s₁.childPanels? i) (s₂.childPanels? j) := by
  rw [Store.childPanels?, Store.childPanels?, A.left, A.right]
  simp only [A.tied.can]
  split
  · exact .some A.tied.panels
  · exact .none

theorem isGone : s₁.isGone x = s₂.isGone y := by
  unfold Store.isGone Instance.hidden?
  have hgiven := A.tied.given? Datum.destroyed.name
  have heven (g h : HostId) (hg : x.given? Datum.destroyed.name = some (.host g))
      (hh : y.given? Datum.destroyed.name = some (.host h)) :
      (s₁.mounted g).isEmpty = (s₂.mounted h).isEmpty := by
    rcases Instance.host_of_given? hg with ⟨hname, -⟩ | ⟨hshadow, hcontent⟩
    · exact absurd hname (by decide)
    · rcases Instance.host_of_given? hh with ⟨hname, -⟩ | ⟨-, hcontent'⟩
      · exact absurd hname (by decide)
      · rw [Bool.eq_iff_iff, List.isEmpty_iff, List.isEmpty_iff]
        exact A.even hshadow hcontent hcontent'
  rw [← A.tied.destroyed]
  revert hgiven heven
  generalize x.given? Datum.destroyed.name = a
  generalize y.given? Datum.destroyed.name = b
  rintro (hm | _) heven
  · cases hm with
    | output e e' => rfl
    | host hgh => exact congrArg (!·) (heven _ _ rfl rfl)
    | same hm =>
      rename_i m
      cases m
      case host g => exact absurd rfl (hm g)
      all_goals rfl
  · rfl

end Reading

section Changing

variable (A : Abreast T i j x y s₁ s₂) {f g : Instance → Instance}
include A

/-- More is tied, and the rest of the stores has changed. -/
theorem behind {T' : Ties} (hle : T.Le T') (hfit : T'.Fit s₁' s₂')
    (hleft : s₁'.instances[i]? = some x) (hright : s₂'.instances[j]? = some y)
    (heven : ∀ g h, x.blueprint.Shadowed → x.content = some g → y.content = some h →
      (s₁'.mounted g = [] ↔ s₂'.mounted h = [])) :
    Abreast T' i j x y s₁' s₂' where
  fit := hfit
  paired := hle.instances A.paired
  left := hleft
  right := hright
  tied := A.tied.mono fun _ _ => hle.hosts
  even := heven _ _
  calm := A.calm

/-- Both instances are changed, and offer what they offered. -/
theorem update (h₁ : s₁'.instances = s₁.instances.modify i f) (hhosts₁ : s₁'.hosts = s₁.hosts)
    (h₂ : s₂'.instances = s₂.instances.modify j g) (hhosts₂ : s₂'.hosts = s₂.hosts)
    (htied : (f x).Tied T.hosts (g y)) (hblueprint : (f x).blueprint = x.blueprint)
    (hcontent : (f x).content = x.content) (hcontent' : (g y).content = y.content)
    (hcalm : (f x).Calm) : Abreast T i j (f x) (g y) s₁' s₂' where
  fit := A.fit.widen (widens_of_hosts (by rw [h₁, List.length_modify]) hhosts₁)
    (widens_of_hosts (by rw [h₂, List.length_modify]) hhosts₂)
  paired := A.paired
  left := by
    rw [h₁, List.getElem?_modify_eq, A.left]
    rfl
  right := by
    rw [h₂, List.getElem?_modify_eq, A.right]
    rfl
  tied := htied
  even hshadow hg hh := by
    rw [mounted, mounted, hhosts₁, hhosts₂]
    exact A.even (hblueprint ▸ hshadow) (hcontent ▸ hg) (hcontent' ▸ hh)
  calm := hcalm

/-- Both instances come by a new mount point. -/
theorem offer (name : String)
    (htied : (f x).Tied (T.linkHosts s₁.hosts.length s₂.hosts.length).hosts (g y))
    (hblueprint : (f x).blueprint = x.blueprint)
    (hcontent : (f x).content = x.content ∧ (g y).content = y.content ∨
      (f x).content = some s₁.hosts.length ∧ (g y).content = some s₂.hosts.length)
    (hcalm : (f x).Calm) :
    Abreast (T.linkHosts s₁.hosts.length s₂.hosts.length) i j (f x) (g y)
      ((s₁.newHost name).2.updateInstance i f) ((s₂.newHost name).2.updateInstance j g) where
  fit := (A.fit.newHost name).widen (widens_of_hosts (List.length_modify ..) rfl)
    (widens_of_hosts (List.length_modify ..) rfl)
  paired := A.paired
  left := by
    change (s₁.instances.modify i f)[i]? = _
    rw [List.getElem?_modify_eq, A.left]
    rfl
  right := by
    change (s₂.instances.modify j g)[j]? = _
    rw [List.getElem?_modify_eq, A.right]
    rfl
  tied := htied
  even {p q} hshadow hp hq := by
    have hmounted (s : Store) (h : HostId) : (s.newHost name).2.mounted h = s.mounted h :=
      mounted_append (by simp : ∀ host ∈ [(⟨name, []⟩ : Host)], host.instances = []) rfl h
    change (s₁.newHost name).2.mounted p = [] ↔ (s₂.newHost name).2.mounted q = []
    rw [hmounted, hmounted]
    rcases hcontent with ⟨hx, hy⟩ | ⟨hx, hy⟩
    · exact A.even (hblueprint ▸ hshadow) (hx ▸ hp) (hy ▸ hq)
    · have hnone (s : Store) : s.mounted s.hosts.length = [] := by
        rw [mounted, List.getElem?_eq_none (Nat.le_refl _)]
        rfl
      obtain rfl := Option.some.inj (hx.symm.trans hp)
      obtain rfl := Option.some.inj (hy.symm.trans hq)
      exact iff_of_true (hnone s₁) (hnone s₂)
  calm := hcalm

end Changing

/-! ## New instances -/

/-- Instances that were made of one blueprint, in hosts that are paired. -/
theorem of_makes {b : Blueprint} {g h : HostId} (F : T.Fit s₁ s₂) (hgh : T.hosts g h)
    (m₁ : Makes g b x s₁ s₁') (m₂ : Makes h b y s₂ s₂') :
    Abreast (T.linkInstances s₁.instances.length s₂.instances.length) s₁.instances.length
      s₂.instances.length x y s₁' s₂' where
  fit := F.newInstances m₁.widens m₂.widens (m₁.length ▸ Nat.lt_succ_self _)
    (m₂.length ▸ Nat.lt_succ_self _)
  paired := .inr ⟨rfl, rfl⟩
  left := m₁.found
  right := m₂.found
  tied := by
    obtain ⟨outputs, rfl, hnames⟩ := m₁.made
    obtain ⟨outputs', rfl, hnames'⟩ := m₂.made
    exact {
      blueprint := rfl, inputs := rfl, host := .some hgh, destroyed := rfl, tracked := rfl,
      outputs := hnames.trans hnames'.symm, attributes := rfl, checks := rfl, content := .none,
      panels := .nil }
  even _ hg := by
    obtain ⟨outputs, rfl, -⟩ := m₁.made
    cases hg
  calm _ hcontent := by
    obtain ⟨outputs, rfl, -⟩ := m₁.made
    exact absurd rfl hcontent

end Abreast

theorem Young.of_makes {b : Blueprint} {g h : HostId} (F : T.Fit s₁ s₂) (hgh : T.hosts g h)
    (m₁ : Makes g b x s₁ s₁') (m₂ : Makes h b y s₂ s₂') :
    Young (T.linkInstances s₁.instances.length s₂.instances.length) s₁.instances.length
      s₂.instances.length s₁' s₂' := by
  refine ⟨x, y, .of_makes F hgh m₁ m₂, ?_⟩
  obtain ⟨outputs, rfl, -⟩ := m₁.made
  rfl

namespace Abreast

/-! ## Inputs, attributes and subscriptions -/

/-- Both instances are changed in what decides neither what they offer nor whether they
    count as destroyed. -/
theorem inside (A : Abreast T i j x y s₁ s₂) {f g : Instance → Instance}
    (h₁ : s₁'.instances = s₁.instances.modify i f) (hhosts₁ : s₁'.hosts = s₁.hosts)
    (h₂ : s₂'.instances = s₂.instances.modify j g) (hhosts₂ : s₂'.hosts = s₂.hosts)
    (htied : (f x).Tied T.hosts (g y)) (hblueprint : (f x).blueprint = x.blueprint)
    (hcontent : (f x).content = x.content) (hcontent' : (g y).content = y.content)
    (hgone : ∀ s : Store, s.isGone (f x) = s.isGone x) : Abreast T i j (f x) (g y) s₁' s₂' := by
  refine A.update h₁ hhosts₁ h₂ hhosts₂ htied hblueprint hcontent hcontent' fun hhost hsome s => ?_
  rw [hgone]
  exact A.calm (hblueprint ▸ hhost) (hcontent ▸ hsome) s

end Abreast

/-- Setting an input fails for both or for none. -/
theorem Young.setInput (h : Young T i j s₁ s₂) (name : String) (value : Json) :
    (∃ failure, s₁.setInput i name value = .error failure ∧
      s₂.setInput j name value = .error failure) ∨
    ∃ s₁' s₂', s₁.setInput i name value = .ok s₁' ∧ s₂.setInput j name value = .ok s₂' ∧
      Young T i j s₁' s₂' := by
  obtain ⟨x, y, A, hnone⟩ := h
  simp only [Store.setInput, A.left, A.right, ← A.tied.blueprint, ← A.tied.own]
  cases x.blueprint.hooks.input x.own name value with
  | some failure => exact .inl ⟨_, rfl, rfl⟩
  | none =>
    have hhidden := A.tied.given? Datum.inputs.name
    revert hhidden
    unfold Instance.hidden?
    generalize x.given? Datum.inputs.name = a
    generalize y.given? Datum.inputs.name = b
    rintro (hm | _)
    · exact .inl ⟨_, rfl, by rw [hm.typeName]⟩
    · have htied : Instance.Tied T.hosts { x with inputs := Fields.put name value x.inputs }
          { y with inputs := Fields.put name value y.inputs } :=
        { A.tied with inputs := congrArg (Fields.put name value) A.tied.inputs }
      exact .inr ⟨_, _, rfl, rfl, _, _,
        A.inside rfl rfl rfl rfl htied rfl rfl rfl fun _ => rfl, hnone⟩

/-- So does giving an attribute, which may stand in the place of any mark. -/
theorem Young.giveAttribute (h : Young T i j s₁ s₂) (name : String) (value : Json) :
    (∃ failure, s₁.giveAttribute i name value = .error failure ∧
      s₂.giveAttribute j name value = .error failure) ∨
    ∃ s₁' s₂', s₁.giveAttribute i name value = .ok s₁' ∧
      s₂.giveAttribute j name value = .ok s₂' ∧ Young T i j s₁' s₂' := by
  obtain ⟨x, y, A, hnone⟩ := h
  unfold Store.giveAttribute
  split
  · exact .inl ⟨_, rfl, rfl⟩
  · refine .inr ⟨_, _, rfl, rfl, _, _, A.update rfl rfl rfl rfl ?_ rfl rfl rfl ?_, hnone⟩
    · exact { A.tied with
        outputs := filter_names (fun k => k ≠ name) A.tied.outputs
        attributes := congrArg (Fields.put name value) A.tied.attributes }
    · exact fun _ hcontent => absurd hnone hcontent

namespace Abreast

theorem subscribe (A : Abreast T i j x y s₁ s₂) (e e' : EmitterId) (callback : Callback) :
    Abreast T i j x y (s₁.subscribe e callback).2 (s₂.subscribe e' callback).2 :=
  A.behind (.refl T)
    (A.fit.widen (widens_of_hosts rfl rfl) (widens_of_hosts rfl rfl))
    A.left A.right fun _ _ => A.even

end Abreast

theorem Paired.track (h : Paired T i j s₁ s₂) (id id' : SubscriptionId) :
    (∃ failure, s₁.track i id = .error failure ∧ s₂.track j id' = .error failure) ∨
    ∃ s₁' s₂', s₁.track i id = .ok s₁' ∧ s₂.track j id' = .ok s₂' ∧ Paired T i j s₁' s₂' := by
  obtain ⟨x, y, A⟩ := h
  simp only [Store.track, A.left, A.right, Option.bind_some]
  have hhidden := A.tied.given? Datum.tracked.name
  revert hhidden
  unfold Instance.hidden?
  generalize x.given? Datum.tracked.name = a
  generalize y.given? Datum.tracked.name = b
  rintro (hm | _)
  · exact .inl ⟨_, rfl, by rw [hm.typeName]⟩
  · refine .inr ⟨_, _, rfl, rfl, _, _, A.inside rfl rfl rfl rfl ?_ rfl rfl rfl fun _ => rfl⟩
    exact { A.tied with tracked := by simp [A.tied.tracked] }

namespace Abreast

/-! ## Refreshing -/

theorem advances (A : Abreast T i j x y s₁ s₂) : Advances T i j s₁ s₂ := ⟨T, .refl T, x, y, A⟩

/-- The component type is the same part of texts, unless a host stands in its place. -/
theorem typeText (A : Abreast T i j x y s₁ s₂)
    (hhost : ∀ g, x.given? Datum.componentType.name ≠ some (.host g)) :
    s₁.typeText x = s₂.typeText y := by
  have hgiven := A.tied.given? Datum.componentType.name
  revert hgiven hhost
  unfold Store.typeText Instance.hidden?
  rw [A.tied.blueprint]
  generalize x.given? Datum.componentType.name = a
  generalize y.given? Datum.componentType.name = b
  rintro hhost (hm | _)
  · cases hm with
    | output e e' => rfl
    | host hgh => exact absurd rfl (hhost _)
    | same hm =>
      rename_i m
      cases m
      case host g => exact absurd rfl (hm g)
      all_goals rfl
  · rfl

/-- An instance that counts as destroyed has no host in the place of its component type. -/
theorem typeText_of_gone (A : Abreast T i j x y s₁ s₂) (hgone : s₁.isGone x = true) :
    s₁.typeText x = s₂.typeText y := by
  refine A.typeText fun g hg => ?_
  rcases Instance.host_of_given? hg with ⟨hname, -⟩ | ⟨hhost, hcontent⟩
  · exact absurd hname (by decide)
  · rw [A.calm hhost (by simp [hcontent]) s₁] at hgone
    cases hgone

/-- The content host appears, or something stands in its place, for both. -/
theorem showContent {n m : Nat} {name : String}
    (A : Abreast T i j { x with checks := n } { y with checks := m } s₁ s₂)
    {s : Store} (hname : x.blueprint.host? = some name) (hlive : s.isGone x = false) :
    Advances T i j (s₁.showContent i x name) (s₂.showContent j y name) := by
  have hmount := A.mount? name
  unfold Store.showContent
  rw [isSome_of_rel hmount]
  split
  · exact A.advances
  · rename_i hvacant
    have htext : s₁.typeText x = s₂.typeText y := by
      refine A.typeText fun g (hg : x.given? _ = _) => hvacant ?_
      rcases Instance.host_of_given? hg with ⟨heq, -⟩ | ⟨hhost, -⟩
      · exact absurd heq (by decide)
      · obtain rfl := Option.some.inj (hname.symm.trans hhost)
        have hmember : Instance.member? { x with checks := n } Datum.componentType.name =
            some (.host g) := by
          rw [Instance.member?, show Instance.given? { x with checks := n } _ = _ from hg]
          rfl
        rw [← isSome_of_rel hmount, Store.mount?, Store.member?, A.left, Option.bind_some, hmember]
        rfl
    have A' := A.offer (s₂.typeText y ++ "." ++ name)
      (f := fun x => { x with
        content := some s₁.hosts.length, attributes := Fields.erase name x.attributes })
      (g := fun y => { y with
        content := some s₂.hosts.length, attributes := Fields.erase name y.attributes })
      { A.tied.mono fun _ _ => .inl with
        content := .some (.inr ⟨rfl, rfl⟩)
        attributes := congrArg (Fields.erase name) A.tied.attributes }
      rfl (.inr ⟨rfl, rfl⟩) ?_
    · rw [htext]
      exact ⟨_, T.le_linkHosts _ _, _, _, A'⟩
    · exact Instance.calm_offered hname hlive n

theorem addPanels (label : String) (start count : Nat) :
    ∀ {T : Ties} {x y : Instance} {s₁ s₂ : Store}, Abreast T i j x y s₁ s₂ →
      Advances T i j (s₁.addPanels i label start count) (s₂.addPanels j label start count) := by
  induction count generalizing start with
  | zero => exact fun A => A.advances
  | succ count ih =>
    intro T x y s₁ s₂ A
    have A' := A.offer (label ++ toString start)
      (f := fun x => { x with panels := x.panels ++ [s₁.hosts.length] })
      (g := fun y => { y with panels := y.panels ++ [s₂.hosts.length] })
      { A.tied.mono fun _ _ => .inl with
        panels := List.rel_append (A.tied.panels.imp fun _ _ => Or.inl)
          (.cons (.inr ⟨rfl, rfl⟩) .nil) }
      rfl (.inl ⟨rfl, rfl⟩) A.calm
    exact Advances.trans ⟨_, T.le_linkHosts _ _, _, _, A'⟩ fun _ _ _ _ A'' => ih (start + 1) A''

/-- A refresh is counted for both or for none. -/
theorem countCheck (A : Abreast T i j x y s₁ s₂) :
    (∃ failure, s₁.countCheck i x = (s₁, .error failure) ∧
      s₂.countCheck j y = (s₂, .error failure)) ∨
    ∃ s₁' s₂', s₁.countCheck i x = (s₁', .ok ()) ∧ s₂.countCheck j y = (s₂', .ok ()) ∧
      Abreast T i j { x with checks := x.checks + 1 } { y with checks := y.checks + 1 }
        s₁' s₂' := by
  unfold Store.countCheck
  have hhidden := A.tied.given? Datum.checks.name
  revert hhidden
  unfold Instance.hidden?
  generalize x.given? Datum.checks.name = a
  generalize y.given? Datum.checks.name = b
  rintro (hm | _)
  · exact .inl ⟨_, rfl, by rw [hm.typeName]⟩
  · have htied : Instance.Tied T.hosts { x with checks := x.checks + 1 }
        { y with checks := y.checks + 1 } :=
      { A.tied with checks := congrArg (· + 1) A.tied.checks }
    exact .inr ⟨_, _, rfl, rfl, A.inside (f := fun x => { x with checks := x.checks + 1 })
      (g := fun y => { y with checks := y.checks + 1 }) rfl rfl rfl rfl htied rfl rfl rfl
      fun _ => rfl⟩

/-- Mount points appear alike for instances that were tied when the refresh began. -/
theorem showOffered {n m : Nat}
    (A : Abreast T i j { x with checks := n } { y with checks := m } s₁ s₂)
    (t : x.Tied T.hosts y) {s : Store} (hlive : s.isGone x = false) :
    (s₁.showOffered i x).2 = (s₂.showOffered j y).2 ∧
      Advances T i j (s₁.showOffered i x).1 (s₂.showOffered j y).1 := by
  have hlength := t.panels.length_eq
  have hmore {name : String} (hname : x.blueprint.host? = some name) (label : String)
      (start count : Nat) :
      Advances T i j ((s₁.showContent i x name).addPanels i label start count)
        ((s₂.showContent j y name).addPanels j label start count) :=
    (A.showContent hname hlive).trans fun _ _ _ _ A' => addPanels label start count A'
  unfold Store.showOffered
  rw [← t.blueprint, ← hlength, ← t.own]
  cases hshape : x.blueprint.shape with
  | leaf => exact ⟨rfl, A.advances⟩
  | bare => exact ⟨rfl, A.advances⟩
  | container name =>
    have hname : x.blueprint.host? = some name := by rw [Blueprint.host?, hshape]
    exact ⟨rfl, A.showContent hname hlive⟩
  | tabs name =>
    have hname : x.blueprint.host? = some name := by rw [Blueprint.host?, hshape]
    have hcount : (s₁.showContent i x name).tabCountOf i =
        (s₂.showContent j y name).tabCountOf j := by
      obtain ⟨T', -, x', y', A'⟩ := A.showContent hname hlive
      rw [tabCountOf, tabCountOf, A'.left, A'.right]
      exact A'.tied.tabCount
    dsimp only
    rw [hcount]
    cases (s₂.showContent j y name).tabCountOf j with
    | error failure => exact ⟨rfl, A.showContent hname hlive⟩
    | ok n => exact ⟨rfl, hmore hname "tabs.panel" _ _⟩
  | spread name label wanted =>
    have hname : x.blueprint.host? = some name := by rw [Blueprint.host?, hshape]
    exact ⟨rfl, hmore hname label _ _⟩

theorem showMounts {n m : Nat}
    (A : Abreast T i j { x with checks := n } { y with checks := m } s₁ s₂)
    (t : x.Tied T.hosts y) {s : Store} (hlive : s.isGone x = false) :
    (s₁.showMounts i x).2 = (s₂.showMounts j y).2 ∧
      Advances T i j (s₁.showMounts i x).1 (s₂.showMounts j y).1 := by
  have hfault : x.contentFault? = y.contentFault? := by
    rw [Instance.contentFault?, Instance.contentFault?, t.blueprint]
  unfold Store.showMounts
  rw [← hfault]
  cases x.contentFault? with
  | some failure => exact ⟨rfl, A.advances⟩
  | none => exact A.showOffered t hlive

/-- Attempts that came to the same may end in one way. -/
theorem advances_andThen {a b : Attempt} {outcome : Except Failure Unit}
    (h : a.2 = b.2 ∧ Advances T i j a.1 b.1) :
    (andThen a fun s => (s, outcome)).2 = (andThen b fun s => (s, outcome)).2 ∧
      Advances T i j (andThen a fun s => (s, outcome)).1 (andThen b fun s => (s, outcome)).1 := by
  obtain ⟨s, answer⟩ := a
  obtain ⟨t, answer'⟩ := b
  obtain ⟨rfl, hadvances⟩ := h
  cases answer with
  | error failure => exact ⟨rfl, hadvances⟩
  | ok _ => exact ⟨rfl, hadvances⟩

/-- A refresh comes to the same, and leaves the instances abreast. -/
theorem refresh (A : Abreast T i j x y s₁ s₂) :
    (s₁.refresh i).2 = (s₂.refresh j).2 ∧ Advances T i j (s₁.refresh i).1 (s₂.refresh j).1 := by
  simp only [Store.refresh, A.left, A.right, ← A.tied.blocked?, ← A.tied.isBare, ← A.tied.blueprint,
    ← A.tied.own, ← A.isGone]
  cases x.blocked? .refresh with
  | some failure => exact ⟨rfl, A.advances⟩
  | none =>
    dsimp only
    cases x.blueprint.hooks.refresh x.own with
    | some failure => exact ⟨rfl, A.advances⟩
    | none =>
      dsimp only
      split
      · exact ⟨rfl, A.advances⟩
      · cases hgone : s₁.isGone x with
        | true => exact ⟨by rw [A.typeText_of_gone hgone]; rfl, A.advances⟩
        | false =>
          rcases A.countCheck with ⟨failure, h₁, h₂⟩ | ⟨s₁', s₂', h₁, h₂, A'⟩
          · rw [h₁, h₂]
            exact ⟨rfl, A.advances⟩
          · rw [h₁, h₂]
            have hend : refreshEnd x = refreshEnd y := by
              rw [refreshEnd, refreshEnd, A.tied.blueprint, A.tied.own]
            rw [← hend]
            exact advances_andThen (A'.showMounts A.tied hgone)

end Abreast

end Store

end ViewTree.Live
