import ViewTree.Proofs.Render.Image
import ViewTree.Proofs.Render.Joint

/-
  ViewTree.Proofs.Render.Landing — where the instances of a pass come to stand.

  A node is rendered in stages: an instance is asked for (`settle`), prepared (`furnish`)
  and given children (`house`), and each stage may be the last one.

  With any registry and whatever goes wrong: a node creates its instance at the end of its
  place, before those of its children, or none at all, and then the store is as it was
  (`Lands`). What is done up to its children and behind them is work on the one new
  instance (`Works`), and the places for its children are hosts that this offers, or the
  host that it is in itself. So the instances of a result are those that the pass created,
  in order, and a host that there was is empty in the end if it was empty and nothing was
  mounted in it (`LandsAll.empty_iff`).
-/

namespace ViewTree.Render

open Live

/-! ## The stages of a node -/

/-- What becomes of the children of an instance, once their places were looked for. -/
def house (c : Context) (node : Node) (i : InstanceId) (warnings : List String) :
    Except Failure Places → Act RenderResult
  | .error failure => abandoned node i [] warnings failure
  | .ok .nowhere => do
    let warning ← homeless (node.type.getD "") node.children.length
    finish node i [] (warnings ++ [warning])
  | .ok (.together place) => do
    let results ← renderTogether c place node.children
    finish node i results warnings
  | .ok (.onePerPanel panels) => do
    let (results, more) ← renderApart c (node.type.getD "") panels 0 node.children
    finish node i results (warnings ++ more)

/-- What becomes of an instance, once it was prepared. -/
def furnish (c : Context) (node : Node) (i : InstanceId) :
    List String × Except Failure Unit → Act RenderResult
  | (warnings, .error failure) => abandoned node i [] warnings failure
  | (warnings, .ok _) =>
    if node.children.isEmpty then finish node i [] warnings
    else placesOf c i (node.type.getD "") >>= house c node i warnings

/-- What becomes of a node, once an instance of it was asked for. -/
def settle (c : Context) (node : Node) : Except RenderFault InstanceId → Act RenderResult
  | .error fault => do
    Act.note [.error source "render_failed"
      [("type", typeJson node.type), ("error", .str fault.message)]]
    return .failed (some node) fault.message
  | .ok i => prepare node i >>= furnish c node i

theorem renderNode_eq (c : Context) (target : Option Member) (node : Node) :
    renderNode c target node = instantiate c node target >>= settle c node := by
  obtain ⟨id, type, props, children, events, extras, source⟩ := node
  rw [renderNode]
  refine bind_congr fun made => ?_
  cases made with
  | error fault => rfl
  | ok i =>
    refine bind_congr fun prepared => ?_
    obtain ⟨warnings, outcome⟩ := prepared
    cases outcome with
    | error failure => rfl
    | ok _ =>
      dsimp only [furnish]
      split
      · rfl
      · refine bind_congr fun places => ?_
        match places with
        | .error failure => rfl
        | .ok .nowhere => rfl
        | .ok (.together place) => rfl
        | .ok (.onePerPanel panels) => rfl

/-! ## Work on one instance -/

section Works

variable {α β : Type}

/-- An action works on one instance, and its answer and the store it leaves are as
    described. -/
def Works (i : InstanceId) (P : Store → Prop) (act : Act α) (Q : α → Store → Prop) : Prop :=
  ∀ w, P w.store → w.store.Alters Instance.Stays i (act.run w).2.store ∧
    Q (act.run w).1 (act.run w).2.store

abbrev always : Store → Prop := fun _ => True

abbrev whatever : α → Store → Prop := fun _ _ => True

variable {i : InstanceId} {P : Store → Prop} {act : Act α} {R : α → Store → Prop} {f : α → Act β}
variable {Q : β → Store → Prop}

theorem Works.bind (h : Works i P act R) (k : ∀ a, Works i (R a) (f a) Q) :
    Works i P (act >>= f) Q := by
  intro w hw
  obtain ⟨halters, hanswer⟩ := h w hw
  obtain ⟨halters', hanswer'⟩ := k _ _ hanswer
  exact ⟨halters.trans halters', hanswer'⟩

theorem works_pure {a : α} (h : ∀ s, P s → R a s) : Works i P (pure a) R :=
  fun w hw => ⟨.refl i w.store, h _ hw⟩

theorem works_done {a : α} : Works i P (pure a) whatever := works_pure fun _ _ => trivial

theorem works_note (entries : Telemetry.Journal) : Works i P (Act.note entries) (fun _ => P) :=
  fun w hw => ⟨.refl i w.store, hw⟩

theorem works_ofStore (g : Store → α) :
    Works i P (Act.ofStore g) (fun a s => P s ∧ a = g s) :=
  fun w hw => ⟨.refl i w.store, hw, rfl⟩

theorem works_change {g : Store → Except Failure Store}
    (h : ∀ s s', g s = .ok s' → s.Alters Instance.Stays i s') :
    Works i P (Act.change g) whatever := by
  intro w _
  refine ⟨?_, trivial⟩
  cases hg : g w.store with
  | ok s =>
    rw [Act.run_change_ok w hg]
    exact h _ _ hg
  | error failure =>
    have herror : (g w.store).map (fun s => ((), s)) = .error failure := by rw [hg]; rfl
    rw [Act.change, Act.run_attempt_error w herror]
    exact .refl i w.store

theorem works_refresh (i : InstanceId) : Works i P (Act.refresh i) whatever :=
  fun w _ => ⟨(Store.alters_refresh w.store i).mono fun _ _ h => h.toStays, trivial⟩

theorem works_bindProps (i : InstanceId) (asInputs : Bool) (props : Fields) :
    Works i P (bindProps i asInputs props) whatever := by
  induction props generalizing P with
  | nil => exact works_done
  | cons prop rest ih =>
    obtain ⟨name, value⟩ := prop
    unfold bindProps
    refine (works_change fun s s' hset => ?_).bind fun outcome => ?_
    · split at hset
      · exact Store.alters_setInput hset
      · exact Store.alters_giveAttribute hset
    · cases outcome with
      | error failure => exact works_done
      | ok _ => exact ih

theorem works_listen (i : InstanceId) (e : EmitterId) (callback : Callback) :
    Works i P (listen i e callback) whatever := by
  unfold listen
  have hsubscribe : Works i P (Act.update (·.subscribe e callback)) whatever :=
    fun w _ => ⟨w.store.alters_subscribe i e callback, trivial⟩
  refine hsubscribe.bind fun subscription => (works_ofStore _).bind fun tracks => ?_
  split
  · exact works_change fun s s' htrack => Store.alters_track htrack
  · exact works_done

theorem works_bindEvents (i : InstanceId) (type : String) (events : Fields) :
    Works i P (bindEvents i type events) whatever := by
  induction events generalizing P with
  | nil => exact works_done
  | cons event rest ih =>
    obtain ⟨name, handler⟩ := event
    unfold bindEvents
    cases Callback.ofBinding? handler with
    | none => exact (works_note _).bind fun _ => ih.bind fun _ => works_done
    | some callback =>
      refine (works_ofStore _).bind fun output => ?_
      cases output with
      | none => exact (works_note _).bind fun _ => ih.bind fun _ => works_done
      | some e =>
        refine (works_listen i e callback).bind fun outcome => ?_
        cases outcome with
        | error failure => exact works_done
        | ok _ => exact ih

theorem works_prepare (node : Node) (i : InstanceId) : Works i P (prepare node i) whatever := by
  unfold prepare
  refine (works_ofStore _).bind fun asInputs => (works_bindProps i _ _).bind fun outcome => ?_
  cases outcome with
  | error failure => exact works_done
  | ok _ =>
    refine (works_bindEvents i _ _).bind fun bound => ?_
    obtain ⟨warnings, outcome⟩ := bound
    cases outcome with
    | error failure => exact works_done
    | ok _ => exact (works_refresh i).bind fun _ => works_done

end Works

/-! ## Places for children -/

/-- An instance is in a host, or offers it. -/
def Near (i : InstanceId) (g : HostId) (s : Store) : Prop :=
  ∃ x, s.instances[i]? = some x ∧ (x.host = some g ∨ g ∈ x.places)

section Near

variable {s : Store} {i : InstanceId} {g : HostId}

theorem near_of_mount? {name : String} (h : s.mount? i name = some (.host g)) : Near i g s := by
  obtain ⟨hmember, -⟩ := Option.filter_eq_some_iff.mp h
  obtain ⟨x, hx, hmember⟩ := Option.bind_eq_some_iff.mp hmember
  exact ⟨x, hx, Instance.host_of_member? hmember⟩

theorem near_of_childPanels? {panels : List HostId} (h : s.childPanels? i = some panels)
    (hg : g ∈ panels) : Near i g s := by
  unfold Store.childPanels? at h
  split at h
  · cases h
  · rename_i x hx
    split at h
    · cases h
      exact ⟨x, hx, .inr (List.mem_append_right _ hg)⟩
    · cases h

end Near

/-- The hosts that are found for children are near the instance. -/
def Near.All (i : InstanceId) (places : Places) (s : Store) : Prop :=
  match places with
  | .nowhere => True
  | .together m => ∀ g, m = .host g → Near i g s
  | .onePerPanel panels => ∀ g ∈ panels, Near i g s

section Places

variable {P : Store → Prop}

theorem works_panelsOf (i : InstanceId) :
    Works i P (panelsOf i) (fun a s => ∀ panels, a = .ok panels → ∀ g ∈ panels, Near i g s) := by
  unfold panelsOf
  refine (works_ofStore _).bind fun fault => ?_
  cases fault with
  | some failure => exact works_pure fun _ _ => nofun
  | none =>
    refine (works_ofStore _).bind fun found => ?_
    match found with
    | none =>
      refine works_pure fun _ _ panels hpanels => ?_
      cases hpanels
      exact nofun
    | some [] =>
      refine (works_refresh i).bind fun outcome => ?_
      cases outcome with
      | error failure => exact works_pure fun _ _ => nofun
      | ok _ =>
        refine (works_ofStore _).bind fun panels' => works_pure fun s hs panels hpanels g hg => ?_
        cases hpanels
        rw [hs.2] at hg
        cases hfound : s.childPanels? i with
        | none => simp [hfound] at hg
        | some panels => exact near_of_childPanels? hfound (by simpa [hfound] using hg)
    | some (p :: rest) =>
      refine works_pure fun s hs panels hpanels g hg => ?_
      cases hpanels
      exact near_of_childPanels? hs.2.symm hg

theorem works_placesOf (c : Context) (i : InstanceId) (type : String) :
    Works i P (placesOf c i type) (fun a s => ∀ places, a = .ok places → Near.All i places s) := by
  have hnowhere {P' : Store → Prop} : Works i P' (pure (.ok .nowhere : Except Failure Places))
      (fun a s => ∀ places, a = .ok places → Near.All i places s) := by
    refine works_pure fun _ _ places hplaces => ?_
    cases hplaces
    trivial
  unfold placesOf
  cases c.registry.capability? type with
  | none => exact hnowhere
  | some capability =>
    dsimp only
    split
    · exact hnowhere
    · refine (works_panelsOf i).bind fun found => ?_
      match found with
      | .error failure => exact works_pure fun _ _ => nofun
      | .ok [] =>
        refine (works_ofStore _).bind fun place => ?_
        cases place with
        | none => exact hnowhere
        | some m =>
          refine works_pure fun s hs places hplaces => ?_
          cases hplaces
          intro g hg
          exact near_of_mount? (hg ▸ hs.2.symm)
      | .ok (p :: rest) =>
        refine works_pure fun s hs places hplaces => ?_
        cases hplaces
        exact hs _ rfl

end Places

/-! ## Where things land -/

/-- What a node leaves in a store: its own instance, first of all that are new, at the end of
    its place, or nothing. -/
structure Lands (target : Option Member) (s : Store) (r : RenderResult) (s' : Store) : Prop where
  spreads : s.Spreads (fun g => target = some (.host g)) s'
  components : r.components =
    List.range' s.instances.length (s'.instances.length - s.instances.length)
  absent : r.component = none → s' = s
  present {i : InstanceId} : r.component = some i →
    i = s.instances.length ∧ ∃ h, target = some (.host h) ∧ i ∈ s'.mounted h

/-- What children leave in a store, with the place of each of them. -/
structure LandsAll (place : Nat → Option Member) (s : Store) (results : List RenderResult)
    (s' : Store) : Prop where
  spreads : s.Spreads (fun g => ∃ k, place k = some (.host g)) s'
  components : RenderResult.componentsOf results =
    List.range' s.instances.length (s'.instances.length - s.instances.length)
  empty_iff {g : HostId} : g < s.hosts.length →
    (s'.mounted g = [] ↔ s.mounted g = [] ∧
      ∀ k r, results[k]? = some r → place k = some (.host g) → r.component = none)

section Landing

variable {s s₁ s' : Store} {target : Option Member} {r : RenderResult} {h g : HostId}
variable {i : InstanceId} {place : Nat → Option Member} {results : List RenderResult}

theorem Lands.nothing {schema : Option Node} {error : String} (target : Option Member) (s : Store) :
    Lands target s (.failed schema error) s where
  spreads := .refl _ s
  components := by
    rw [Nat.sub_self]
    rfl
  absent _ := rfl
  present hsome := by cases hsome

/-- A host is empty if it was empty, unless it is the place of a node that has an instance. -/
theorem Lands.empty_iff (L : Lands target s r s') (hlt : g < s.hosts.length) :
    s'.mounted g = [] ↔
      s.mounted g = [] ∧ (target = some (.host g) → r.component = none) := by
  by_cases htarget : target = some (.host g)
  · cases hcomponent : r.component with
    | none =>
      rw [L.absent hcomponent]
      exact (and_iff_left fun _ => rfl).symm
    | some i =>
      obtain ⟨-, h, hplace, hmem⟩ := L.present hcomponent
      obtain rfl : h = g := by
        rw [hplace] at htarget
        cases htarget
        rfl
      exact iff_of_false (List.ne_nil_of_mem hmem) fun hand => by cases hand.2 htarget
  · rw [L.spreads.mounted_eq hlt htarget]
    exact (and_iff_left fun h => absurd h htarget).symm

theorem LandsAll.nil (place : Nat → Option Member) (s : Store) : LandsAll place s [] s where
  spreads := .refl _ s
  components := by
    rw [Nat.sub_self]
    rfl
  empty_iff _ := (and_iff_left fun k r hr => by cases hr).symm

theorem LandsAll.cons (L : Lands (place 0) s r s₁)
    (A : LandsAll (fun k => place (k + 1)) s₁ results s') : LandsAll place s (r :: results) s' where
  spreads := by
    refine (L.spreads.mono fun g _ hg => ⟨0, hg⟩).trans A.spreads ?_
    rintro g ⟨k, hk⟩
    exact .inl ⟨k + 1, hk⟩
  components := by
    rw [RenderResult.componentsOf, L.components, A.components]
    exact range'_append_range' L.spreads.instances.length_le A.spreads.instances.length_le
  empty_iff hlt := by
    rw [A.empty_iff (Nat.lt_of_lt_of_le hlt L.spreads.hosts_le), L.empty_iff hlt, and_assoc]
    refine and_congr_right fun _ => ⟨?_, fun hall =>
      ⟨hall 0 r rfl, fun k r' hr' => hall (k + 1) r' hr'⟩⟩
    rintro ⟨hhead, htail⟩ k
    cases k with
    | zero =>
      intro r' hr'
      cases hr'
      exact hhead
    | succ k => exact htail k

/-! ### A node underway -/

/-- The instance of a node was created in its place, and nothing but it and what is below
    it has come since; what it offers came with it. -/
structure Underway (s : Store) (h : HostId) (s' : Store) : Prop where
  spreads : s.Spreads (· = h) s'
  lt : s.instances.length < s'.instances.length
  mem : s.instances.length ∈ s'.mounted h
  near {g : HostId} : Near s.instances.length g s' → g = h ∨ s.hosts.length ≤ g
  inside {g : HostId} : Near s.instances.length g s' → g < s'.hosts.length

theorem underway_of_makes {b : Blueprint} {x : Instance} (m : s.Makes h b x s')
    (hlt : h < s.hosts.length) : Underway s h s' where
  spreads := m.spreads hlt
  lt := m.length ▸ Nat.lt_succ_self _
  mem := by
    rw [m.mounted hlt, if_pos rfl]
    exact List.mem_concat_self
  near := by
    rintro g ⟨y, hy, hnear⟩
    obtain rfl : x = y := Option.some.inj (m.found.symm.trans hy)
    rw [m.host, m.places] at hnear
    exact .inl (hnear.elim (fun heq => (Option.some.inj heq).symm) fun hmem => by cases hmem)
  inside := by
    rintro g ⟨y, hy, hnear⟩
    obtain rfl : x = y := Option.some.inj (m.found.symm.trans hy)
    rw [m.host, m.places] at hnear
    rcases hnear with heq | hmem
    · cases heq
      exact m.hosts_length ▸ hlt
    · cases hmem

namespace Underway

/-- A host near an instance that was worked on was near it before, or is new. -/
theorem near_before {s s' : Store} (a : s.Alters Instance.Stays i s') (hlt : i < s.instances.length)
    (hnear : Near i g s') : Near i g s ∨ s.hosts.length ≤ g ∧ g < s'.hosts.length := by
  obtain ⟨y, hy, hg⟩ := hnear
  obtain ⟨z, hz, hstays, hplaces⟩ := a.own (List.getElem?_eq_getElem hlt)
  obtain rfl : y = z := Option.some.inj (hy.symm.trans hz)
  rcases hg with hg | hg
  · exact .inl ⟨_, List.getElem?_eq_getElem hlt, .inl (hstays.host ▸ hg)⟩
  · rcases hplaces g hg with hold | hnew
    · exact .inl ⟨_, List.getElem?_eq_getElem hlt, .inr hold⟩
    · exact .inr hnew

theorem alter (U : Underway s h s₁) (a : s₁.Alters Instance.Stays s.instances.length s') :
    Underway s h s' where
  spreads := U.spreads.alter a (Nat.le_refl _)
  lt := a.length ▸ U.lt
  mem := (a.mounted h).symm ▸ U.mem
  near hnear := by
    rcases near_before a U.lt hnear with hold | ⟨hnew, -⟩
    · exact U.near hold
    · exact .inr (Nat.le_trans U.spreads.hosts_le hnew)
  inside hnear := by
    rcases near_before a U.lt hnear with hold | ⟨-, hnew⟩
    · exact Nat.lt_of_lt_of_le (U.inside hold) a.hosts_le
    · exact hnew

/-- What comes behind an instance leaves alone what is near it. -/
theorem near_behind (p : s₁.instances <+: s'.instances) (hlt : i < s₁.instances.length)
    (hnear : Near i g s') : Near i g s₁ := by
  obtain ⟨x, hx, hg⟩ := hnear
  obtain ⟨more, hmore⟩ := p
  rw [← hmore, List.getElem?_append_left hlt] at hx
  exact ⟨x, hx, hg⟩

/-- Children come to stand in hosts near the instance. -/
theorem children (U : Underway s h s₁) (A : LandsAll place s₁ results s')
    (hplace : ∀ k g, place k = some (.host g) → Near s.instances.length g s₁) :
    Underway s h s' where
  spreads := U.spreads.trans A.spreads fun g ⟨k, hk⟩ => U.near (hplace k g hk)
  lt := Nat.lt_of_lt_of_le U.lt A.spreads.instances.length_le
  mem := A.spreads.mem_mounted U.mem
  near hnear := U.near (near_behind A.spreads.instances U.lt hnear)
  inside hnear := Nat.lt_of_lt_of_le (U.inside (near_behind A.spreads.instances U.lt hnear))
    A.spreads.hosts_le

/-- The result of a node whose children were rendered. -/
theorem lands (U : Underway s h s') {schema : Option Node} {error : Option String}
    {warnings : List String}
    (hcomponents : RenderResult.componentsOf results =
      List.range' (s.instances.length + 1) (s'.instances.length - (s.instances.length + 1))) :
    Lands (some (.host h)) s ⟨some s.instances.length, schema, error, results, warnings⟩ s' where
  spreads := U.spreads.mono fun g _ hg => hg ▸ rfl
  components := by
    have hlt := U.lt
    rw [RenderResult.components, hcomponents, Option.toList_some, List.singleton_append,
      ← List.range'_succ]
    congr 1
    omega
  absent hnone := by cases hnone
  present hsome := by
    cases hsome
    exact ⟨rfl, h, rfl, U.mem⟩

end Underway

end Landing

/-! ## Rendering -/

section Rendering

variable {w : World} {h : HostId} {s : Store}

/-- An instance is created in a host, or everything is as it was. -/
theorem run_instantiate_cases (c : Context) (node : Node) (target : Option Member) (w : World) :
    (∃ fault, ((instantiate c node target).run w).1 = .error fault ∧
      ((instantiate c node target).run w).2.store = w.store) ∨
    ∃ h b x, target = some (.host h) ∧
      ((instantiate c node target).run w).1 = .ok w.store.instances.length ∧
      w.store.Makes h b x ((instantiate c node target).run w).2.store := by
  have hself (m : Member) : m.Tied (· = ·) m := by
    cases m
    case host h => exact .host rfl
    all_goals exact .same nofun
  have htarget : Option.Rel (Member.Tied (· = ·)) target target := by
    cases target with
    | none => exact .none
    | some m => exact .some (hself m)
  rcases instantiate_pair (T := ⟨(· = ·), (· = ·)⟩) rfl rfl htarget w w with
    ⟨fault, hanswer, -, hstore, -⟩ | ⟨m, -, rfl, -, g, -, b, x, -, rfl, -, -, hanswer, -, hmakes, -⟩
  · exact .inl ⟨fault, hanswer, hstore⟩
  · exact .inr ⟨g, b, x, rfl, hanswer, hmakes⟩

/-- The instance of a node is underway, and there is nothing below it. -/
structure Alone (s : Store) (h : HostId) (s' : Store) : Prop extends Underway s h s' where
  length : s'.instances.length = s.instances.length + 1

theorem Alone.works {α : Type} {act : Act α} {Q : α → Store → Prop} (A : Alone s h w.store)
    (hact : Works s.instances.length always act Q) :
    Alone s h (act.run w).2.store ∧ Q (act.run w).1 (act.run w).2.store := by
  obtain ⟨halters, hanswer⟩ := hact w trivial
  exact ⟨⟨A.toUnderway.alter halters, halters.length.trans A.length⟩, hanswer⟩

theorem lands_abandoned {results : List RenderResult} (U : Underway s h w.store)
    (hresults : RenderResult.componentsOf results =
      List.range' (s.instances.length + 1) (w.store.instances.length - (s.instances.length + 1)))
    (node : Node) (warnings : List String) (failure : Failure) :
    Lands (some (.host h)) s
      ((abandoned node s.instances.length results warnings failure).run w).1
      ((abandoned node s.instances.length results warnings failure).run w).2.store :=
  U.lands hresults

theorem lands_finish {results : List RenderResult} (U : Underway s h w.store)
    (hresults : RenderResult.componentsOf results =
      List.range' (s.instances.length + 1) (w.store.instances.length - (s.instances.length + 1)))
    (node : Node) (warnings : List String) :
    Lands (some (.host h)) s ((finish node s.instances.length results warnings).run w).1
      ((finish node s.instances.length results warnings).run w).2.store := by
  have hrefresh := (works_refresh (P := always) s.instances.length w trivial).1
  have U' := U.alter hrefresh
  rw [← hrefresh.length] at hresults
  rw [finish, Act.run_bind]
  revert U' hresults
  generalize (Act.refresh s.instances.length).run w = refreshed
  obtain ⟨outcome, w'⟩ := refreshed
  intro hresults U'
  cases outcome with
  | error failure => exact lands_abandoned U' hresults node warnings failure
  | ok _ => exact U'.lands hresults

theorem Alone.no_children (A : Alone s h w.store) : RenderResult.componentsOf [] =
    List.range' (s.instances.length + 1) (w.store.instances.length - (s.instances.length + 1)) := by
  rw [A.length, Nat.sub_self]
  rfl

/-- A child that is refused leaves nothing. -/
theorem lands_unlessRefused (c : Context) {target : Option Member} (child : Node)
    {run : Act RenderResult} (w : World)
    (hrun : ∀ w' : World, w'.store = w.store →
      Lands target w'.store (run.run w').1 (run.run w').2.store) :
    Lands target w.store ((unlessRefused c child run).run w).1
      ((unlessRefused c child run).run w).2.store := by
  have hrefuse : ((refuse c child).run w).2.store = w.store ∧
      ∀ r, ((refuse c child).run w).1 = some r → ∃ error, r = .failed (some child) error := by
    unfold refuse
    split
    · exact ⟨rfl, nofun⟩
    · rw [Act.run_bind]
      split
      · exact ⟨rfl, nofun⟩
      · exact ⟨rfl, fun r hr => ⟨_, (Option.some.inj hr).symm⟩⟩
  rw [unlessRefused, Act.run_bind]
  revert hrefuse
  generalize (refuse c child).run w = refused
  obtain ⟨answer, w'⟩ := refused
  rintro ⟨hstore, hfailed⟩
  cases answer with
  | none => exact hstore ▸ hrun w' hstore
  | some r =>
    obtain ⟨error, rfl⟩ := hfailed r rfl
    exact hstore ▸ Lands.nothing target w'.store

/-- Children come behind their parent, in places near it. -/
theorem lands_house {c : Context} {node : Node} {warnings : List String}
    {found : Except Failure Places} (A : Alone s h w.store)
    (hnear : ∀ places, found = .ok places → Near.All s.instances.length places w.store)
    (htogether : ∀ place, (∀ g, place = .host g → g < w.store.hosts.length) →
      LandsAll (fun _ => some place) w.store ((renderTogether c place node.children).run w).1
        ((renderTogether c place node.children).run w).2.store)
    (hapart : ∀ panels, (∀ g ∈ panels, g < w.store.hosts.length) →
      LandsAll (fun k => (panels[0 + k]?).map .host) w.store
        ((renderApart c (node.type.getD "") panels 0 node.children).run w).1.1
        ((renderApart c (node.type.getD "") panels 0 node.children).run w).2.store) :
    Lands (some (.host h)) s
      ((house c node s.instances.length warnings found).run w).1
      ((house c node s.instances.length warnings found).run w).2.store := by
  match found with
  | .error failure => exact lands_abandoned A.toUnderway A.no_children _ _ _
  | .ok .nowhere =>
    rw [house, Act.run_bind]
    have A' : Alone s h ((homeless (node.type.getD "") node.children.length).run w).2.store := A
    exact lands_finish A'.toUnderway A'.no_children _ _
  | .ok (.together place) =>
    rw [house, Act.run_bind]
    have hplace (g : HostId) (hg : place = .host g) := hnear _ rfl g hg
    have L := htogether place fun g hg => A.inside (hplace g hg)
    have U := A.toUnderway.children L fun _ g hg => hplace g (Option.some.inj hg)
    exact lands_finish U (A.length ▸ L.components) _ _
  | .ok (.onePerPanel panels) =>
    rw [house, Act.run_bind]
    have hpanels (g : HostId) (hg : g ∈ panels) := hnear _ rfl g hg
    have L := hapart panels fun g hg => A.inside (hpanels g hg)
    have U := A.toUnderway.children L fun k g hg => by
      obtain ⟨p, hp, hpg⟩ := Option.map_eq_some_iff.mp hg
      cases hpg
      exact hpanels _ (List.mem_of_getElem? hp)
    exact lands_finish U (A.length ▸ L.components) _ _

mutual
/-- Whatever comes of a node, its instance comes first, at the end of its place. -/
theorem lands_node (c : Context) (target : Option Member) : ∀ (node : Node) (w : World),
    (∀ h, target = some (.host h) → h < w.store.hosts.length) →
    Lands target w.store ((renderNode c target node).run w).1
      ((renderNode c target node).run w).2.store
  | ⟨id, type, props, children, events, extras, component⟩, w, htarget => by
    rw [renderNode_eq, Act.run_bind]
    rcases run_instantiate_cases c ⟨id, type, props, children, events, extras, component⟩ target w
      with ⟨fault, hanswer, hstore⟩ | ⟨h, b, x, rfl, hanswer, hmakes⟩
    · rw [hanswer]
      exact hstore ▸ Lands.nothing target _
    · have A : Alone w.store h _ := ⟨underway_of_makes hmakes (htarget h rfl), hmakes.length⟩
      rw [hanswer, settle, Act.run_bind]
      have A := (A.works (works_prepare
        ⟨id, type, props, children, events, extras, component⟩ _)).1
      revert A
      generalize (prepare _ _).run _ = prepared
      obtain ⟨⟨warnings, outcome⟩, w₁⟩ := prepared
      intro A
      cases outcome with
      | error failure => exact lands_abandoned A.toUnderway A.no_children _ _ _
      | ok _ =>
        rw [furnish]
        split
        · exact lands_finish A.toUnderway A.no_children _ _
        · rw [Act.run_bind]
          have hplaces := A.works (works_placesOf c _ (type.getD ""))
          exact lands_house hplaces.1 hplaces.2
            (fun place => lands_together c place children _)
            (fun panels => lands_apart c (type.getD "") panels 0 children _)

theorem lands_together (c : Context) (place : Member) : ∀ (children : List Node) (w : World),
    (∀ h, place = .host h → h < w.store.hosts.length) →
    LandsAll (fun _ => some place) w.store ((renderTogether c place children).run w).1
      ((renderTogether c place children).run w).2.store
  | [], w, _ => .nil _ w.store
  | child :: rest, w, hplace => by
    have L := lands_unlessRefused c child w fun w' hw' =>
      lands_node c (some place) child w' fun h hh => hw' ▸ hplace h (Option.some.inj hh)
    rw [renderTogether, Act.run_bind, Act.run_bind]
    exact .cons L <| lands_together c place rest _ fun h hh =>
      Nat.lt_of_lt_of_le (hplace h hh) L.spreads.hosts_le

theorem lands_apart (c : Context) (type : String) (panels : List HostId) (index : Nat) :
    ∀ (children : List Node) (w : World), (∀ h ∈ panels, h < w.store.hosts.length) →
    LandsAll (fun k => (panels[index + k]?).map .host) w.store
      ((renderApart c type panels index children).run w).1.1
      ((renderApart c type panels index children).run w).2.store
  | [], w, _ => .nil _ w.store
  | child :: rest, w, hpanels => by
    rw [renderApart]
    cases hpanel : panels[index]? with
    | some h =>
      have L := lands_unlessRefused c child w fun w' hw' =>
        lands_node c (some (.host h)) child w' fun g hg => by
          cases hg
          exact hw' ▸ hpanels h (List.mem_of_getElem? hpanel)
      dsimp only
      rw [Act.run_bind, Act.run_bind]
      have A := lands_apart c type panels (index + 1) rest
        ((unlessRefused c child (renderNode c (some (.host h)) child)).run w).2
        fun g hg => Nat.lt_of_lt_of_le (hpanels g hg) L.spreads.hosts_le
      simp only [Nat.add_right_comm index 1] at A
      refine .cons ?_ A
      rw [Nat.add_zero, hpanel]
      exact L
    | none =>
      dsimp only
      rw [Act.run_bind, Act.run_bind]
      have hle := List.getElem?_eq_none_iff.mp hpanel
      have hbeyond : (fun k => (panels[index + k]?).map Member.host) =
          fun k => (panels[index + 1 + k]?).map Member.host := by
        funext k
        rw [List.getElem?_eq_none (by omega : panels.length ≤ index + k),
          List.getElem?_eq_none (by omega : panels.length ≤ index + 1 + k)]
      rw [hbeyond]
      exact lands_apart c type panels (index + 1) rest ((unplaced type index panels.length).run w).2
        hpanels
end

theorem lands_child (c : Context) (place : Member) (child : Node) (w : World)
    (hplace : ∀ h, place = .host h → h < w.store.hosts.length) :
    Lands (some place) w.store ((renderChild c place child).run w).1
      ((renderChild c place child).run w).2.store :=
  lands_unlessRefused c child w fun w' hw' =>
    lands_node c (some place) child w' fun h hh => hw' ▸ hplace h (Option.some.inj hh)

end Rendering

end ViewTree.Render
