import Mathlib.Order.Defs.Unbundled
import ViewTree.Live.Refresh
import ViewTree.Proofs.Live.Forest

/-
  ViewTree.Proofs.Live.Single — what working on one instance does to a store.

  Setting inputs and attributes, keeping subscriptions and refreshing are done to one
  instance, plain or not. Whatever comes of it, the other instances are left alone, the
  instance stays where it was created, and hosts are only added, empty ones behind those
  that there are; a mount point that the instance has come by is one of these
  (`Store.Alters`). A refresh, moreover, leaves the inputs, the outputs and the kept
  subscriptions of the instance as they are (`Instance.Settled`).
-/

namespace ViewTree.Live

namespace Instance

/-- An instance is of the same make, and where it was. -/
structure Stays (x y : Instance) : Prop where
  blueprint : y.blueprint = x.blueprint
  host : y.host = x.host

/-- What a refresh leaves as it is. -/
structure Settled (x y : Instance) : Prop extends Stays x y where
  inputs : y.inputs = x.inputs
  destroyed : y.destroyed = x.destroyed
  tracked : y.tracked = x.tracked
  outputs : y.outputs = x.outputs

instance : IsPreorder Instance Stays where
  refl _ := ⟨rfl, rfl⟩
  trans _ _ _ h h' := ⟨h'.blueprint.trans h.blueprint, h'.host.trans h.host⟩

instance : IsPreorder Instance Settled where
  refl _ := ⟨⟨rfl, rfl⟩, rfl, rfl, rfl, rfl⟩
  trans _ _ _ h h' := ⟨⟨h'.blueprint.trans h.blueprint, h'.host.trans h.host⟩,
    h'.inputs.trans h.inputs, h'.destroyed.trans h.destroyed, h'.tracked.trans h.tracked,
    h'.outputs.trans h.outputs⟩

/-! ## Members that are hosts -/

variable {x : Instance} {name : String} {g : HostId}

theorem own?_ne_host (x : Instance) (name : String) (g : HostId) :
    x.own? name ≠ some (.host g) := by
  intro h
  rcases Option.or_eq_some_iff.mp h with h | ⟨-, h⟩
  · obtain ⟨d, -, hd⟩ := Option.bind_eq_some_iff.mp h
    unfold datum? at hd
    split at hd
    · cases hd
    · cases d <;> cases hd
  · obtain ⟨o, -, ho⟩ := Option.map_eq_some_iff.mp h
    cases ho

/-- The one host that a container keeps under a name is its content host. -/
theorem content_of_kept? (h : x.kept? name = some (.host g)) :
    x.blueprint.host? = some name ∧ x.content = some g := by
  unfold kept? at h
  split at h
  · cases h
  · rename_i hostName hhost
    split at h
    · cases h
    · split at h
      · rename_i hname
        cases hcontent : x.content with
        | none =>
          rw [hcontent] at h
          cases h
        | some g' =>
          rw [hcontent] at h
          cases h
          exact ⟨hname ▸ hhost, rfl⟩
      · split at h <;> cases h

/-- A host that an instance was given is the one it is in, or its content host. -/
theorem host_of_given? (h : x.given? name = some (.host g)) :
    name = Datum.host.name ∧ x.host = some g ∨
      x.blueprint.host? = some name ∧ x.content = some g := by
  rcases Option.or_eq_some_iff.mp h with hattribute | ⟨-, h⟩
  · obtain ⟨v, -, hv⟩ := Option.map_eq_some_iff.mp hattribute
    cases hv
  · rcases Option.or_eq_some_iff.mp h with hhost | ⟨-, h⟩
    · split at hhost
      · rename_i hname
        obtain ⟨g', hg', hv⟩ := Option.map_eq_some_iff.mp hhost
        cases hv
        exact .inl ⟨hname, hg'⟩
      · cases hhost
    · rcases Option.or_eq_some_iff.mp h with hkept | ⟨-, houtput⟩
      · exact .inr (content_of_kept? hkept)
      · obtain ⟨o, -, ho⟩ := Option.map_eq_some_iff.mp houtput
        cases ho

theorem host_of_member? (h : x.member? name = some (.host g)) : x.host = some g ∨ g ∈ x.places := by
  rcases Option.or_eq_some_iff.mp h with hgiven | ⟨-, hown⟩
  · rcases host_of_given? hgiven with ⟨-, hhost⟩ | ⟨-, hcontent⟩
    · exact .inl hhost
    · exact .inr (List.mem_append_left _ (Option.mem_toList.mpr hcontent))
  · exact absurd hown (own?_ne_host x name g)

end Instance

namespace Store

/-! ## Changes of one instance -/

/-- One instance is changed, in ways that `P` allows, and may come by new mount points. -/
structure Alters (P : Instance → Instance → Prop) (i : InstanceId) (s s' : Store) : Prop where
  length : s'.instances.length = s.instances.length
  others {j : InstanceId} : j ≠ i → s'.instances[j]? = s.instances[j]?
  own {x : Instance} : s.instances[i]? = some x → ∃ y, s'.instances[i]? = some y ∧ P x y ∧
    ∀ g ∈ y.places, g ∈ x.places ∨ s.hosts.length ≤ g ∧ g < s'.hosts.length
  hosts : ∃ fresh, s'.hosts = s.hosts ++ fresh ∧ ∀ host ∈ fresh, host.instances = []

variable {P Q : Instance → Instance → Prop} {i : InstanceId} {s s' s'' : Store}

namespace Alters

theorem hosts_le (a : Alters P i s s') : s.hosts.length ≤ s'.hosts.length := by
  obtain ⟨fresh, hfresh, -⟩ := a.hosts
  rw [hfresh, List.length_append]
  exact Nat.le_add_right _ _

theorem hostName (a : Alters P i s s') {h : HostId} (hlt : h < s.hosts.length) :
    s'.hostName h = s.hostName h := by
  obtain ⟨fresh, hfresh, -⟩ := a.hosts
  rw [Store.hostName, Store.hostName, hfresh, List.getElem?_append_left hlt]

/-- Nothing is mounted and nothing taken away. -/
theorem mounted (a : Alters P i s s') (h : HostId) : s'.mounted h = s.mounted h := by
  obtain ⟨fresh, hfresh, hempty⟩ := a.hosts
  exact mounted_append hempty hfresh h

theorem mono (a : Alters P i s s') (hPQ : ∀ x y, P x y → Q x y) : Alters Q i s s' :=
  { a with
    own := fun hx => by
      obtain ⟨y, hy, hxy, hplaces⟩ := a.own hx
      exact ⟨y, hy, hPQ _ _ hxy, hplaces⟩ }

theorem hostOf (a : Alters Instance.Stays i s s') (j : InstanceId) : s'.hostOf j = s.hostOf j := by
  by_cases hj : j = i
  · subst hj
    rw [Store.hostOf, Store.hostOf]
    cases hx : s.instances[j]? with
    | none =>
      rw [List.getElem?_eq_none_iff, ← a.length, ← List.getElem?_eq_none_iff] at hx
      rw [hx]
    | some x =>
      obtain ⟨y, hy, hstays, -⟩ := a.own hx
      rw [hy, Option.map_some, Option.map_some, hstays.host]
  · rw [Store.hostOf, Store.hostOf, a.others hj]

variable [IsPreorder Instance P]

theorem refl (i : InstanceId) (s : Store) : Alters P i s s where
  length := rfl
  others _ := rfl
  own {x} hx := ⟨x, hx, refl_of P x, fun _ hg => .inl hg⟩
  hosts := ⟨[], (List.append_nil _).symm, fun _ hmem => absurd hmem List.not_mem_nil⟩

theorem trans (a : Alters P i s s') (a' : Alters P i s' s'') : Alters P i s s'' where
  length := a'.length.trans a.length
  others hj := (a'.others hj).trans (a.others hj)
  own hx := by
    obtain ⟨y, hy, hxy, hplaces⟩ := a.own hx
    obtain ⟨z, hz, hyz, hplaces'⟩ := a'.own hy
    refine ⟨z, hz, trans_of P hxy hyz, fun g hg => ?_⟩
    rcases hplaces' g hg with hold | ⟨hlow, hhigh⟩
    · rcases hplaces g hold with hold | ⟨hlow, hhigh⟩
      · exact .inl hold
      · exact .inr ⟨hlow, Nat.lt_of_lt_of_le hhigh a'.hosts_le⟩
    · exact .inr ⟨Nat.le_trans a.hosts_le hlow, hhigh⟩
  hosts := by
    obtain ⟨fresh, hfresh, hempty⟩ := a.hosts
    obtain ⟨fresh', hfresh', hempty'⟩ := a'.hosts
    refine ⟨fresh ++ fresh', by rw [hfresh', hfresh, List.append_assoc], fun host hmem => ?_⟩
    exact (List.mem_append.mp hmem).elim (hempty host) (hempty' host)

end Alters

/-! ## The acts -/

/-- The instance is changed by a function, behind new hosts. -/
theorem alters_update {f : Instance → Instance} (fresh : List Host)
    (hinstances : s'.instances = s.instances.modify i f) (hhosts : s'.hosts = s.hosts ++ fresh)
    (hempty : ∀ host ∈ fresh, host.instances = []) (hP : ∀ x, P x (f x))
    (hplaces : ∀ x, ∀ g ∈ (f x).places,
      g ∈ x.places ∨ s.hosts.length ≤ g ∧ g < s.hosts.length + fresh.length) :
    Alters P i s s' where
  length := by rw [hinstances, List.length_modify]
  others {j} hj := by
    rw [hinstances, List.getElem?_modify_ne f s.instances (Ne.symm hj)]
  own {x} hx := by
    refine ⟨f x, ?_, hP x, ?_⟩
    · rw [hinstances, List.getElem?_modify_eq, hx]
      rfl
    · rw [hhosts, List.length_append]
      exact hplaces x
  hosts := ⟨fresh, hhosts, hempty⟩

/-- The instance is changed and offers what it offered. -/
theorem alters_inside {f : Instance → Instance}
    (hinstances : s'.instances = s.instances.modify i f) (hhosts : s'.hosts = s.hosts)
    (hP : ∀ x, P x (f x)) (hplaces : ∀ x, (f x).places = x.places) : Alters P i s s' :=
  alters_update [] hinstances (hhosts.trans (List.append_nil _).symm)
    (fun _ hmem => absurd hmem List.not_mem_nil) hP fun x _ hg => .inl (hplaces x ▸ hg)

theorem alters_setInput {name : String} {value : Json} (h : s.setInput i name value = .ok s') :
    Alters Instance.Stays i s s' := by
  unfold setInput at h
  split at h
  · cases h
    exact .refl i s
  · split at h
    · cases h
    · split at h
      · cases h
      · cases h
        exact alters_inside rfl rfl (fun _ => ⟨rfl, rfl⟩) fun _ => rfl

theorem alters_giveAttribute {name : String} {value : Json}
    (h : s.giveAttribute i name value = .ok s') : Alters Instance.Stays i s s' := by
  unfold giveAttribute at h
  split at h
  · cases h
  · cases h
    exact alters_inside rfl rfl (fun _ => ⟨rfl, rfl⟩) fun _ => rfl

theorem alters_subscribe (s : Store) (i : InstanceId) (e : EmitterId) (callback : Callback) :
    Alters Instance.Stays i s (s.subscribe e callback).2 :=
  alters_inside (f := id) (List.modify_id _ _).symm rfl (fun _ => ⟨rfl, rfl⟩) fun _ => rfl

theorem alters_track {id : SubscriptionId} (h : s.track i id = .ok s') :
    Alters Instance.Stays i s s' := by
  unfold track at h
  split at h
  · cases h
  · cases h
    exact alters_inside rfl rfl (fun _ => ⟨rfl, rfl⟩) fun _ => rfl

/-! ## Refreshing -/

theorem alters_showContent (s : Store) (i : InstanceId) (x : Instance) (name : String) :
    Alters Instance.Settled i s (s.showContent i x name) := by
  unfold showContent
  split
  · exact .refl i s
  · refine alters_update [⟨s.typeText x ++ "." ++ name, []⟩] rfl rfl
      (by simp) (fun _ => ⟨⟨rfl, rfl⟩, rfl, rfl, rfl, rfl⟩) fun y g hg => ?_
    rcases List.mem_append.mp hg with hg | hg
    · obtain rfl := Option.mem_some.mp (Option.mem_toList.mp hg)
      exact .inr ⟨Nat.le_refl _, Nat.lt_succ_self _⟩
    · exact .inl (List.mem_append_right _ hg)

theorem alters_addPanels (i : InstanceId) (label : String) (start count : Nat) (s : Store) :
    Alters Instance.Settled i s (s.addPanels i label start count) := by
  induction count generalizing s start with
  | zero => exact .refl i s
  | succ count ih =>
    refine .trans ?_ (ih (start + 1) _)
    refine alters_update [⟨label ++ toString start, []⟩] rfl rfl
      (by simp) (fun _ => ⟨⟨rfl, rfl⟩, rfl, rfl, rfl, rfl⟩) fun y g hg => ?_
    rw [Instance.places, ← List.append_assoc] at hg
    rcases List.mem_append.mp hg with hg | hg
    · exact .inl hg
    · obtain rfl := List.mem_singleton.mp hg
      exact .inr ⟨Nat.le_refl _, Nat.lt_succ_self _⟩

theorem alters_showOffered (s : Store) (i : InstanceId) (x : Instance) :
    Alters Instance.Settled i s (s.showOffered i x).1 := by
  unfold showOffered
  split
  · exact .refl i s
  · exact .refl i s
  · exact alters_showContent s i x _
  · dsimp only
    split
    · exact alters_showContent s i x _
    · exact (alters_showContent s i x _).trans (alters_addPanels ..)
  · exact (alters_showContent s i x _).trans (alters_addPanels ..)

theorem alters_showMounts (s : Store) (i : InstanceId) (x : Instance) :
    Alters Instance.Settled i s (s.showMounts i x).1 := by
  unfold showMounts
  split
  · exact .refl i s
  · exact alters_showOffered s i x

theorem alters_countCheck (s : Store) (i : InstanceId) (x : Instance) :
    Alters Instance.Settled i s (s.countCheck i x).1 := by
  unfold countCheck
  split
  · exact .refl i s
  · exact alters_inside rfl rfl (fun _ => ⟨⟨rfl, rfl⟩, rfl, rfl, rfl, rfl⟩) fun _ => rfl

theorem alters_andThen [IsPreorder Instance P] {first : Attempt} {next : Store → Attempt}
    (h : Alters P i s first.1) (h' : ∀ t, Alters P i t (next t).1) :
    Alters P i s (andThen first next).1 := by
  obtain ⟨t, outcome⟩ := first
  cases outcome with
  | error failure => exact h
  | ok _ => exact h.trans (h' t)

theorem alters_refresh (s : Store) (i : InstanceId) :
    Alters Instance.Settled i s (s.refresh i).1 := by
  unfold refresh
  split
  · exact .refl i s
  · rename_i x hx
    split
    · exact .refl i s
    · split
      · exact .refl i s
      · split
        · exact .refl i s
        · split
          · exact .refl i s
          · exact alters_andThen (alters_countCheck s i x) fun t =>
              alters_andThen (alters_showMounts t i x) fun t => .refl i t

end Store

end ViewTree.Live
