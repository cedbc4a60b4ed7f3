import ViewTree.Proofs.Live.Wiring

/-
  ViewTree.Proofs.Live.Additions — stores to which something was added, and nothing else
  was changed.

  What is added comes behind what there is: instances, emitters, subscriptions and hosts,
  and instances behind those that a host holds (`Adds`). New instances have hosts and
  emitters that are new as well. So of two additions one after the other, the second one
  leaves alone what the first one brought, as long as it adds to none of its hosts: two
  stores agree on the instances of the first (`Agree`).
-/

namespace ViewTree.Live.Store

/-- Things are added to a store; `into` tells which instances each of the hosts receives. -/
structure Adds (into : HostId → List InstanceId) (s s' : Store) : Prop where
  instances : s.instances <+: s'.instances
  emitters : s.emitters <+: s'.emitters
  subscriptions : s.subscriptions <+: s'.subscriptions
  hosts_le : s.hosts.length ≤ s'.hosts.length
  mounted {g : HostId} : g < s.hosts.length → s'.mounted g = s.mounted g ++ into g
  offered {i : InstanceId} {g : HostId} :
    s.instances.length ≤ i → g ∈ s'.offered i → s.hosts.length ≤ g ∧ g < s'.hosts.length
  emittersOf {i : InstanceId} {e : EmitterId} :
    s.instances.length ≤ i → e ∈ s'.emittersOf i → e < s'.emitters.length

/-- All is added in one host. -/
def only (h : HostId) (added : List InstanceId) : HostId → List InstanceId :=
  fun g => if g = h then added else []

/-- Two stores agree on some instances, on what these offer and on who listens to them. -/
structure Agree (P : InstanceId → Prop) (s s' : Store) : Prop where
  instances {i : InstanceId} {x : Instance} :
    P i → s.instances[i]? = some x → s'.instances[i]? = some x
  mounted {i : InstanceId} {g : HostId} : P i → g ∈ s.offered i → s'.mounted g = s.mounted g
  listeners {i : InstanceId} {e : EmitterId} :
    P i → e ∈ s.emittersOf i → s'.listeners e = s.listeners e
  subscriptions {id : SubscriptionId} {sub : Subscription} :
    s.subscriptions[id]? = some sub → s'.subscriptions[id]? = some sub

variable {s s' s'' : Store} {i : InstanceId} {g h : HostId} {x y : Instance}
variable {into into' : HostId → List InstanceId} {P : InstanceId → Prop}

theorem getElem?_front {α : Type} {l l' : List α} (h : l <+: l') {n : Nat}
    (hn : n < l.length) : l'[n]? = l[n]? := by
  obtain ⟨behind, rfl⟩ := h
  exact List.getElem?_append_left hn

theorem getElem?_front_some {α : Type} {l l' : List α} (h : l <+: l') {n : Nat} {a : α}
    (hn : l[n]? = some a) : l'[n]? = some a :=
  (getElem?_front h (List.getElem?_eq_some_iff.mp hn).1).trans hn

theorem concat_set {α : Type} (l : List α) (a b : α) : (l ++ [a]).set l.length b = l ++ [b] := by
  simp

namespace Adds

theorem refl (s : Store) : Adds (fun _ => []) s s where
  instances := List.prefix_refl _
  emitters := List.prefix_refl _
  subscriptions := List.prefix_refl _
  hosts_le := Nat.le_refl _
  mounted _ := (List.append_nil _).symm
  offered hle hmem := absurd (lt_of_offered hmem) (Nat.not_lt.mpr hle)
  emittersOf {i e} hle hmem := by
    rw [Store.emittersOf, List.getElem?_eq_none hle] at hmem
    cases hmem

theorem offered_eq (a : Adds into s s') (hlt : i < s.instances.length) :
    s'.offered i = s.offered i := by
  rw [Store.offered, Store.offered, getElem?_front a.instances hlt]

theorem emittersOf_eq (a : Adds into s s') (hlt : i < s.instances.length) :
    s'.emittersOf i = s.emittersOf i := by
  rw [Store.emittersOf, Store.emittersOf, getElem?_front a.instances hlt]

theorem trans (a : Adds into s s') (a' : Adds into' s' s'') :
    Adds (fun g => into g ++ into' g) s s'' where
  instances := a.instances.trans a'.instances
  emitters := a.emitters.trans a'.emitters
  subscriptions := a.subscriptions.trans a'.subscriptions
  hosts_le := Nat.le_trans a.hosts_le a'.hosts_le
  mounted hlt := by
    rw [a'.mounted (Nat.lt_of_lt_of_le hlt a.hosts_le), a.mounted hlt, List.append_assoc]
  offered {i g} hle hmem := by
    rcases Nat.lt_or_ge i s'.instances.length with hlt | hge
    · obtain ⟨hlow, hhigh⟩ := a.offered hle (a'.offered_eq hlt ▸ hmem)
      exact ⟨hlow, Nat.lt_of_lt_of_le hhigh a'.hosts_le⟩
    · obtain ⟨hlow, hhigh⟩ := a'.offered hge hmem
      exact ⟨Nat.le_trans a.hosts_le hlow, hhigh⟩
  emittersOf {i e} hle hmem := by
    rcases Nat.lt_or_ge i s'.instances.length with hlt | hge
    · exact Nat.lt_of_lt_of_le (a.emittersOf hle (a'.emittersOf_eq hlt ▸ hmem))
        a'.emitters.length_le
    · exact a'.emittersOf hge hmem

theorem congr (a : Adds into s s') (hinto : ∀ g < s.hosts.length, into' g = into g) :
    Adds into' s s' :=
  { a with mounted := fun hlt => by rw [hinto _ hlt, a.mounted hlt] }

/-- A new instance changes, but for what it offers and its outputs. -/
theorem set (a : Adds into s s') (hle : s.instances.length ≤ i) (hx : s'.instances[i]? = some x)
    (hplaces : y.places = x.places) (houtputs : y.outputs = x.outputs) :
    Adds into s { s' with instances := s'.instances.set i y } :=
  { a with
    instances := by
      rw [List.prefix_iff_getElem?]
      intro j hj
      rw [List.getElem?_set, if_neg (Nat.ne_of_gt (Nat.lt_of_lt_of_le hj hle))]
      exact List.prefix_iff_getElem?.mp a.instances j hj
    offered := fun {j g} hj hmem => by
      rw [Store.offered, map_set hx hplaces] at hmem
      exact a.offered hj hmem
    emittersOf := fun {j e} hj hmem => by
      rw [Store.emittersOf, map_set hx (congrArg (List.map Prod.snd) houtputs)] at hmem
      exact a.emittersOf hj hmem }

/-- A second addition leaves alone what the first one brought. -/
theorem agree (a : Adds into s s') (a' : Adds into' s' s'')
    (hinto : ∀ g, s.hosts.length ≤ g → into' g = []) :
    Agree (fun i => s.instances.length ≤ i ∧ i < s'.instances.length) s' s'' where
  instances _ hx := getElem?_front_some a'.instances hx
  mounted hi hmem := by
    obtain ⟨hlow, hhigh⟩ := a.offered hi.1 hmem
    rw [a'.mounted hhigh, hinto _ hlow, List.append_nil]
  listeners hi hmem := by
    rw [Store.listeners, Store.listeners,
      getElem?_front a'.emitters (a.emittersOf hi.1 hmem)]
  subscriptions hsub := getElem?_front_some a'.subscriptions hsub

end Adds

namespace Agree

/-- One instance changes, and those that are another one do not. -/
theorem set (s : Store) (i : InstanceId) (y : Instance) :
    Agree (· ≠ i) s { s with instances := s.instances.set i y } where
  instances {j x} hne hx := by
    rw [List.getElem?_set, if_neg (Ne.symm hne)]
    exact hx
  mounted _ _ := rfl
  listeners _ _ := rfl
  subscriptions hsub := hsub

end Agree

end ViewTree.Live.Store
