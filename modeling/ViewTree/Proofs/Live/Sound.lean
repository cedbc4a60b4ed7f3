import ViewTree.Proofs.Live.Wiring

/-
  ViewTree.Proofs.Live.Sound — stores in which nothing is leaked, and how they grow.

  A store is sound when its instances are plain, its instances and hosts are a forest and
  it is wired. What rendering does to a store keeps it sound: an instance is created in a
  root host or one that a live instance offers, inputs are set, a callback is subscribed and the
  subscription kept, mount points appear. None of this brings an instance back or takes
  one away, and hosts that were there are offered by the same instances (`Grows`).
-/

namespace ViewTree.Live.Store

structure Sound (clearing : List HostId) (s : Store) : Prop where
  plain {i : InstanceId} {x : Instance} : s.instances[i]? = some x → x.Plain
  forest : Forest clearing s
  wiring : Wiring s

/-- Instances and hosts are added, and those that were there stay what they are. -/
structure Grows (s s' : Store) : Prop where
  hosts_le : s.hosts.length ≤ s'.hosts.length
  instances_le : s.instances.length ≤ s'.instances.length
  alive {i : InstanceId} : i < s.instances.length → (s'.Alive i ↔ s.Alive i)
  emittersOf {i : InstanceId} : i < s.instances.length → s'.emittersOf i = s.emittersOf i
  offers {i : InstanceId} {h : HostId} : h ∈ s.offered i → h ∈ s'.offered i
  offered {i : InstanceId} {h : HostId} :
    h < s.hosts.length → h ∈ s'.offered i → h ∈ s.offered i

/-- A host to create instances in. -/
structure Receives (s : Store) (h : HostId) : Prop where
  lt : h < s.hosts.length
  upheld : s.Upheld h

variable {s s' s'' : Store} {i : InstanceId} {h : HostId} {x y : Instance}
variable {clearing : List HostId}

theorem Root.receives (hroot : s.Root h) : s.Receives h :=
  ⟨hroot.1, .inl hroot.2⟩

namespace Grows

theorem refl (s : Store) : Grows s s :=
  ⟨Nat.le_refl _, Nat.le_refl _, fun _ => Iff.rfl, fun _ => rfl, fun hoffered => hoffered,
    fun _ hoffered => hoffered⟩

theorem trans (g : Grows s s') (g' : Grows s' s'') : Grows s s'' where
  hosts_le := Nat.le_trans g.hosts_le g'.hosts_le
  instances_le := Nat.le_trans g.instances_le g'.instances_le
  alive hlt := (g'.alive (Nat.lt_of_lt_of_le hlt g.instances_le)).trans (g.alive hlt)
  emittersOf hlt :=
    (g'.emittersOf (Nat.lt_of_lt_of_le hlt g.instances_le)).trans (g.emittersOf hlt)
  offers hoffered := g'.offers (g.offers hoffered)
  offered hlt hoffered := g.offered hlt (g'.offered (Nat.lt_of_lt_of_le hlt g.hosts_le) hoffered)

theorem keepsAlive (g : Grows s s') (halive : s.Alive i) : s'.Alive i :=
  (g.alive halive.lt).mpr halive

theorem receives (g : Grows s s') (hreceives : s.Receives h) : s'.Receives h where
  lt := Nat.lt_of_lt_of_le hreceives.lt g.hosts_le
  upheld := by
    rcases hreceives.upheld with hroot | ⟨i, hoffered, halive⟩
    · exact .inl fun i hoffered => hroot i (g.offered hreceives.lt hoffered)
    · exact .inr ⟨i, g.offers hoffered, g.keepsAlive halive⟩

end Grows

namespace Sound

theorem exists_plain (S : Sound clearing s) (halive : s.Alive i) :
    ∃ x, s.instances[i]? = some x ∧ x.Plain ∧ x.destroyed = false := by
  obtain ⟨x, hx, hlive⟩ := halive.exists_some
  exact ⟨x, hx, S.plain hx, hlive⟩

theorem plain_set (S : Sound clearing s) (hy : y.Plain) {j : InstanceId} {z : Instance}
    (hz : (s.instances.set i y)[j]? = some z) : z.Plain := by
  rcases List.mem_or_eq_of_mem_set (List.mem_of_getElem? hz) with hmem | rfl
  · obtain ⟨k, hk⟩ := List.mem_iff_getElem?.mp hmem
    exact S.plain hk
  · exact hy

/-! ## New instances -/

theorem create (S : Sound clearing s) {b : Blueprint} (hb : b.Plain) (hreceives : s.Receives h) :
    Sound clearing (s.created h b) ∧ Grows s (s.created h b) ∧
      (s.created h b).Alive s.instances.length := by
  have hinstances : (s.created h b).instances = s.instances ++ [s.born h b] := rfl
  refine ⟨⟨?_, ?_, ?_⟩, ⟨?_, ?_, ?_, ?_, ?_, ?_⟩, ?_⟩
  · intro i x hx
    rw [hinstances, List.getElem?_append] at hx
    split at hx
    · exact S.plain hx
    · rw [List.mem_singleton.mp (List.mem_of_getElem? hx)]
      exact s.born_plain h hb
  · exact S.forest.create b hreceives.lt hreceives.upheld
  · exact S.wiring.create h b
  · exact Nat.le_of_eq (s.hosts_length_created h b).symm
  · rw [hinstances, List.length_append]
    exact Nat.le_add_right _ _
  · intro i hlt
    rw [alive_created]
    exact or_iff_right (Nat.ne_of_lt hlt)
  · intro i hlt
    rw [emittersOf_created, if_neg (Nat.ne_of_lt hlt)]
  · exact fun {i _} hmem => (s.offered_created h b i).symm ▸ hmem
  · exact fun {i _} _ hmem => s.offered_created h b i ▸ hmem
  · exact (s.alive_created h b _).mpr (.inl rfl)

/-! ## Changes of one instance -/

/-- A change of what an instance shows or offers, where what it offers anew is new. -/
theorem adjust (S : Sound clearing s) (hx : s.instances[i]? = some x) (hy : y.Plain)
    (hhost : y.host = x.host) (hdestroyed : y.destroyed = x.destroyed)
    (htracked : y.tracked = x.tracked) (houtputs : y.outputs = x.outputs) (fresh : List Host)
    (hfresh : ∀ host ∈ fresh, host.instances = []) (hkept : ∀ h ∈ x.places, h ∈ y.places)
    (hplaces : ∀ h ∈ y.places,
      h ∈ x.places ∨ s.hosts.length ≤ h ∧ h < s.hosts.length + fresh.length)
    (hs' : s' = { s with hosts := s.hosts ++ fresh, instances := s.instances.set i y }) :
    Sound clearing s' ∧ Grows s s' := by
  subst hs'
  have hlength : (s.hosts ++ fresh).length = s.hosts.length + fresh.length := List.length_append
  have hle : s.hosts.length ≤ (s.hosts ++ fresh).length := hlength ▸ Nat.le_add_right _ _
  have halive (j : InstanceId) : ({ s with
      hosts := s.hosts ++ fresh, instances := s.instances.set i y } : Store).Alive j ↔
        s.Alive j := by
    rw [Alive, Alive, map_set hx hdestroyed]
  have hemittersOf (j : InstanceId) : ({ s with
      hosts := s.hosts ++ fresh, instances := s.instances.set i y } : Store).emittersOf j =
        s.emittersOf j := by
    rw [Store.emittersOf, Store.emittersOf, map_set hx (by rw [houtputs])]
  have hoffered (j : InstanceId) (h : HostId) (hmem : h ∈ ({ s with
      hosts := s.hosts ++ fresh, instances := s.instances.set i y } : Store).offered j) :
        h ∈ s.offered j ∨ s.hosts.length ≤ h ∧ h < (s.hosts ++ fresh).length := by
    rw [Store.offered, List.getElem?_set] at hmem
    split at hmem
    · rename_i heq
      subst heq
      rw [if_pos (List.getElem?_eq_some_iff.mp hx).1] at hmem
      rw [offered_some hx, hlength]
      exact hplaces h hmem
    · exact .inl hmem
  have hoffers (j : InstanceId) (h : HostId) (hmem : h ∈ s.offered j) : h ∈ ({ s with
      hosts := s.hosts ++ fresh, instances := s.instances.set i y } : Store).offered j := by
    rw [Store.offered, List.getElem?_set]
    split
    · rename_i heq
      subst heq
      rw [offered_some hx] at hmem
      rw [if_pos (List.getElem?_eq_some_iff.mp hx).1]
      exact hkept h hmem
    · exact hmem
  refine ⟨⟨?_, ?_, ?_⟩, ⟨hle, ?_, ?_, ?_, ?_, ?_⟩⟩
  · exact fun hz => S.plain_set hy hz
  · refine S.forest.extend hle (mounted_append hfresh rfl) (fun j => ?_) halive hoffers hoffered
    rw [hostOf, hostOf, map_set hx hhost]
  · refine S.wiring.unchanged rfl rfl hemittersOf (fun j => ?_) halive
    rw [keptBy, keptBy, map_set hx htracked]
  · exact Nat.le_of_eq List.length_set.symm
  · exact fun _ => halive _
  · exact fun _ => hemittersOf _
  · exact hoffers _ _
  · intro j h hlt hmem
    exact (hoffered j h hmem).resolve_right fun hnew => absurd hlt (Nat.not_lt.mpr hnew.1)

theorem setInputs (S : Sound clearing s) (hx : s.instances[i]? = some x) (inputs : Fields) :
    Sound clearing { s with instances := s.instances.set i { x with inputs } } ∧
      Grows s { s with instances := s.instances.set i { x with inputs } } := by
  have hplain := S.plain hx
  have hy : { x with inputs }.Plain := ⟨hplain.blueprint, hplain.attributes, hplain.outputs,
    hplain.content, hplain.panels⟩
  refine S.adjust hx hy rfl rfl rfl rfl [] (fun _ hmem => absurd hmem List.not_mem_nil)
    (fun _ hmem => hmem) (fun _ hmem => .inl hmem) ?_
  rw [List.append_nil]

/-- Panels and the content host that appear are new and empty. -/
theorem refresh (S : Sound clearing s) (halive : s.Alive i) :
    Sound clearing (s.refresh i).1 ∧ Grows s (s.refresh i).1 := by
  obtain ⟨x, hx, hplain, hlive⟩ := S.exists_plain halive
  rw [refresh_live hx hplain hlive, refreshed]
  exact S.adjust hx (hplain.refreshed _) rfl rfl rfl rfl x.newMounts
    (fun _ => Instance.newMounts_empty) (fun _ => Instance.mem_refreshed_places)
    (fun _ => Instance.mem_places_refreshed) rfl

/-! ## Subscriptions -/

theorem listen (S : Sound clearing s) (hx : s.instances[i]? = some x)
    (hlive : x.destroyed = false) {e : EmitterId} (hemitter : e ∈ s.emittersOf i)
    (callback : Callback) :
    Sound clearing (s.listening i x e callback) ∧ Grows s (s.listening i x e callback) := by
  have hplain := S.plain hx
  let y : Instance := { x with tracked := x.tracked ++ [s.subscriptions.length] }
  have hy : y.Plain := ⟨hplain.blueprint, hplain.attributes, hplain.outputs, hplain.content,
    hplain.panels⟩
  have hinstances : (s.listening i x e callback).instances = s.instances.set i y := rfl
  have hoffered (j : InstanceId) : (s.listening i x e callback).offered j = s.offered j := by
    rw [Store.offered, Store.offered, hinstances, map_set hx]
    rfl
  refine ⟨⟨?_, ?_, ?_⟩, ⟨Nat.le_refl _, Nat.le_of_eq List.length_set.symm, ?_, ?_, ?_, ?_⟩⟩
  · exact fun hz => S.plain_set hy (hinstances ▸ hz)
  · refine S.forest.extend (Nat.le_refl _) (fun _ => rfl) (fun j => ?_) (fun j => ?_)
      (fun j h hmem => (hoffered j).symm ▸ hmem) fun j h hmem => .inl (hoffered j ▸ hmem)
    · rw [hostOf, hostOf, hinstances, map_set hx]
      rfl
    · exact alive_listening hx e callback j
  · exact S.wiring.listen hx hlive hemitter callback
  · exact fun {j} _ => alive_listening hx e callback j
  · exact fun {j} _ => emittersOf_listening hx e callback j
  · exact fun {j _} hmem => (hoffered j).symm ▸ hmem
  · exact fun {j _} _ hmem => hoffered j ▸ hmem

/-! ## Root hosts -/

theorem newHost (S : Sound clearing s) (name : String) : Sound clearing (s.newHost name).2 where
  plain := S.plain
  forest := by
    have hempty : ∀ host ∈ [(⟨name, []⟩ : Host)], host.instances = [] := by simp
    exact S.forest.extend (by simp [Store.newHost]) (mounted_append hempty rfl) (fun _ => rfl)
      (fun _ => Iff.rfl) (fun _ _ hmem => hmem) fun _ _ hmem => .inl hmem
  wiring := S.wiring.unchanged rfl rfl (fun _ => rfl) (fun _ => rfl) fun _ => Iff.rfl

theorem nothing : Sound [] Store.empty where
  plain hx := by cases hx
  forest :=
    { host_lt := nofun, offered_lt := nofun, below := nofun, knows := nofun, alive := nofun,
      once := fun _ => List.nodup_nil, housed := nofun }
  wiring :=
    { emitter_lt := nofun, owner := nofun, listening := fun _ => .nil, kept := nofun,
      released := fun _ => rfl }

end Sound

end ViewTree.Live.Store
