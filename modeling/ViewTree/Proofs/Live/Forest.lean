import Mathlib.Data.List.Nodup
import ViewTree.Proofs.Live.Growth

/-
  ViewTree.Proofs.Live.Forest — instances sit in hosts, and hosts are offered by instances.

  A host that no instance offers is a root. What is reached from the roots, through the
  instances in a host and the hosts that these offer, is reachable. In a forest
  (`Store.Forest`) the live instances are those: every live instance is in the host it
  names, which is a root or offered by a live one, and what is in a host is live. Numbers go up on
  the way down (`Forest.below`), so nothing is reached from itself.

  While hosts are being cleared they hold instances that are destroyed already; a forest
  is taken up to the list of those hosts, and between two acts the list is empty.

  Shown here: creating an instance keeps a forest, and so does every act that only adds
  empty hosts. Destroying takes two further steps, which `Destruction` puts together: an
  instance below which there is nothing is marked, and a host of marked instances is
  emptied.
-/

namespace ViewTree.Live

namespace Instance

/-- The hosts that an instance offers. -/
def places (x : Instance) : List HostId := x.content.toList ++ x.panels

theorem mem_refreshed_places {x : Instance} {h next : HostId} (hmem : h ∈ x.places) :
    h ∈ (x.refreshed next).places := by
  rcases List.mem_append.mp hmem with hmem | hmem
  · refine List.mem_append_left _ (Option.mem_toList.mpr ?_)
    change x.content.or _ = _
    rw [Option.mem_toList.mp hmem]
    rfl
  · exact List.mem_append_right _ (List.mem_append_left _ hmem)

/-- What an instance offers behind a refresh it offered before, or it appeared. -/
theorem mem_places_refreshed {x : Instance} {h next : HostId} (hmem : h ∈ (x.refreshed next).places) :
    h ∈ x.places ∨ next ≤ h ∧ h < next + x.newMounts.length := by
  have hlength : x.newMounts.length = x.newContent.length + x.newPanels := by
    rw [newMounts, List.length_append, List.length_map, List.length_range']
  rw [hlength]
  rcases List.mem_append.mp hmem with hmem | hmem
  · rw [Option.mem_toList] at hmem
    rcases Option.or_eq_some_iff.mp hmem with hcontent | ⟨hnone, hnew⟩
    · exact .inl (List.mem_append_left _ (Option.mem_toList.mpr hcontent))
    · obtain ⟨name, hhost, rfl⟩ := Option.map_eq_some_iff.mp hnew
      have hone : x.newContent.length = 1 := by simp [newContent, hhost, hnone]
      rw [hone]
      exact .inr ⟨Nat.le_refl _, Nat.lt_add_of_pos_right (Nat.add_comm 1 _ ▸ Nat.succ_pos _)⟩
  · rcases List.mem_append.mp hmem with hmem | hmem
    · exact .inl (List.mem_append_right _ hmem)
    · have hrange := List.mem_range'_1.mp hmem
      exact .inr ⟨Nat.le_trans (Nat.le_add_right _ _) hrange.1, Nat.add_assoc _ _ _ ▸ hrange.2⟩

/-- The first hosts that an instance offers are different ones. -/
theorem places_refreshed_nodup {x : Instance} (hnone : x.places = []) (next : HostId) :
    (x.refreshed next).places.Nodup := by
  obtain ⟨hcontent, hpanels⟩ := List.append_eq_nil_iff.mp hnone
  rw [Option.toList_eq_nil_iff] at hcontent
  change ((x.content.or _).toList ++ (x.panels ++ List.range' _ _)).Nodup
  rw [hcontent, hpanels, Option.none_or, List.nil_append]
  refine List.nodup_append.mpr ⟨?_, List.nodup_range', ?_⟩
  · cases x.blueprint.host? <;> simp
  · intro g hg g' hg'
    obtain ⟨name, hhost, rfl⟩ := Option.map_eq_some_iff.mp (Option.mem_toList.mp hg)
    have hone : x.newContent.length = 1 := by simp [newContent, hhost, hcontent]
    rw [hone] at hg'
    exact Nat.ne_of_lt (List.mem_range'_1.mp hg').1

end Instance

namespace Store

/-! ## Reading a store -/

/-- The host that an instance names as its own. -/
def hostOf (s : Store) (i : InstanceId) : Option HostId := ((s.instances[i]?).map Instance.host).join

def offered (s : Store) (i : InstanceId) : List HostId :=
  ((s.instances[i]?).map Instance.places).getD []

/-- The instance was created and not destroyed. -/
def Alive (s : Store) (i : InstanceId) : Prop :=
  (s.instances[i]?).map Instance.destroyed = some false

instance (s : Store) (i : InstanceId) : Decidable (s.Alive i) :=
  inferInstanceAs (Decidable (_ = _))

/-- A host that is not part of an instance. -/
def Root (s : Store) (h : HostId) : Prop := h < s.hosts.length ∧ ∀ i, h ∉ s.offered i

/-- A host that stands on its own, or that a live instance offers. -/
def Upheld (s : Store) (h : HostId) : Prop :=
  (∀ i, h ∉ s.offered i) ∨ ∃ i, h ∈ s.offered i ∧ s.Alive i

/-- Instances that are reached from a root host. -/
inductive Reachable (s : Store) : InstanceId → Prop where
  | inRoot {h : HostId} {i : InstanceId} : s.Root h → i ∈ s.mounted h → Reachable s i
  | inPlace {h : HostId} {i j : InstanceId} :
    Reachable s j → h ∈ s.offered j → i ∈ s.mounted h → Reachable s i

variable {s s' : Store} {i j : InstanceId} {h : HostId} {x y : Instance}

theorem Alive.of_some (hx : s.instances[i]? = some x) (hlive : x.destroyed = false) : s.Alive i := by
  rw [Alive, hx, Option.map_some, hlive]

theorem Alive.exists_some (halive : s.Alive i) :
    ∃ x, s.instances[i]? = some x ∧ x.destroyed = false :=
  Option.map_eq_some_iff.mp halive

theorem Alive.lt (halive : s.Alive i) : i < s.instances.length := by
  obtain ⟨x, hx, -⟩ := halive.exists_some
  exact (List.getElem?_eq_some_iff.mp hx).1

theorem hostOf_some (hx : s.instances[i]? = some x) : s.hostOf i = x.host := by
  rw [hostOf, hx]
  rfl

theorem offered_some (hx : s.instances[i]? = some x) : s.offered i = x.places := by
  rw [offered, hx]
  rfl

theorem exists_of_hostOf (hhost : s.hostOf i = some h) :
    ∃ x, s.instances[i]? = some x ∧ x.host = some h := by
  cases hx : s.instances[i]? with
  | none =>
    rw [hostOf, hx] at hhost
    cases hhost
  | some x => exact ⟨x, rfl, hostOf_some hx ▸ hhost⟩

theorem lt_of_offered (hoffered : h ∈ s.offered i) : i < s.instances.length := by
  rcases Nat.lt_or_ge i s.instances.length with hlt | hge
  · exact hlt
  · rw [offered, List.getElem?_eq_none hge] at hoffered
    cases hoffered

instance (s : Store) (h : HostId) : Decidable (s.Root h) :=
  decidable_of_iff (h < s.hosts.length ∧ ∀ i < s.instances.length, h ∉ s.offered i) <|
    and_congr_right fun _ =>
      ⟨fun hroot i hoffered => hroot i (lt_of_offered hoffered) hoffered, fun hroot i _ => hroot i⟩

/-! ## Changed lists

What an instance looks like after another one was changed, or after one was added. -/

theorem map_set {β : Type} {g : Instance → β} {l : List Instance} (hx : l[i]? = some x)
    (hg : g y = g x) (j : Nat) : ((l.set i y)[j]?).map g = (l[j]?).map g := by
  rw [List.getElem?_set]
  split
  · rename_i heq
    subst heq
    rw [if_pos (List.getElem?_eq_some_iff.mp hx).1, hx, Option.map_some, Option.map_some, hg]
  · rfl

theorem map_concat {β : Type} (g : Instance → β) (l : List Instance) (y : Instance)
    (j : Nat) :
    ((l ++ [y])[j]?).map g = if j = l.length then some (g y) else (l[j]?).map g := by
  split
  · rename_i heq
    rw [heq, List.getElem?_concat_length, Option.map_some]
  · rename_i hne
    rw [List.getElem?_append]
    split
    · rfl
    · rename_i hge
      rw [List.getElem?_eq_none (by omega : l.length ≤ j), List.getElem?_eq_none]
      simp only [List.length_singleton]
      omega

theorem mounted_append {fresh : List Host} (hfresh : ∀ host ∈ fresh, host.instances = [])
    (hhosts : s'.hosts = s.hosts ++ fresh) (h : HostId) : s'.mounted h = s.mounted h := by
  rw [mounted, mounted, hhosts, List.getElem?_append]
  split
  · rfl
  · rename_i hge
    rw [List.getElem?_eq_none (Nat.le_of_not_lt hge)]
    cases hfound : fresh[h - s.hosts.length]? with
    | none => rfl
    | some host => exact hfresh host (List.mem_of_getElem? hfound)

theorem mounted_modify {f : Host → Host} {g : List InstanceId → List InstanceId}
    (hf : ∀ host, (f host).instances = g host.instances)
    (hhosts : s'.hosts = s.hosts.modify h f) (hlt : h < s.hosts.length) (h' : HostId) :
    s'.mounted h' = if h' = h then g (s.mounted h') else s.mounted h' := by
  rw [mounted, mounted, hhosts, List.getElem?_modify]
  split
  · rename_i heq
    subst heq
    rw [if_pos rfl, List.getElem?_eq_getElem hlt]
    exact hf _
  · rename_i hne
    rw [if_neg (Ne.symm hne)]
    cases s.hosts[h']? <;> rfl

theorem mounted_emptyHost (h h' : HostId) :
    (s.emptyHost h).mounted h' = if h' = h then [] else s.mounted h' := by
  rw [mounted, emptyHost, List.getElem?_modify]
  cases hfound : s.hosts[h']? with
  | none => simp [mounted, hfound]
  | some host =>
    split
    · rename_i heq
      rw [if_pos heq.symm]
      rfl
    · rename_i hne
      rw [if_neg (Ne.symm hne), mounted, hfound]
      rfl

/-! ## A store with a new instance -/

theorem hosts_length_created (s : Store) (h : HostId) (b : Blueprint) :
    (s.created h b).hosts.length = s.hosts.length :=
  List.length_modify ..

theorem mounted_created (b : Blueprint) (hlt : h < s.hosts.length) (h' : HostId) :
    (s.created h b).mounted h' =
      if h' = h then s.mounted h' ++ [s.instances.length] else s.mounted h' :=
  mounted_modify (g := (· ++ [s.instances.length])) (fun _ => rfl) rfl hlt h'

theorem hostOf_created (s : Store) (h : HostId) (b : Blueprint) (i : InstanceId) :
    (s.created h b).hostOf i = if i = s.instances.length then some h else s.hostOf i := by
  rw [hostOf, hostOf, created, map_concat]
  split <;> rfl

theorem alive_created (s : Store) (h : HostId) (b : Blueprint) (i : InstanceId) :
    (s.created h b).Alive i ↔ i = s.instances.length ∨ s.Alive i := by
  rw [Alive, Alive, created, map_concat]
  split
  · rename_i heq
    exact ⟨fun _ => .inl heq, fun _ => rfl⟩
  · rename_i hne
    exact ⟨.inr, fun hor => hor.resolve_left hne⟩

/-- A new instance has nothing to offer. -/
theorem offered_created (s : Store) (h : HostId) (b : Blueprint) (i : InstanceId) :
    (s.created h b).offered i = s.offered i := by
  rw [offered, offered, created, map_concat]
  split
  · rename_i heq
    rw [heq, List.getElem?_eq_none (Nat.le_refl _)]
    rfl
  · rfl

theorem Upheld.created (h : HostId) (b : Blueprint) {h' : HostId} (hupheld : s.Upheld h') :
    (s.created h b).Upheld h' := by
  rcases hupheld with hroot | ⟨j, hj, hlive⟩
  · exact .inl fun j hj => hroot j (s.offered_created h b j ▸ hj)
  · exact .inr ⟨j, (s.offered_created h b j).symm ▸ hj, (s.alive_created h b j).mpr (.inr hlive)⟩

/-! ## Forests -/

/-- The live instances are those that are reached, up to hosts that are being cleared. -/
structure Forest (clearing : List HostId) (s : Store) : Prop where
  host_lt {i : InstanceId} {h : HostId} : s.hostOf i = some h → h < s.hosts.length
  offered_lt {i : InstanceId} {h : HostId} : h ∈ s.offered i → h < s.hosts.length
  /-- What is in a host is younger than what offers the host. -/
  below {i j : InstanceId} {h : HostId} : s.hostOf i = some h → h ∈ s.offered j → j < i
  /-- An instance names the host it is in. -/
  knows {i : InstanceId} {h : HostId} : i ∈ s.mounted h → s.hostOf i = some h
  alive {i : InstanceId} {h : HostId} : i ∈ s.mounted h → s.Alive i ∨ h ∈ clearing
  once (h : HostId) : (s.mounted h).Nodup
  housed {i : InstanceId} :
    s.Alive i → ∃ h, s.hostOf i = some h ∧ i ∈ s.mounted h ∧ s.Upheld h

namespace Forest

variable {clearing clearing' : List HostId}

theorem mono (F : Forest clearing s) (hsub : ∀ h ∈ clearing, h ∈ clearing') : Forest clearing' s :=
  { F with alive := fun hmounted => (F.alive hmounted).imp_right (hsub _) }

/-- A host with nothing in it is no longer being cleared. -/
theorem cleared (F : Forest (h :: clearing) s) (hempty : s.mounted h = []) : Forest clearing s :=
  { F with
    alive := fun {i h'} hmounted => (F.alive hmounted).imp_right fun hmem => by
      rcases List.mem_cons.mp hmem with rfl | hmem
      · rw [hempty] at hmounted
        cases hmounted
      · exact hmem }

/-! ### Between two acts -/

theorem alive_of_mounted (F : Forest [] s) (hmounted : i ∈ s.mounted h) : s.Alive i :=
  (F.alive hmounted).resolve_right List.not_mem_nil

theorem alive_of_reachable (F : Forest [] s) (hreachable : s.Reachable i) : s.Alive i := by
  cases hreachable with
  | inRoot _ hmounted => exact F.alive_of_mounted hmounted
  | inPlace _ _ hmounted => exact F.alive_of_mounted hmounted

/-- By induction on the number of the instance: what offers its host has a smaller one. -/
theorem reachable_of_alive (F : Forest [] s) (halive : s.Alive i) : s.Reachable i := by
  induction i using Nat.strongRecOn with
  | ind i ih =>
    obtain ⟨h, hhost, hmounted, hroot | ⟨j, hj, hlive⟩⟩ := F.housed halive
    · exact .inRoot ⟨F.host_lt hhost, hroot⟩ hmounted
    · exact .inPlace (ih j (F.below hhost hj) hlive) hj hmounted

theorem alive_iff_reachable (F : Forest [] s) : s.Alive i ↔ s.Reachable i :=
  ⟨F.reachable_of_alive, F.alive_of_reachable⟩

/-- A live instance is in the host it names, once, and in no other. -/
theorem count_mounted (F : Forest [] s) (halive : s.Alive i) :
    ∃ h, s.hostOf i = some h ∧ ∀ h', (s.mounted h').count i = if h' = h then 1 else 0 := by
  obtain ⟨h, hhost, hmounted, -⟩ := F.housed halive
  refine ⟨h, hhost, fun h' => ?_⟩
  split
  · rename_i heq
    subst heq
    exact List.count_eq_one_of_mem (F.once h') hmounted
  · rename_i hne
    refine List.count_eq_zero_of_not_mem fun hmem => hne ?_
    exact Option.some.inj ((F.knows hmem).symm.trans hhost)

/-! ### What keeps a forest -/

/-- An act that adds empty hosts, which instances may offer from then on. -/
theorem extend (F : Forest clearing s) (hhosts : s.hosts.length ≤ s'.hosts.length)
    (hmounted : ∀ h, s'.mounted h = s.mounted h) (hhost : ∀ i, s'.hostOf i = s.hostOf i)
    (halive : ∀ i, s'.Alive i ↔ s.Alive i)
    (hoffers : ∀ i h, h ∈ s.offered i → h ∈ s'.offered i)
    (hoffered : ∀ i h, h ∈ s'.offered i →
      h ∈ s.offered i ∨ s.hosts.length ≤ h ∧ h < s'.hosts.length) : Forest clearing s' := by
  -- a host that is named was there before, so it is no new one that is offered
  have hold {i j : InstanceId} {h : HostId} (hnamed : s.hostOf i = some h)
      (hnew : h ∈ s'.offered j) : h ∈ s.offered j :=
    (hoffered j h hnew).resolve_right fun hfresh =>
      absurd (F.host_lt hnamed) (Nat.not_lt.mpr hfresh.1)
  constructor
  case host_lt =>
    intro i h hnamed
    rw [hhost] at hnamed
    exact Nat.lt_of_lt_of_le (F.host_lt hnamed) hhosts
  case offered_lt =>
    intro i h hoffer
    rcases hoffered i h hoffer with hoffer | hfresh
    · exact Nat.lt_of_lt_of_le (F.offered_lt hoffer) hhosts
    · exact hfresh.2
  case below =>
    intro i j h hnamed hoffer
    rw [hhost] at hnamed
    exact F.below hnamed (hold hnamed hoffer)
  case knows =>
    intro i h hmem
    rw [hmounted] at hmem
    rw [hhost]
    exact F.knows hmem
  case alive =>
    intro i h hmem
    rw [hmounted] at hmem
    rw [halive]
    exact F.alive hmem
  case once =>
    intro h
    rw [hmounted]
    exact F.once h
  case housed =>
    intro i hlive
    obtain ⟨h, hnamed, hmem, hupheld⟩ := F.housed ((halive i).mp hlive)
    refine ⟨h, (hhost i).trans hnamed, (hmounted h).symm ▸ hmem, ?_⟩
    rcases hupheld with hroot | ⟨j, hj, hlive⟩
    · exact .inl fun j hj => hroot j (hold hnamed hj)
    · exact .inr ⟨j, hoffers j h hj, (halive j).mpr hlive⟩

/-- A new instance, with no hosts to offer, in a host that is upheld. -/
theorem create (F : Forest clearing s) (b : Blueprint) (hlt : h < s.hosts.length)
    (hupheld : s.Upheld h) : Forest clearing (s.created h b) := by
  have hfresh (h' : HostId) : s.instances.length ∉ s.mounted h' := fun hmem => by
    obtain ⟨x, hx, -⟩ := exists_of_hostOf (F.knows hmem)
    exact Nat.lt_irrefl _ (List.getElem?_eq_some_iff.mp hx).1
  have hmem {i : InstanceId} {h' : HostId} (hmem : i ∈ (s.created h b).mounted h') :
      i ∈ s.mounted h' ∨ i = s.instances.length ∧ h' = h := by
    rw [mounted_created b hlt] at hmem
    split at hmem
    · rename_i heq
      exact (List.mem_append.mp hmem).imp_right fun hlast => ⟨List.mem_singleton.mp hlast, heq⟩
    · exact .inl hmem
  have hkept {i : InstanceId} {h' : HostId} (hmem : i ∈ s.mounted h') :
      i ∈ (s.created h b).mounted h' := by
    rw [mounted_created b hlt]
    split
    · exact List.mem_append_left _ hmem
    · exact hmem
  constructor
  case host_lt =>
    intro i h' hnamed
    rw [hosts_length_created]
    rw [hostOf_created] at hnamed
    split at hnamed
    · cases hnamed
      exact hlt
    · exact F.host_lt hnamed
  case offered_lt =>
    intro i h' hoffer
    rw [hosts_length_created]
    rw [offered_created] at hoffer
    exact F.offered_lt hoffer
  case below =>
    intro i j h' hnamed hoffer
    rw [offered_created] at hoffer
    rw [hostOf_created] at hnamed
    split at hnamed
    · rename_i heq
      exact heq ▸ lt_of_offered hoffer
    · exact F.below hnamed hoffer
  case knows =>
    intro i h' hmounted
    rw [hostOf_created]
    rcases hmem hmounted with hmem | ⟨rfl, rfl⟩
    · rw [if_neg (fun heq : i = s.instances.length => hfresh h' (heq ▸ hmem))]
      exact F.knows hmem
    · exact if_pos rfl
  case alive =>
    intro i h' hmounted
    rw [alive_created]
    rcases hmem hmounted with hmem | ⟨rfl, rfl⟩
    · exact (F.alive hmem).imp_left .inr
    · exact .inl (.inl rfl)
  case once =>
    intro h'
    rw [mounted_created b hlt]
    split
    · refine List.nodup_append.mpr ⟨F.once h', List.nodup_singleton _, ?_⟩
      intro a ha b hb heq
      rw [List.mem_singleton.mp hb] at heq
      exact hfresh h' (heq ▸ ha)
    · exact F.once h'
  case housed =>
    intro i hlive
    rcases (s.alive_created h b i).mp hlive with rfl | hlive
    · refine ⟨h, (s.hostOf_created h b _).trans (if_pos rfl), ?_, hupheld.created h b⟩
      rw [mounted_created b hlt, if_pos rfl]
      exact List.mem_append_right _ (List.mem_singleton_self _)
    · obtain ⟨h', hnamed, hmem', hupheld'⟩ := F.housed hlive
      refine ⟨h', ?_, hkept hmem', hupheld'.created h b⟩
      rw [hostOf_created, if_neg (Nat.ne_of_lt hlive.lt)]
      exact hnamed

/-- An instance is marked as destroyed once its hosts are empty, in a host that is being
    cleared. -/
theorem mark (F : Forest clearing s) (hempty : ∀ h ∈ s.offered i, s.mounted h = [])
    (hclearing : ∀ h, s.hostOf i = some h → h ∈ clearing)
    (hhosts : s'.hosts = s.hosts) (hhost : ∀ j, s'.hostOf j = s.hostOf j)
    (hoffered : ∀ j, s'.offered j = s.offered j)
    (halive : ∀ j, s'.Alive j ↔ s.Alive j ∧ j ≠ i) : Forest clearing s' := by
  have hmounted (h : HostId) : s'.mounted h = s.mounted h := by rw [mounted, mounted, hhosts]
  constructor
  case host_lt =>
    intro j h hnamed
    rw [hhosts]
    exact F.host_lt (hhost j ▸ hnamed)
  case offered_lt =>
    intro j h hoffer
    rw [hhosts]
    exact F.offered_lt (hoffered j ▸ hoffer)
  case below =>
    intro j k h hnamed hoffer
    exact F.below (hhost j ▸ hnamed) (hoffered k ▸ hoffer)
  case knows =>
    intro j h hmem
    rw [hhost]
    exact F.knows (hmounted h ▸ hmem)
  case alive =>
    intro j h hmem
    rw [hmounted] at hmem
    by_cases heq : j = i
    · exact .inr (hclearing h (heq ▸ F.knows hmem))
    · exact (F.alive hmem).imp_left fun hlive => (halive j).mpr ⟨hlive, heq⟩
  case once =>
    intro h
    rw [hmounted]
    exact F.once h
  case housed =>
    intro j hlive
    obtain ⟨h, hnamed, hmem, hupheld⟩ := F.housed ((halive j).mp hlive).1
    refine ⟨h, (hhost j).trans hnamed, (hmounted h).symm ▸ hmem, ?_⟩
    rcases hupheld with hroot | ⟨k, hk, hlive⟩
    · exact .inl fun k hk => hroot k (hoffered k ▸ hk)
    · refine .inr ⟨k, (hoffered k).symm ▸ hk, (halive k).mpr ⟨hlive, fun heq => ?_⟩⟩
      -- the marked instance would offer a host with something in it
      rw [hempty h (heq ▸ hk)] at hmem
      cases hmem

/-- A host is emptied in which nothing is live. -/
theorem empty (F : Forest clearing s) (hdead : ∀ i ∈ s.mounted h, ¬ s.Alive i) :
    Forest clearing (s.emptyHost h) := by
  have hlength : (s.emptyHost h).hosts.length = s.hosts.length := List.length_modify ..
  have hmem {i : InstanceId} {h' : HostId} (hmem : i ∈ (s.emptyHost h).mounted h') :
      i ∈ s.mounted h' := by
    rw [mounted_emptyHost] at hmem
    split at hmem
    · cases hmem
    · exact hmem
  constructor
  case host_lt => exact fun hnamed => hlength.symm ▸ F.host_lt hnamed
  case offered_lt => exact fun hoffer => hlength.symm ▸ F.offered_lt hoffer
  case below => exact F.below
  case knows => exact fun hmounted => F.knows (hmem hmounted)
  case alive => exact fun hmounted => F.alive (hmem hmounted)
  case once =>
    intro h'
    rw [mounted_emptyHost]
    split
    · exact List.nodup_nil
    · exact F.once h'
  case housed =>
    intro i hlive
    obtain ⟨h', hnamed, hmounted, hoffer⟩ := F.housed hlive
    refine ⟨h', hnamed, ?_, hoffer⟩
    rw [mounted_emptyHost, if_neg (fun heq : h' = h => hdead i (heq ▸ hmounted) hlive)]
    exact hmounted

end Forest

end Store

end ViewTree.Live
