import ViewTree.Proofs.Live.Sound

/-
  ViewTree.Proofs.Live.Destruction — what is destroyed, and that nothing else is.

  Destroying an instance of a sound store succeeds: the hosts it offers are cleared, its
  subscriptions are ended, and it is marked. The proof is by induction on the depth that
  is left. Everything below an instance has a greater number, so the depth suffices for
  it, and the instance itself and whatever has a smaller number stay what they are
  meanwhile (`Fades`). Clearing a host of a sound store empties it, and the store is sound
  again.
-/

namespace ViewTree.Live.Store

/-- Instances from `lo` on may be destroyed and taken out of their hosts. -/
structure Fades (lo : InstanceId) (s s' : Store) : Prop where
  hosts_length : s'.hosts.length = s.hosts.length
  instances_length : s'.instances.length = s.instances.length
  below {i : InstanceId} : i < lo → s'.instances[i]? = s.instances[i]?
  hostOf (i : InstanceId) : s'.hostOf i = s.hostOf i
  offered (i : InstanceId) : s'.offered i = s.offered i
  emittersOf (i : InstanceId) : s'.emittersOf i = s.emittersOf i
  alive {i : InstanceId} : s'.Alive i → s.Alive i
  mounted {i : InstanceId} {h : HostId} : i ∈ s'.mounted h → i ∈ s.mounted h

variable {s s' s'' : Store} {i lo lo' : InstanceId} {h : HostId} {x : Instance}
variable {clearing : List HostId}

namespace Fades

theorem refl (lo : InstanceId) (s : Store) : Fades lo s s :=
  ⟨rfl, rfl, fun _ => rfl, fun _ => rfl, fun _ => rfl, fun _ => rfl, fun halive => halive,
    fun hmem => hmem⟩

theorem trans (f : Fades lo s s') (f' : Fades lo s' s'') : Fades lo s s'' where
  hosts_length := f'.hosts_length.trans f.hosts_length
  instances_length := f'.instances_length.trans f.instances_length
  below hlt := (f'.below hlt).trans (f.below hlt)
  hostOf i := (f'.hostOf i).trans (f.hostOf i)
  offered i := (f'.offered i).trans (f.offered i)
  emittersOf i := (f'.emittersOf i).trans (f.emittersOf i)
  alive halive := f.alive (f'.alive halive)
  mounted hmem := f.mounted (f'.mounted hmem)

theorem mono (f : Fades lo' s s') (hle : lo ≤ lo') : Fades lo s s' :=
  { f with below := fun hlt => f.below (Nat.lt_of_lt_of_le hlt hle) }

end Fades

/-- No instance is brought back or taken away, and outputs stay what they are. -/
structure Ages (s s' : Store) : Prop where
  instances_le : s.instances.length ≤ s'.instances.length
  dead {i : InstanceId} : i < s.instances.length → ¬ s.Alive i → ¬ s'.Alive i
  emittersOf {i : InstanceId} : i < s.instances.length → s'.emittersOf i = s.emittersOf i

namespace Ages

theorem refl (s : Store) : Ages s s := ⟨Nat.le_refl _, fun _ hdead => hdead, fun _ => rfl⟩

theorem trans (a : Ages s s') (a' : Ages s' s'') : Ages s s'' where
  instances_le := Nat.le_trans a.instances_le a'.instances_le
  dead hi hdead := a'.dead (Nat.lt_of_lt_of_le hi a.instances_le) (a.dead hi hdead)
  emittersOf hi :=
    (a'.emittersOf (Nat.lt_of_lt_of_le hi a.instances_le)).trans (a.emittersOf hi)

end Ages

theorem Grows.ages (g : Grows s s') : Ages s s' :=
  ⟨g.instances_le, fun hi hdead halive => hdead ((g.alive hi).mp halive), g.emittersOf⟩

theorem Fades.ages (f : Fades lo s s') : Ages s s' :=
  ⟨Nat.le_of_eq f.instances_length.symm, fun _ hdead halive => hdead (f.alive halive),
    fun _ => f.emittersOf _⟩

/-- A way to destroy instances from `lo` on, in stores of `n` instances. -/
def Destroys (lo : InstanceId) (n : Nat) (destroy : Store → InstanceId → Attempt) : Prop :=
  ∀ (clearing : List HostId) (s : Store) (i : InstanceId) (x : Instance), Sound clearing s →
    s.instances.length = n → s.instances[i]? = some x → lo ≤ i →
    (∀ h, s.hostOf i = some h → h ∈ clearing) →
    ∃ s', destroy s i = (s', .ok ()) ∧ Sound clearing s' ∧ Fades i s s' ∧ ¬ s'.Alive i

section Clearing

variable {n : Nat} {destroy : Store → InstanceId → Attempt}

/-- Instances of one host are destroyed one after the other. -/
theorem attemptAll_destroy (hdestroy : Destroys lo n destroy) (targets : List InstanceId)
    (S : Sound (h :: clearing) s) (hlength : s.instances.length = n)
    (htargets : ∀ i ∈ targets, s.hostOf i = some h ∧ lo ≤ i) :
    ∃ s', attemptAll destroy s targets = (s', .ok ()) ∧ Sound (h :: clearing) s' ∧
      Fades lo s s' ∧ ∀ i ∈ targets, ¬ s'.Alive i := by
  induction targets generalizing s with
  | nil => exact ⟨s, rfl, S, .refl lo s, fun _ hmem => absurd hmem List.not_mem_nil⟩
  | cons i rest ih =>
    obtain ⟨hhost, hle⟩ := htargets i List.mem_cons_self
    obtain ⟨x, hx, -⟩ := exists_of_hostOf hhost
    have hclearing (h' : HostId) (hnamed : s.hostOf i = some h') : h' ∈ h :: clearing := by
      rw [Option.some.inj (hnamed.symm.trans hhost)]
      exact List.mem_cons_self
    obtain ⟨t, hrun, T, hfades, hdead⟩ := hdestroy _ s i x S hlength hx hle hclearing
    have hfades := hfades.mono hle
    have hrest : ∀ j ∈ rest, t.hostOf j = some h ∧ lo ≤ j := by
      intro j hj
      obtain ⟨hhost, hle⟩ := htargets j (List.mem_cons_of_mem _ hj)
      exact ⟨(hfades.hostOf j).trans hhost, hle⟩
    obtain ⟨s', hrun', S', hfades', hdead'⟩ := ih T (hfades.instances_length.trans hlength) hrest
    refine ⟨s', ?_, S', hfades.trans hfades', fun j hj => ?_⟩
    · rw [attemptAll, hrun]
      exact hrun'
    · rcases List.mem_cons.mp hj with rfl | hj
      · exact fun halive => hdead (hfades'.alive halive)
      · exact hdead' j hj

/-- A host is empty once its instances are destroyed, and no longer being cleared. -/
theorem clearBy_sound (hdestroy : Destroys lo n destroy) (S : Sound clearing s)
    (hlength : s.instances.length = n) (hlo : ∀ i ∈ s.mounted h, lo ≤ i) :
    ∃ s', clearBy destroy s h = (s', .ok ()) ∧ Sound clearing s' ∧ Fades lo s s' ∧
      s'.mounted h = [] := by
  have S₀ : Sound (h :: clearing) s :=
    { S with forest := S.forest.mono fun _ => List.mem_cons_of_mem _ }
  obtain ⟨t, hrun, T, hfades, hdead⟩ := attemptAll_destroy hdestroy (s.mounted h) S₀ hlength
    fun i hmem => ⟨S.forest.knows hmem, hlo i hmem⟩
  have hempty : (t.emptyHost h).mounted h = [] := by rw [mounted_emptyHost, if_pos rfl]
  have hforest := T.forest.empty fun i hmem => hdead i (hfades.mounted hmem)
  refine ⟨t.emptyHost h, ?_, ⟨T.plain, hforest.cleared hempty, ?_⟩, hfades.trans ?_, hempty⟩
  · rw [clearBy, hrun]
    rfl
  · exact T.wiring.unchanged rfl rfl (fun _ => rfl) (fun _ => rfl) fun _ => Iff.rfl
  · refine { Fades.refl lo t with hosts_length := List.length_modify .., mounted := fun hmem => ?_ }
    rw [mounted_emptyHost] at hmem
    split at hmem
    · cases hmem
    · exact hmem

theorem attemptAll_clearBy (hdestroy : Destroys lo n destroy) (places : List HostId)
    (S : Sound clearing s) (hlength : s.instances.length = n)
    (hlo : ∀ h ∈ places, ∀ i ∈ s.mounted h, lo ≤ i) :
    ∃ s', attemptAll (clearBy destroy) s places = (s', .ok ()) ∧ Sound clearing s' ∧
      Fades lo s s' ∧ ∀ h ∈ places, s'.mounted h = [] := by
  induction places generalizing s with
  | nil => exact ⟨s, rfl, S, .refl lo s, fun _ hmem => absurd hmem List.not_mem_nil⟩
  | cons h rest ih =>
    obtain ⟨t, hrun, T, hfades, hempty⟩ := clearBy_sound hdestroy S hlength
      (hlo h List.mem_cons_self)
    obtain ⟨s', hrun', S', hfades', hempty'⟩ := ih T (hfades.instances_length.trans hlength)
      fun h' hmem i hi => hlo h' (List.mem_cons_of_mem _ hmem) i (hfades.mounted hi)
    refine ⟨s', ?_, S', hfades.trans hfades', fun h' hmem => ?_⟩
    · rw [attemptAll, hrun]
      exact hrun'
    · rcases List.mem_cons.mp hmem with rfl | hmem
      · refine List.eq_nil_iff_forall_not_mem.mpr fun i hi => ?_
        have hi := hfades'.mounted hi
        rw [hempty] at hi
        cases hi
      · exact hempty' h' hmem

/-- All that an instance offers is cleared, and the instance stays what it is. -/
theorem clearOffered_sound (hdestroy : Destroys (i + 1) n destroy) (S : Sound clearing s)
    (hlength : s.instances.length = n) (hx : s.instances[i]? = some x) :
    ∃ s', clearOffered (clearBy destroy) s i x = (s', .ok ()) ∧ Sound clearing s' ∧
      Fades (i + 1) s s' ∧ ∀ h ∈ x.places, s'.mounted h = [] := by
  have hplain := S.plain hx
  have hlo (h : HostId) (hmem : h ∈ x.places) (j : InstanceId) (hj : j ∈ s.mounted h) : i + 1 ≤ j :=
    S.forest.below (S.forest.knows hj) (offered_some hx ▸ hmem)
  have hpanels : (if x.isTabs then x.panels else []) = x.panels := by
    cases htabs : x.isTabs with
    | true => rfl
    | false => exact (hplain.panels htabs).symm
  obtain ⟨t, hrun, T, hfades, hempty⟩ := attemptAll_clearBy hdestroy x.panels S hlength
    fun h hmem => hlo h (List.mem_append_right _ hmem)
  have hxt : t.instances[i]? = some x := (hfades.below (Nat.lt_succ_self i)).trans hx
  have hdone : clearOffered (clearBy destroy) s i x =
      x.content.elim (t, .ok ()) (clearBy destroy t) := by
    rw [clearOffered, hpanels, hrun]
    simp only [andThen]
    cases hhost : x.blueprint.host? with
    | none => rw [hplain.content hhost, Option.elim_none]
    | some name =>
      have hmount := mount?_plain hxt hplain (hplain.blueprint.host_of_library hhost)
      rw [if_pos hhost] at hmount
      simp only [hplain.contentFault?, hmount]
      cases x.content <;> rfl
  cases hcontent : x.content with
  | none =>
    rw [hcontent] at hdone
    refine ⟨t, hdone, T, hfades, fun h hmem => hempty h ?_⟩
    rw [Instance.places, hcontent] at hmem
    exact hmem
  | some h =>
    rw [hcontent] at hdone
    have hoffered : h ∈ x.places :=
      List.mem_append_left _ (Option.mem_toList.mpr hcontent)
    obtain ⟨s', hrun', S', hfades', hempty'⟩ := clearBy_sound hdestroy T
      (hfades.instances_length.trans hlength) fun j hj => hlo h hoffered j (hfades.mounted hj)
    refine ⟨s', hdone.trans hrun', S', hfades.trans hfades', fun h' hmem => ?_⟩
    rw [Instance.places, hcontent] at hmem
    rcases List.mem_cons.mp hmem with rfl | hmem
    · exact hempty'
    · refine List.eq_nil_iff_forall_not_mem.mpr fun j hj => ?_
      have hj := hfades'.mounted hj
      rw [hempty h' hmem] at hj
      cases hj

end Clearing

/-- An instance with nothing below it lets go of its subscriptions and is marked. -/
theorem release_sound (S : Sound clearing s) (hx : s.instances[i]? = some x)
    (hempty : ∀ h ∈ x.places, s.mounted h = [])
    (hclearing : ∀ h, s.hostOf i = some h → h ∈ clearing) :
    ∃ s', s.release i x = (s', .ok ()) ∧ Sound clearing s' ∧ Fades i s s' ∧ ¬ s'.Alive i := by
  have hlt := (List.getElem?_eq_some_iff.mp hx).1
  have hplain := S.plain hx
  obtain ⟨W, hinstances, hhosts, hended⟩ := foldl_unsubscribe S.wiring x.tracked
  let y : Instance := { x with tracked := [], destroyed := true }
  have hy : y.Plain := ⟨hplain.blueprint, hplain.attributes, hplain.outputs, hplain.content,
    hplain.panels⟩
  have hxt : (x.tracked.foldl unsubscribe s).instances[i]? = some x := hinstances ▸ hx
  let s' : Store := { x.tracked.foldl unsubscribe s with instances := s.instances.set i y }
  have hset : s'.instances = s.instances.set i y := rfl
  have hrun : s.release i x = (s', .ok ()) := by
    have hfree : Instance.Plain { x with tracked := [] } :=
      ⟨hplain.blueprint, hplain.attributes, hplain.outputs, hplain.content, hplain.panels⟩
    rw [release, hplain.hidden? (by decide)]
    simp only
    rw [updateInstance_eq hxt, marked_plain hfree, hinstances]
  have hhost (j : InstanceId) : s'.hostOf j = s.hostOf j := by
    rw [hostOf, hostOf, hset, map_set hx]
    rfl
  have hoffered (j : InstanceId) : s'.offered j = s.offered j := by
    rw [offered, offered, hset, map_set hx]
    rfl
  have hemittersOf (j : InstanceId) : s'.emittersOf j = s.emittersOf j := by
    rw [emittersOf, emittersOf, hset, map_set hx]
    rfl
  have halive (j : InstanceId) : s'.Alive j ↔ s.Alive j ∧ j ≠ i := by
    rw [Alive, Alive, hset, List.getElem?_set]
    split
    · rename_i heq
      subst heq
      exact ⟨fun h => absurd h (by simp [y]), fun h => absurd rfl h.2⟩
    · rename_i hne
      exact ⟨fun h => ⟨h, Ne.symm hne⟩, fun h => h.1⟩
  refine ⟨s', hrun, ⟨?_, ?_, ?_⟩, ⟨?_, ?_, ?_, hhost, hoffered, hemittersOf, ?_, ?_⟩, ?_⟩
  · exact fun hz => S.plain_set hy (hset ▸ hz)
  · exact S.forest.mark (offered_some hx ▸ hempty) hclearing hhosts hhost hoffered halive
  · refine W.mark hxt (fun id sub hopen => ?_) rfl rfl (hinstances.symm ▸ hset)
    rw [keptBy_some hxt]
    exact (hended id sub hopen).2
  · exact congrArg List.length hhosts
  · rw [hset, List.length_set]
  · intro j hj
    rw [hset, List.getElem?_set, if_neg (Nat.ne_of_gt hj)]
  · exact fun h => ((halive _).mp h).1
  · intro j h hmem
    rw [mounted, hhosts] at hmem
    exact hmem
  · exact fun h => ((halive i).mp h).2 rfl

/-- By induction on the depth: what is below an instance has a greater number. -/
theorem destroyTo_destroys (depth : Nat) (lo : InstanceId) (n : Nat) (hdepth : n ≤ lo + depth) :
    Destroys lo n (destroyTo depth) := by
  induction depth generalizing lo with
  | zero =>
    intro clearing s i x _ hlength hx hle _
    have hlt := (List.getElem?_eq_some_iff.mp hx).1
    exact absurd (Nat.lt_of_lt_of_le (hlength ▸ hlt) hdepth) (Nat.not_lt.mpr hle)
  | succ depth ih =>
    intro clearing s i x S hlength hx hle hclearing
    have hbelow : Destroys (i + 1) n (destroyTo depth) := ih (i + 1) (by
      have hle : lo ≤ i := hle
      exact Nat.le_trans hdepth (by rw [Nat.add_right_comm]; exact Nat.add_le_add_right hle _))
    obtain ⟨t, hcleared, T, hfades, hempty⟩ := clearOffered_sound hbelow S hlength hx
    have hxt : t.instances[i]? = some x := (hfades.below (Nat.lt_succ_self i)).trans hx
    obtain ⟨s', hreleased, S', hfades', hdead⟩ := release_sound T hxt hempty
      fun h hnamed => hclearing h ((hfades.hostOf i).symm.trans hnamed)
    refine ⟨s', ?_, S', (hfades.mono (Nat.le_succ i)).trans hfades', hdead⟩
    rw [destroyTo, hx]
    simp only [(S.plain hx).blocked?]
    rw [hcleared]
    exact hreleased

theorem destroy_destroys (n : Nat) : Destroys 0 n destroy := by
  intro clearing s i x S hlength
  exact destroyTo_destroys (s.instances.length + 1) 0 n
    (by rw [hlength, Nat.zero_add]; exact Nat.le_succ n) clearing s i x S hlength

/-! ## Clearing a host -/

/-- Clearing a host of a sound store empties it; smaller numbers than those of its
    instances are not concerned. -/
theorem clear_sound (S : Sound [] s) (h : HostId) :
    ∃ s', s.clear h = (s', .ok ()) ∧ Sound [] s' ∧ s'.mounted h = [] ∧
      ∀ lo, (∀ i ∈ s.mounted h, lo ≤ i) → Fades lo s s' := by
  obtain ⟨s', hrun, S', -, hempty⟩ := clearBy_sound (destroy_destroys s.instances.length) S rfl
    fun i _ => Nat.zero_le i
  refine ⟨s', hrun, S', hempty, fun lo hlo => ?_⟩
  have hdestroy : Destroys lo s.instances.length destroy := fun clearing s i x S hlength hx _ =>
    destroy_destroys _ clearing s i x S hlength hx (Nat.zero_le i)
  obtain ⟨t, hrun', -, hfades, -⟩ := clearBy_sound hdestroy S rfl hlo
  rw [show s' = t from congrArg Prod.fst (hrun.symm.trans hrun')]
  exact hfades

/-- What offers a host stays what it is when the host is cleared. -/
theorem clear_keeps (S : Sound [] s) (hoffered : h ∈ s.offered i) (halive : s.Alive i) :
    h ∈ (s.clear h).1.offered i ∧ (s.clear h).1.Alive i := by
  obtain ⟨s', hrun, -, -, hfades⟩ := clear_sound S h
  have hfades := hfades (i + 1) fun j hmem => S.forest.below (S.forest.knows hmem) hoffered
  rw [hrun]
  refine ⟨(hfades.offered i).symm ▸ hoffered, ?_⟩
  rw [Alive, hfades.below (Nat.lt_succ_self i)]
  exact halive

/-- Instances can be created in a host again that was cleared. -/
theorem clear_receives (S : Sound [] s) (hreceives : s.Receives h) :
    (s.clear h).1.Receives h := by
  obtain ⟨s', hrun, -, -, hfades⟩ := clear_sound S h
  have hall := hfades 0 fun i _ => Nat.zero_le i
  refine ⟨?_, ?_⟩
  · rw [hrun]
    exact hall.hosts_length ▸ hreceives.lt
  · rcases hreceives.upheld with hroot | ⟨i, hoffered, halive⟩
    · rw [hrun]
      exact .inl fun j hoffered => hroot j (hall.offered j ▸ hoffered)
    · exact .inr ⟨i, clear_keeps S hoffered halive⟩

end ViewTree.Live.Store
