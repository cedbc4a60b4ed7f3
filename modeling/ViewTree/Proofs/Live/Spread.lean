import Mathlib.Data.List.Basic
import ViewTree.Proofs.Live.Single

/-
  ViewTree.Proofs.Live.Spread — instances of any make come into a store.

  Making an instance from a blueprint puts it behind all others, in its host
  (`create_make`); under which names it has outputs is up to the blueprint alone. What a
  pass does with a store is made of such acts and of work on the new instances
  (`Store.Spreads`): the instances that there were are left alone, and instances are
  mounted behind those that a host holds, in ascending order and each in the host that it
  names. So a host that was given to the pass is empty afterwards only if it was empty
  before and nothing was mounted in it.
-/

namespace ViewTree.Live

namespace Store

/-! ## New instances -/

theorem putOutput_names {o o' : List (String × EmitterId)} (name : String) (e e' : EmitterId)
    (h : o.map Prod.fst = o'.map Prod.fst) :
    (putOutput name e o).map Prod.fst = (putOutput name e' o').map Prod.fst := by
  induction o generalizing o' with
  | nil =>
    rw [List.map_nil, eq_comm, List.map_eq_nil_iff] at h
    rw [h]
    rfl
  | cons entry rest ih =>
    obtain ⟨entry', rest', rfl⟩ : ∃ a l, o' = a :: l := by
      cases o' with
      | nil => cases h
      | cons a l => exact ⟨a, l, rfl⟩
    obtain ⟨hname, hrest⟩ := List.cons.inj h
    simp only [putOutput]
    rw [show entry.1 = entry'.1 from hname]
    split
    · exact congrArg (entry'.1 :: ·) hrest
    · exact congrArg (entry'.1 :: ·) (ih hrest)

/-- One more output, with an emitter of its own. -/
def addOutput (made : List (String × EmitterId) × Store) (name : String) :
    List (String × EmitterId) × Store :=
  (putOutput name made.2.emitters.length made.1, (made.2.newEmitter name).2)

/-- Outputs are named alike in any store, and nothing but emitters comes with them. -/
theorem newOutputs_names (names : List String) (s s' : Store) :
    (s.newOutputs names).1.map Prod.fst = (s'.newOutputs names).1.map Prod.fst ∧
      (s.newOutputs names).2.instances = s.instances ∧ (s.newOutputs names).2.hosts = s.hosts := by
  suffices hfold : ∀ (o o' : List (String × EmitterId)) (s s' : Store),
      o.map Prod.fst = o'.map Prod.fst →
      (names.foldl addOutput (o, s)).1.map Prod.fst =
          (names.foldl addOutput (o', s')).1.map Prod.fst ∧
        (names.foldl addOutput (o, s)).2.instances = s.instances ∧
        (names.foldl addOutput (o, s)).2.hosts = s.hosts from
    hfold [] [] s s' rfl
  induction names with
  | nil => exact fun o o' s s' h => ⟨h, rfl, rfl⟩
  | cons name rest ih =>
    exact fun o o' s s' h =>
      ih _ _ _ _ (putOutput_names name s.emitters.length s'.emitters.length h)

/-- The names under which an instance of a blueprint has outputs in its host. -/
def outputNames (b : Blueprint) : List String :=
  ((empty.newOutputs (b.outputs.filter fun name =>
    ((Instance.fresh b).kept? name).isNone)).1.filter fun o => o.1 ≠ Datum.host.name).map Prod.fst

theorem filter_names {o o' : List (String × EmitterId)} (p : String → Bool)
    (h : o.map Prod.fst = o'.map Prod.fst) :
    (o.filter fun e => p e.1).map Prod.fst = (o'.filter fun e => p e.1).map Prod.fst := by
  have hfilter (l : List (String × EmitterId)) :
      (l.filter fun e => p e.1).map Prod.fst = (l.map Prod.fst).filter p :=
    List.filter_map.symm
  rw [hfilter, hfilter, h]

/-- What comes into a store with a new instance. -/
structure Makes (h : HostId) (b : Blueprint) (x : Instance) (s s' : Store) : Prop where
  instances : s'.instances = s.instances ++ [x]
  hosts : s'.hosts =
    s.hosts.modify h fun y => { y with instances := y.instances ++ [s.instances.length] }
  made : ∃ outputs, x = { Instance.fresh b with host := some h, outputs } ∧
    outputs.map Prod.fst = outputNames b

theorem create_make (s : Store) (h : HostId) {b : Blueprint} (hb : b.fault? = none) :
    ∃ x s', s.create h (.make b) = .ok (s.instances.length, s') ∧ Makes h b x s s' := by
  obtain ⟨hnames, hinstances, hhosts⟩ := newOutputs_names
    (b.outputs.filter fun name => ((Instance.fresh b).kept? name).isNone) s empty
  simp only [create, make, hb, spawn]
  revert hnames hinstances hhosts
  generalize s.newOutputs _ = made
  obtain ⟨outputs, s₁⟩ := made
  intro hnames hinstances hhosts
  simp only at hnames hinstances hhosts
  refine ⟨{ dropOutput Datum.host.name { Instance.fresh b with outputs } with host := some h }, _,
    by rw [hinstances], ?_, ?_, _, rfl, ?_⟩
  · simp only [updateInstance, modify_length_concat]
  · simp only [updateInstance, hhosts]
  · exact filter_names (fun name => name ≠ Datum.host.name) hnames

theorem create_faulty (s : Store) (h : HostId) {b : Blueprint} {failure : Failure}
    (hb : b.fault? = some failure) : s.create h (.make b) = .error failure := by
  simp only [create, make, hb]

/-! ## What a pass brings -/

/-- Instances come into a store, those that are mounted in hosts that there were all in
    some of these. -/
structure Spreads (into : HostId → Prop) (s s' : Store) : Prop where
  instances : s.instances <+: s'.instances
  hosts_le : s.hosts.length ≤ s'.hosts.length
  hostName {g : HostId} : g < s.hosts.length → s'.hostName g = s.hostName g
  mounted (g : HostId) : ∃ new, s'.mounted g = s.mounted g ++ new ∧
    (g < s.hosts.length → ¬ into g → new = []) ∧ new.Pairwise (· < ·) ∧
    ∀ i ∈ new, s.instances.length ≤ i ∧ s'.hostOf i = some g
  housed {i : InstanceId} : s.instances.length ≤ i → i < s'.instances.length →
    ∃ g, s'.hostOf i = some g ∧ g < s'.hosts.length ∧ (into g ∨ s.hosts.length ≤ g) ∧
      ∃ new, s'.mounted g = s.mounted g ++ new ∧ i ∈ new

variable {s s' s'' : Store} {into into' : HostId → Prop} {i : InstanceId} {h : HostId}

theorem lt_of_hostOf (hhost : s.hostOf i = some h) : i < s.instances.length := by
  obtain ⟨x, hx, -⟩ := exists_of_hostOf hhost
  exact (List.getElem?_eq_some_iff.mp hx).1

theorem hostOf_behind (hfront : s.instances <+: s'.instances) (hlt : i < s.instances.length) :
    s'.hostOf i = s.hostOf i := by
  obtain ⟨more, hmore⟩ := hfront
  rw [Store.hostOf, Store.hostOf, ← hmore, List.getElem?_append_left hlt]

namespace Spreads

theorem refl (into : HostId → Prop) (s : Store) : Spreads into s s where
  instances := List.prefix_refl _
  hosts_le := Nat.le_refl _
  hostName _ := rfl
  mounted g := ⟨[], (List.append_nil _).symm, fun _ _ => rfl, .nil, fun _ hmem => by cases hmem⟩
  housed hle hlt := absurd hlt (Nat.not_lt.mpr hle)

theorem mono (p : Spreads into s s') (hsub : ∀ g < s.hosts.length, into g → into' g) :
    Spreads into' s s' :=
  { p with
    mounted := fun g => by
      obtain ⟨new, hnew, hnone, hrest⟩ := p.mounted g
      exact ⟨new, hnew, fun hlt hno => hnone hlt fun hinto => hno (hsub g hlt hinto), hrest⟩
    housed := fun hle hlt => by
      obtain ⟨g, hhost, hbound, hinto, hmem⟩ := p.housed hle hlt
      refine ⟨g, hhost, hbound, ?_, hmem⟩
      rcases Nat.lt_or_ge g s.hosts.length with hold | hnew
      · exact .inl (hsub g hold (hinto.resolve_right (Nat.not_le.mpr hold)))
      · exact .inr hnew }

/-- Of two passes the second one goes where the first one did, or into hosts that are new. -/
theorem trans (p : Spreads into s s') (p' : Spreads into' s' s'')
    (hsub : ∀ g, into' g → into g ∨ s.hosts.length ≤ g) : Spreads into s s'' where
  instances := p.instances.trans p'.instances
  hosts_le := Nat.le_trans p.hosts_le p'.hosts_le
  hostName hlt := (p'.hostName (Nat.lt_of_lt_of_le hlt p.hosts_le)).trans (p.hostName hlt)
  mounted g := by
    obtain ⟨new, hnew, hnone, hsorted, hmem⟩ := p.mounted g
    obtain ⟨new', hnew', hnone', hsorted', hmem'⟩ := p'.mounted g
    refine ⟨new ++ new', by rw [hnew', hnew, List.append_assoc], fun hlt hno => ?_, ?_, ?_⟩
    · have hno' : ¬ into' g := fun hinto =>
        (hsub g hinto).elim hno (Nat.not_le.mpr hlt)
      rw [hnone hlt hno, hnone' (Nat.lt_of_lt_of_le hlt p.hosts_le) hno']
      rfl
    · refine List.pairwise_append.mpr ⟨hsorted, hsorted', fun i hi j hj => ?_⟩
      exact Nat.lt_of_lt_of_le (lt_of_hostOf (hmem i hi).2) (hmem' j hj).1
    · intro i hi
      rcases List.mem_append.mp hi with hi | hi
      · obtain ⟨hle, hhost⟩ := hmem i hi
        exact ⟨hle, (hostOf_behind p'.instances (lt_of_hostOf hhost)).trans hhost⟩
      · obtain ⟨hle, hhost⟩ := hmem' i hi
        exact ⟨Nat.le_trans p.instances.length_le hle, hhost⟩
  housed {i} hle hlt := by
    rcases Nat.lt_or_ge i s'.instances.length with hold | hnew
    · obtain ⟨g, hhost, hbound, hinto, new, hnew, hmem⟩ := p.housed hle hold
      obtain ⟨new', hnew', -⟩ := p'.mounted g
      refine ⟨g, (hostOf_behind p'.instances hold).trans hhost,
        Nat.lt_of_lt_of_le hbound p'.hosts_le, hinto, new ++ new', ?_, List.mem_append_left _ hmem⟩
      rw [hnew', hnew, List.append_assoc]
    · obtain ⟨g, hhost, hbound, hinto, new', hnew', hmem⟩ := p'.housed hnew hlt
      obtain ⟨new, hnew, -⟩ := p.mounted g
      refine ⟨g, hhost, hbound, hinto.elim (hsub g) fun hle => .inr (Nat.le_trans p.hosts_le hle),
        new ++ new', ?_, List.mem_append_right _ hmem⟩
      rw [hnew', hnew, List.append_assoc]

/-- New instances are worked on. -/
theorem alter (p : Spreads into s s') (a : Alters Instance.Stays i s' s'')
    (hnew : s.instances.length ≤ i) : Spreads into s s'' where
  instances := by
    rw [List.prefix_iff_getElem?]
    intro j hj
    rw [a.others (Nat.ne_of_lt (Nat.lt_of_lt_of_le hj hnew))]
    exact List.prefix_iff_getElem?.mp p.instances j hj
  hosts_le := Nat.le_trans p.hosts_le a.hosts_le
  hostName hlt := (a.hostName (Nat.lt_of_lt_of_le hlt p.hosts_le)).trans (p.hostName hlt)
  mounted g := by
    obtain ⟨new, hmounted, hnone, hsorted, hmem⟩ := p.mounted g
    exact ⟨new, (a.mounted g).trans hmounted, hnone, hsorted,
      fun j hj => ⟨(hmem j hj).1, (a.hostOf j).trans (hmem j hj).2⟩⟩
  housed hle hlt := by
    obtain ⟨g, hhost, hbound, hinto, new, hnew, hmem⟩ := p.housed hle (a.length ▸ hlt)
    exact ⟨g, (a.hostOf _).trans hhost, Nat.lt_of_lt_of_le hbound a.hosts_le, hinto, new,
      (a.mounted g).trans hnew, hmem⟩

theorem mounted_eq (p : Spreads into s s') {g : HostId} (hlt : g < s.hosts.length)
    (hno : ¬ into g) : s'.mounted g = s.mounted g := by
  obtain ⟨new, hnew, hnone, -⟩ := p.mounted g
  rw [hnew, hnone hlt hno, List.append_nil]

/-- What is mounted stays mounted. -/
theorem mem_mounted (p : Spreads into s s') {g : HostId} (hmem : i ∈ s.mounted g) :
    i ∈ s'.mounted g := by
  obtain ⟨new, hnew, -⟩ := p.mounted g
  rw [hnew]
  exact List.mem_append_left _ hmem

end Spreads

theorem spreads_newHost (into : HostId → Prop) (s : Store) (name : String) :
    Spreads into s (s.newHost name).2 := by
  refine (Spreads.refl into s).alter (i := s.instances.length) ?_ (Nat.le_refl _)
  exact alters_update (f := id) [⟨name, []⟩] (List.modify_id _ _).symm rfl (by simp)
    (fun _ => ⟨rfl, rfl⟩) fun _ _ hg => .inl hg

/-! ### A new instance -/

namespace Makes

variable {b : Blueprint} {x : Instance}

theorem length (m : Makes h b x s s') : s'.instances.length = s.instances.length + 1 := by
  rw [m.instances, List.length_append]
  rfl

theorem found (m : Makes h b x s s') : s'.instances[s.instances.length]? = some x := by
  rw [m.instances]
  exact List.getElem?_concat_length

theorem hosts_length (m : Makes h b x s s') : s'.hosts.length = s.hosts.length := by
  rw [m.hosts, List.length_modify]

theorem places (m : Makes h b x s s') : x.places = [] := by
  obtain ⟨outputs, rfl, -⟩ := m.made
  rfl

theorem host (m : Makes h b x s s') : x.host = some h := by
  obtain ⟨outputs, rfl, -⟩ := m.made
  rfl

theorem mounted (m : Makes h b x s s') (hlt : h < s.hosts.length) (g : HostId) :
    s'.mounted g = s.mounted g ++ if g = h then [s.instances.length] else [] := by
  rw [mounted_modify (g := (· ++ [s.instances.length])) (fun _ => rfl) m.hosts hlt g]
  split
  · rfl
  · exact (List.append_nil _).symm

theorem hostName (m : Makes h b x s s') (g : HostId) : s'.hostName g = s.hostName g := by
  rw [Store.hostName, Store.hostName, m.hosts, List.getElem?_modify]
  cases s.hosts[g]? with
  | none => rfl
  | some y =>
    change ((if h = g then _ else y : Host)).name = y.name
    split <;> rfl

theorem spreads (m : Makes h b x s s') (hlt : h < s.hosts.length) : Spreads (· = h) s s' where
  instances := ⟨_, m.instances.symm⟩
  hosts_le := Nat.le_of_eq m.hosts_length.symm
  hostName _ := m.hostName _
  mounted g := by
    refine ⟨_, m.mounted hlt g, fun _ hno => if_neg hno, ?_, fun i hi => ?_⟩
    · split
      · exact List.pairwise_singleton ..
      · exact .nil
    · split at hi
      · rename_i hg
        obtain rfl := List.mem_singleton.mp hi
        exact ⟨Nat.le_refl _, by rw [hostOf_some m.found, m.host, hg]⟩
      · cases hi
  housed {i} hle hlast := by
    obtain rfl : i = s.instances.length := by
      rw [m.length] at hlast
      exact Nat.le_antisymm (Nat.le_of_lt_succ hlast) hle
    exact ⟨h, by rw [hostOf_some m.found, m.host], m.hosts_length ▸ hlt, .inl rfl, _,
      m.mounted hlt h, by simp⟩

end Makes

end Store

end ViewTree.Live
