import ViewTree.Proofs.Render.Landing

/-
  ViewTree.Proofs.Render.Alike — trees that agree but for some places are rendered alike.

  Two trees agree up to holes (`Matches`) when they have the same types, props and events
  and the same number of children everywhere, except in pairs of subtrees that stand at a
  hole, of which nothing is demanded. Rendered in places that are paired, they come to the
  same (`alike_node`): outside the holes a result fails in the one pass with the error with
  which it fails in the other, has the same warnings, and its instances are tied
  (`Alike`).

  What happens in a hole can be noticed in one place outside it only. The node whose child
  is a hole is refreshed once more behind it, and an instance that counts as destroyed by
  what is mounted in it may then fail in one pass and not in the other. Its children are
  rendered by then and nothing else is done with it, so this goes no further.
-/

namespace ViewTree.Render

open Live
open Live.Store (Abreast Paired Young)

/-- The error of a child that is refused, where children are validated. -/
def refusal? (c : Context) (child : Node) : Option String :=
  if c.settings.validateChildren then
    let problems := Check.validate c.registry child
    if problems.isEmpty then none else some (Check.summary problems)
  else none

theorem run_refuse (c : Context) (child : Node) (w : World) :
    ((refuse c child).run w).1 = (refusal? c child).map (.failed (some child)) ∧
      ((refuse c child).run w).2.store = w.store := by
  unfold refuse refusal?
  cases c.settings.validateChildren with
  | false => exact ⟨rfl, rfl⟩
  | true =>
    simp only [Bool.not_true, Bool.false_eq_true, if_false, if_true]
    rw [Act.run_bind]
    cases (Check.validate c.registry child).isEmpty <;> exact ⟨rfl, rfl⟩

/-! ## Trees with holes -/

/-- The pairs of subtrees, by position, of which nothing is demanded. -/
abbrev Holes := List Nat → Node → Node → Prop

/-- The holes below a child. -/
def Holes.below (H : Holes) (k : Nat) : Holes := fun q => H (k :: q)

mutual
/-- Two trees agree up to holes; children are refused alike. -/
def Matches (c₁ c₂ : Context) (H : Holes) : Node → Node → Prop
  | ⟨_, type, props, children, events, _, _⟩, b =>
    type = b.type ∧ props = b.props ∧ events = b.events ∧ MatchesAll c₁ c₂ H 0 children b.children

def MatchesAll (c₁ c₂ : Context) (H : Holes) (k : Nat) : List Node → List Node → Prop
  | [], [] => True
  | a :: as, b :: bs =>
    (H [k] a b ∨ refusal? c₁ a = refusal? c₂ b ∧ Matches c₁ c₂ (H.below k) a b) ∧
      MatchesAll c₁ c₂ H (k + 1) as bs
  | _, _ => False
end

theorem MatchesAll.length_eq {c₁ c₂ : Context} {H : Holes} :
    ∀ {k : Nat} {as bs : List Node}, MatchesAll c₁ c₂ H k as bs → as.length = bs.length
  | _, [], [], _ => rfl
  | _, _ :: _, _ :: _, h => by
    rw [MatchesAll] at h
    rw [List.length_cons, List.length_cons, length_eq h.2]
  | _, [], _ :: _, h => by simp [MatchesAll] at h
  | _, _ :: _, [], h => by simp [MatchesAll] at h

/-- A pair of children is a hole, and one of them has an instance while the other has none. -/
def Torn (H : Holes) (k : Nat) (as bs : List Node) (rs rs' : List RenderResult) : Prop :=
  ∃ n a b r r', as[n]? = some a ∧ bs[n]? = some b ∧ rs[n]? = some r ∧ rs'[n]? = some r' ∧
    H [k + n] a b ∧ r.component.isSome ≠ r'.component.isSome

theorem Torn.behind {H : Holes} {k : Nat} {a b : Node} {r r' : RenderResult} {as bs : List Node}
    {rs rs' : List RenderResult} (h : Torn H (k + 1) as bs rs rs') :
    Torn H k (a :: as) (b :: bs) (r :: rs) (r' :: rs') := by
  obtain ⟨n, a, b, r, r', ha, hb, hr, hr', hH, hne⟩ := h
  exact ⟨n + 1, a, b, r, r', ha, hb, hr, hr', by rwa [Nat.add_assoc, Nat.add_comm 1 n] at hH, hne⟩

/-! ## Results -/

mutual
/-- Results of two trees that agree up to holes. Instances outside the holes are as `K`
    says; `F` is what is left of it for a node of which a child is a hole. -/
inductive Alike (K F : InstanceId → InstanceId → Prop)
    (Q : Node → Node → RenderResult → RenderResult → Prop) :
    Holes → Node → Node → RenderResult → RenderResult → Prop where
  | failed {H : Holes} {a b : Node} (error : String) :
    Alike K F Q H a b (.failed (some a) error) (.failed (some b) error)
  | shown {H : Holes} {a b : Node} {i j : InstanceId} {results results' : List RenderResult}
      (error : Option String) (warnings : List String) :
    K i j → AlikeAll K F Q H 0 a.children b.children results results' →
    Alike K F Q H a b ⟨some i, some a, error, results, warnings⟩
      ⟨some j, some b, error, results', warnings⟩
  | torn {H : Holes} {a b : Node} {i j : InstanceId} {results results' : List RenderResult}
      (error error' : Option String) (warnings : List String) :
    F i j → Torn H 0 a.children b.children results results' →
    AlikeAll K F Q H 0 a.children b.children results results' →
    Alike K F Q H a b ⟨some i, some a, error, results, warnings⟩
      ⟨some j, some b, error', results', warnings⟩

inductive AlikeAll (K F : InstanceId → InstanceId → Prop)
    (Q : Node → Node → RenderResult → RenderResult → Prop) :
    Holes → Nat → List Node → List Node → List RenderResult → List RenderResult → Prop where
  | nil {H : Holes} {k : Nat} {as bs : List Node} : AlikeAll K F Q H k as bs [] []
  | hole {H : Holes} {k : Nat} {a b : Node} {as bs : List Node} {r r' : RenderResult}
      {results results' : List RenderResult} :
    H [k] a b → Q a b r r' → AlikeAll K F Q H (k + 1) as bs results results' →
    AlikeAll K F Q H k (a :: as) (b :: bs) (r :: results) (r' :: results')
  | cons {H : Holes} {k : Nat} {a b : Node} {as bs : List Node} {r r' : RenderResult}
      {results results' : List RenderResult} :
    ¬ H [k] a b → Alike K F Q (H.below k) a b r r' →
    AlikeAll K F Q H (k + 1) as bs results results' →
    AlikeAll K F Q H k (a :: as) (b :: bs) (r :: results) (r' :: results')
end

section Results

variable {K K' F F' : InstanceId → InstanceId → Prop}
variable {Q : Node → Node → RenderResult → RenderResult → Prop}

mutual
theorem Alike.mono (hK : ∀ i j, K i j → K' i j) (hF : ∀ i j, F i j → F' i j) {H : Holes}
    {a b : Node} {r r' : RenderResult} : Alike K F Q H a b r r' → Alike K' F' Q H a b r r'
  | .failed error => .failed error
  | .shown error warnings hij h => .shown error warnings (hK _ _ hij) (h.mono hK hF)
  | .torn error error' warnings hij ht h =>
    .torn error error' warnings (hF _ _ hij) ht (h.mono hK hF)

theorem AlikeAll.mono (hK : ∀ i j, K i j → K' i j) (hF : ∀ i j, F i j → F' i j) {H : Holes}
    {k : Nat} {as bs : List Node} {rs rs' : List RenderResult} :
    AlikeAll K F Q H k as bs rs rs' → AlikeAll K' F' Q H k as bs rs rs'
  | .nil => .nil
  | .hole hH hQ h => .hole hH hQ (h.mono hK hF)
  | .cons hno h h' => .cons hno (h.mono hK hF) (h'.mono hK hF)
end

theorem Alike.component_isSome {H : Holes} {a b : Node} {r r' : RenderResult}
    (h : Alike K F Q H a b r r') : r.component.isSome = r'.component.isSome := by
  cases h <;> rfl

/-- Unless children in a hole differ in it, the same children have instances. -/
theorem AlikeAll.component_isSome {H : Holes} : ∀ {k : Nat} {as bs : List Node}
    {rs rs' : List RenderResult}, AlikeAll K F Q H k as bs rs rs' → ¬ Torn H k as bs rs rs' →
    rs.map (fun r => r.component.isSome) = rs'.map (fun r => r.component.isSome)
  | _, _, _, _, _, .nil, _ => rfl
  | _, _, _, _, _, .hole hH _ h, hwhole => by
    have hhead := not_imp_comm.mp (fun hne => ⟨0, _, _, _, _, rfl, rfl, rfl, rfl, hH, hne⟩) hwhole
    rw [List.map_cons, List.map_cons, hhead, h.component_isSome fun ht => hwhole ht.behind]
  | _, _, _, _, _, .cons _ h h', hwhole => by
    rw [List.map_cons, List.map_cons, h.component_isSome,
      h'.component_isSome fun ht => hwhole ht.behind]

end Results

/-! ## Instances -/

/-- Two instances are paired, come behind what there was, and are as `R` says. -/
structure Seen (R : (HostId → HostId → Prop) → Instance → Instance → Prop) (T : Ties)
    (lo₁ lo₂ : InstanceId) (s₁ s₂ : Store) (i j : InstanceId) : Prop where
  le_left : lo₁ ≤ i
  le_right : lo₂ ≤ j
  paired : T.instances i j
  related : ∃ x y, s₁.instances[i]? = some x ∧ s₂.instances[j]? = some y ∧ R T.hosts x y

/-- What is left of two tied instances that may count as destroyed, one without the other. -/
def Dimmed (R : HostId → HostId → Prop) (x y : Instance) : Prop :=
  x.Akin R y ∧ x.blueprint.Shadowed

/-- Results that are alike in two stores. -/
abbrev AlikeIn (Q : Node → Node → RenderResult → RenderResult → Prop) (T : Ties)
    (lo₁ lo₂ : InstanceId) (s₁ s₂ : Store) :=
  Alike (Seen Instance.Tied T lo₁ lo₂ s₁ s₂) (Seen Dimmed T lo₁ lo₂ s₁ s₂) Q

abbrev AlikeAllIn (Q : Node → Node → RenderResult → RenderResult → Prop) (T : Ties)
    (lo₁ lo₂ : InstanceId) (s₁ s₂ : Store) :=
  AlikeAll (Seen Instance.Tied T lo₁ lo₂ s₁ s₂) (Seen Dimmed T lo₁ lo₂ s₁ s₂) Q

/-- From a number on, the instances of a store stay as they are. -/
def Keeps (lo : InstanceId) (s s' : Store) : Prop :=
  ∀ i x, lo ≤ i → s.instances[i]? = some x → s'.instances[i]? = some x

section Keeping

variable {T T' : Ties} {lo₁ lo₂ lo₁' lo₂' : InstanceId} {s s' s₁ s₂ s₁' s₂' : Store}
variable {Q : Node → Node → RenderResult → RenderResult → Prop}

theorem keeps_behind (h : s.instances <+: s'.instances) (lo : InstanceId) : Keeps lo s s' := by
  intro i x _ hx
  obtain ⟨more, hmore⟩ := h
  rw [← hmore, List.getElem?_append_left (List.getElem?_eq_some_iff.mp hx).1, hx]

theorem keeps_of_alters {P : Instance → Instance → Prop} {i lo : InstanceId}
    (a : s.Alters P i s') (hlt : i < lo) : Keeps lo s s' := by
  intro j x hle hx
  rw [a.others (Nat.ne_of_gt (Nat.lt_of_lt_of_le hlt hle)), hx]

theorem Seen.mono {R : (HostId → HostId → Prop) → Instance → Instance → Prop}
    (hR : ∀ x y, R T.hosts x y → R T'.hosts x y) (hle : T.Le T') (hlo₁ : lo₁' ≤ lo₁)
    (hlo₂ : lo₂' ≤ lo₂) (h₁ : Keeps lo₁ s₁ s₁') (h₂ : Keeps lo₂ s₂ s₂') (i j : InstanceId)
    (h : Seen R T lo₁ lo₂ s₁ s₂ i j) : Seen R T' lo₁' lo₂' s₁' s₂' i j where
  le_left := Nat.le_trans hlo₁ h.le_left
  le_right := Nat.le_trans hlo₂ h.le_right
  paired := hle.instances h.paired
  related := by
    obtain ⟨x, y, hx, hy, hxy⟩ := h.related
    exact ⟨x, y, h₁ i x h.le_left hx, h₂ j y h.le_right hy, hR x y hxy⟩

section Later

variable (hle : T.Le T') (hlo₁ : lo₁' ≤ lo₁) (hlo₂ : lo₂' ≤ lo₂) (h₁ : Keeps lo₁ s₁ s₁')
variable (h₂ : Keeps lo₂ s₂ s₂')
include hle hlo₁ hlo₂ h₁ h₂

theorem Alike.later {H : Holes} {a b : Node} {r r' : RenderResult}
    (h : AlikeIn Q T lo₁ lo₂ s₁ s₂ H a b r r') : AlikeIn Q T' lo₁' lo₂' s₁' s₂' H a b r r' :=
  h.mono (Seen.mono (fun _ _ h => h.mono fun _ _ => hle.hosts) hle hlo₁ hlo₂ h₁ h₂)
    (Seen.mono (fun _ _ h => ⟨h.1.mono fun _ _ => hle.hosts, h.2⟩) hle hlo₁ hlo₂ h₁ h₂)

theorem AlikeAll.later {H : Holes} {k : Nat} {as bs : List Node} {rs rs' : List RenderResult}
    (h : AlikeAllIn Q T lo₁ lo₂ s₁ s₂ H k as bs rs rs') :
    AlikeAllIn Q T' lo₁' lo₂' s₁' s₂' H k as bs rs rs' :=
  h.mono (Seen.mono (fun _ _ h => h.mono fun _ _ => hle.hosts) hle hlo₁ hlo₂ h₁ h₂)
    (Seen.mono (fun _ _ h => ⟨h.1.mono fun _ _ => hle.hosts, h.2⟩) hle hlo₁ hlo₂ h₁ h₂)

end Later

end Keeping

/-! ## Meeting -/

section Meeting

variable {Q : Node → Node → RenderResult → RenderResult → Prop}

/-- What two passes over two nodes leave: more is tied, and the results are alike. -/
def Meet (Q : Node → Node → RenderResult → RenderResult → Prop) (T : Ties) (lo₁ lo₂ : InstanceId)
    (H : Holes) (a b : Node) (out₁ out₂ : RenderResult × World) : Prop :=
  ∃ T', T.Le T' ∧ T'.Fit out₁.2.store out₂.2.store ∧
    AlikeIn Q T' lo₁ lo₂ out₁.2.store out₂.2.store H a b out₁.1 out₂.1

/-- The same of two lists of children. -/
def MeetAll (Q : Node → Node → RenderResult → RenderResult → Prop) (T : Ties)
    (lo₁ lo₂ : InstanceId) (H : Holes) (k : Nat) (as bs : List Node)
    (out₁ out₂ : List RenderResult × World) : Prop :=
  ∃ T', T.Le T' ∧ T'.Fit out₁.2.store out₂.2.store ∧
    AlikeAllIn Q T' lo₁ lo₂ out₁.2.store out₂.2.store H k as bs out₁.1 out₂.1

/-- The same of children in panels of their own; the warnings about them are the same. -/
def MeetApart (Q : Node → Node → RenderResult → RenderResult → Prop) (T : Ties)
    (lo₁ lo₂ : InstanceId) (H : Holes) (k : Nat) (as bs : List Node)
    (out₁ out₂ : (List RenderResult × List String) × World) : Prop :=
  MeetAll Q T lo₁ lo₂ H k as bs (out₁.1.1, out₁.2) (out₂.1.1, out₂.2) ∧ out₁.1.2 = out₂.1.2

theorem Meet.from {T T' : Ties} {lo₁ lo₂ : InstanceId} {H : Holes} {a b : Node}
    {out₁ out₂ : RenderResult × World} (hle : T.Le T') (h : Meet Q T' lo₁ lo₂ H a b out₁ out₂) :
    Meet Q T lo₁ lo₂ H a b out₁ out₂ := by
  obtain ⟨T'', hle', hrest⟩ := h
  exact ⟨T'', hle.trans hle', hrest⟩

end Meeting

/-! ## Behind the children -/

section Finishing

variable {T T' : Ties} {s₁ s₂ t₁ t₂ : Store} {p₁ p₂ : Nat → Option Member} {g h : HostId}
variable {rs rs' : List RenderResult}

/-- Paired places are the same ones of paired hosts. -/
theorem place_iff (F : T.Fit s₁ s₂) (hgh : T.hosts g h) {m m' : Option Member}
    (hm : Option.Rel (Member.Tied T.hosts) m m') : m = some (.host g) ↔ m' = some (.host h) := by
  cases hm with
  | none => exact iff_of_false nofun nofun
  | some hm =>
    cases hm with
    | output e e' => exact iff_of_false nofun nofun
    | @host g' h' hgh' =>
      rw [Option.some_inj, Option.some_inj, Member.host.injEq, Member.host.injEq]
      exact F.hosts_iff hgh' hgh
    | same hm =>
      exact iff_of_false (fun h => hm _ (Option.some.inj h)) fun h => hm _ (Option.some.inj h)

theorem no_component_iff (p : Nat → Option Member) (g : HostId) (rs : List RenderResult) :
    (∀ k r, rs[k]? = some r → p k = some (.host g) → r.component = none) ↔
      ∀ k, p k = some (.host g) → (rs.map fun r => r.component.isSome)[k]? ≠ some true := by
  refine ⟨fun hall k hk hsome => ?_, fun hall k r hr hk => ?_⟩
  · rw [List.getElem?_map, Option.map_eq_some_iff] at hsome
    obtain ⟨r, hr, hcomponent⟩ := hsome
    rw [hall k r hr hk] at hcomponent
    cases hcomponent
  · have hno := hall k hk
    rw [List.getElem?_map, hr, Option.map_some, ne_eq, Option.some_inj, Bool.not_eq_true,
      Option.isSome_eq_false_iff, Option.isNone_iff_eq_none] at hno
    exact hno

/-- Paired hosts are both empty or both not behind children of which the same ones have
    instances. -/
theorem even_behind (F : T.Fit s₁ s₂) (hgh : T.hosts g h) (L₁ : LandsAll p₁ s₁ rs t₁)
    (L₂ : LandsAll p₂ s₂ rs' t₂)
    (hplaces : ∀ k, Option.Rel (Member.Tied T.hosts) (p₁ k) (p₂ k))
    (hsome : rs.map (fun r => r.component.isSome) = rs'.map (fun r => r.component.isSome))
    (heven : s₁.mounted g = [] ↔ s₂.mounted h = []) :
    t₁.mounted g = [] ↔ t₂.mounted h = [] := by
  obtain ⟨hg, hh⟩ := F.hosts_lt hgh
  rw [L₁.empty_iff hg, L₂.empty_iff hh, no_component_iff, no_component_iff, hsome, heven]
  exact and_congr_right fun _ => forall_congr' fun k => imp_congr_left (place_iff F hgh (hplaces k))

/-- The error of a node whose last refresh came to something. -/
def mishap (node : Node) : Except Failure Unit → Option String
  | .ok _ => none
  | .error failure =>
    some ("Failed to render component '" ++ node.type.getD "" ++ "': " ++ failure.message)

theorem run_finish (node : Node) (i : InstanceId) (results : List RenderResult)
    (warnings : List String) (w : World) :
    ((finish node i results warnings).run w).1 =
        ⟨some i, some node, mishap node (w.store.refresh i).2, results, warnings⟩ ∧
      ((finish node i results warnings).run w).2.store = (w.store.refresh i).1 := by
  rw [finish, Act.run_bind, Act.refresh, Act.run_perform]
  generalize w.store.refresh i = refreshed
  obtain ⟨s, outcome⟩ := refreshed
  cases outcome <;> exact ⟨rfl, rfl⟩

section Refreshed

variable {Q : Node → Node → RenderResult → RenderResult → Prop} {H : Holes} {a b : Node}
variable {i j : InstanceId} {lo₁ lo₂ : InstanceId} {x y : Instance} {w₁ w₂ : World}

/-- The last refresh of instances that may count as destroyed, with a child in one of them
    only: it may come to different things, and leaves what no refresh changes. -/
theorem meet_finish_torn (hij : T.instances i j) (hakin : x.Akin T.hosts y)
    (hshadow : x.blueprint.Shadowed) (hx : w₁.store.instances[i]? = some x)
    (hy : w₂.store.instances[j]? = some y) (F : T.Fit w₁.store w₂.store) (hi : i < lo₁)
    (hj : j < lo₂) (htorn : Torn H 0 a.children b.children rs rs')
    (hchildren : AlikeAllIn Q T lo₁ lo₂ w₁.store w₂.store H 0 a.children b.children rs rs')
    (warnings : List String) :
    Meet Q T i j H a b ((finish a i rs warnings).run w₁) ((finish b j rs' warnings).run w₂) := by
  have a₁ := Store.alters_refresh w₁.store i
  have a₂ := Store.alters_refresh w₂.store j
  obtain ⟨x', hx', hsettled₁, -⟩ := a₁.own hx
  obtain ⟨y', hy', hsettled₂, -⟩ := a₂.own hy
  obtain ⟨hanswer₁, hstore₁⟩ := run_finish a i rs warnings w₁
  obtain ⟨hanswer₂, hstore₂⟩ := run_finish b j rs' warnings w₂
  rw [Meet, hanswer₁, hanswer₂, hstore₁, hstore₂]
  refine ⟨T, .refl T, F.widen a₁.widens a₂.widens, .torn _ _ warnings ?_ htorn ?_⟩
  · exact ⟨Nat.le_refl i, Nat.le_refl j, hij, x', y', hx', hy', hakin.settled hsettled₁ hsettled₂,
      hsettled₁.blueprint ▸ hshadow⟩
  · exact hchildren.later (.refl T) (Nat.le_of_lt hi) (Nat.le_of_lt hj) (keeps_of_alters a₁ hi)
      (keeps_of_alters a₂ hj)

/-- The last refresh of instances that are abreast. -/
theorem meet_finish_abreast (htype : a.type = b.type) (A : Abreast T i j x y w₁.store w₂.store)
    (hi : i < lo₁) (hj : j < lo₂)
    (hchildren : AlikeAllIn Q T lo₁ lo₂ w₁.store w₂.store H 0 a.children b.children rs rs')
    (warnings : List String) :
    Meet Q T i j H a b ((finish a i rs warnings).run w₁) ((finish b j rs' warnings).run w₂) := by
  have a₁ := Store.alters_refresh w₁.store i
  have a₂ := Store.alters_refresh w₂.store j
  obtain ⟨hanswer, T', hle, x', y', A'⟩ := A.refresh
  obtain ⟨hanswer₁, hstore₁⟩ := run_finish a i rs warnings w₁
  obtain ⟨hanswer₂, hstore₂⟩ := run_finish b j rs' warnings w₂
  have herror : mishap a (w₁.store.refresh i).2 = mishap b (w₂.store.refresh j).2 := by
    rw [hanswer]
    cases (w₂.store.refresh j).2 with
    | ok _ => rfl
    | error failure => rw [mishap, mishap, htype]
  rw [Meet, hanswer₁, hanswer₂, hstore₁, hstore₂, herror]
  refine ⟨T', hle, A'.fit, .shown _ warnings ?_ ?_⟩
  · exact ⟨Nat.le_refl i, Nat.le_refl j, A'.paired, x', y', A'.left, A'.right, A'.tied⟩
  · exact hchildren.later hle (Nat.le_of_lt hi) (Nat.le_of_lt hj) (keeps_of_alters a₁ hi)
      (keeps_of_alters a₂ hj)

/-- What the last refresh makes of two nodes whose children are alike. -/
theorem meet_finish (htype : a.type = b.type) (A : Abreast T i j x y s₁ s₂)
    (L₁ : LandsAll p₁ s₁ rs w₁.store) (L₂ : LandsAll p₂ s₂ rs' w₂.store)
    (hplaces : ∀ k, Option.Rel (Member.Tied T.hosts) (p₁ k) (p₂ k)) (hle : T.Le T')
    (F : T'.Fit w₁.store w₂.store)
    (hchildren : AlikeAllIn Q T' s₁.instances.length s₂.instances.length w₁.store w₂.store H 0
      a.children b.children rs rs') (warnings : List String) :
    Meet Q T' i j H a b ((finish a i rs warnings).run w₁) ((finish b j rs' warnings).run w₂) := by
  obtain ⟨hi, hj⟩ := A.fit.instances_lt A.paired
  have hx : w₁.store.instances[i]? = some x :=
    keeps_behind L₁.spreads.instances i i x (Nat.le_refl i) A.left
  have hy : w₂.store.instances[j]? = some y :=
    keeps_behind L₂.spreads.instances j j y (Nat.le_refl j) A.right
  by_cases htorn : Torn H 0 a.children b.children rs rs' ∧ x.blueprint.Shadowed
  · exact meet_finish_torn (hle.instances A.paired) (A.tied.toAkin.mono fun _ _ => hle.hosts)
      htorn.2 hx hy F hi hj htorn.1 hchildren warnings
  · have A' : Abreast T' i j x y w₁.store w₂.store := by
      refine A.behind hle F hx hy fun g h hshadow hg hh => ?_
      have hwhole : ¬ Torn H 0 a.children b.children rs rs' := fun ht => htorn ⟨ht, hshadow⟩
      have hgh : T.hosts g h := by
        have hcontent := A.tied.content
        rw [hg, hh] at hcontent
        cases hcontent
        assumption
      exact even_behind A.fit hgh L₁ L₂ hplaces (hchildren.component_isSome hwhole)
        (A.even hshadow hg hh)
    exact meet_finish_abreast htype A' hi hj hchildren warnings

end Refreshed

end Finishing

/-! ## Rendering -/

section Rendering

variable {c₁ c₂ : Context} {Q : Node → Node → RenderResult → RenderResult → Prop}

/-- Paired places are there. -/
theorem host_lt_of_tied {T : Ties} {s₁ s₂ : Store} {m m' : Member} (F : T.Fit s₁ s₂)
    (hm : m.Tied T.hosts m') : (∀ g, m = .host g → g < s₁.hosts.length) ∧
      ∀ h, m' = .host h → h < s₂.hosts.length := by
  cases hm with
  | output e e' => exact ⟨nofun, nofun⟩
  | @host g h hgh =>
    obtain ⟨hg, hh⟩ := F.hosts_lt hgh
    exact ⟨fun g' heq => Member.host.inj heq ▸ hg, fun h' heq => Member.host.inj heq ▸ hh⟩
  | same hm => exact ⟨fun g heq => absurd heq (hm g), fun h heq => absurd heq (hm h)⟩

theorem panels_lt_of_tied {T : Ties} {s₁ s₂ : Store} (F : T.Fit s₁ s₂)
    {panels panels' : List HostId} (hpanels : List.Forall₂ T.hosts panels panels') :
    (∀ g ∈ panels, g < s₁.hosts.length) ∧ ∀ h ∈ panels', h < s₂.hosts.length := by
  induction hpanels with
  | nil => exact ⟨nofun, nofun⟩
  | cons hgh _ ih =>
    obtain ⟨hg, hh⟩ := F.hosts_lt hgh
    exact ⟨List.forall_mem_cons.mpr ⟨hg, ih.1⟩, List.forall_mem_cons.mpr ⟨hh, ih.2⟩⟩

theorem panel_tied {R : HostId → HostId → Prop} {panels panels' : List HostId}
    (hpanels : List.Forall₂ R panels panels') (k : Nat) :
    Option.Rel R panels[k]? panels'[k]? := by
  induction hpanels generalizing k with
  | nil => exact .none
  | cons hgh _ ih =>
    cases k with
    | zero => exact .some hgh
    | succ k => exact ih k

/-- Whatever becomes of the children at a hole is as `Q` says. -/
def Holes.Answered (c₁ c₂ : Context) (H : Holes)
    (Q : Node → Node → RenderResult → RenderResult → Prop) : Prop :=
  ∀ q a b, H q a b → ∀ (m m' : Member) (w w' : World),
    Q a b ((renderChild c₁ m a).run w).1 ((renderChild c₂ m' b).run w').1

/-- What becomes of two children: they are a hole, or come out alike. -/
def MeetChild (Q : Node → Node → RenderResult → RenderResult → Prop) (T : Ties)
    (lo₁ lo₂ : InstanceId) (H : Holes) (k : Nat) (a b : Node) (out₁ out₂ : RenderResult × World) :
    Prop :=
  ∃ T', T.Le T' ∧ T'.Fit out₁.2.store out₂.2.store ∧
    (H [k] a b ∧ Q a b out₁.1 out₂.1 ∨ ¬ H [k] a b ∧
      AlikeIn Q T' lo₁ lo₂ out₁.2.store out₂.2.store (H.below k) a b out₁.1 out₂.1)

/-- A child before further ones. -/
theorem MeetChild.cons {T : Ties} {lo₁ lo₂ : InstanceId} {H : Holes} {k : Nat} {a b : Node}
    {as bs : List Node} {out₁ out₂ : RenderResult × World} {rest₁ rest₂ : List RenderResult × World}
    (h : MeetChild Q T lo₁ lo₂ H k a b out₁ out₂) (hlo₁ : lo₁ ≤ out₁.2.store.instances.length)
    (hlo₂ : lo₂ ≤ out₂.2.store.instances.length)
    (h₁ : out₁.2.store.instances <+: rest₁.2.store.instances)
    (h₂ : out₂.2.store.instances <+: rest₂.2.store.instances)
    (hrest : ∀ T', T.Le T' → T'.Fit out₁.2.store out₂.2.store →
      MeetAll Q T' out₁.2.store.instances.length out₂.2.store.instances.length H (k + 1) as bs
        rest₁ rest₂) :
    MeetAll Q T lo₁ lo₂ H k (a :: as) (b :: bs) (out₁.1 :: rest₁.1, rest₁.2)
      (out₂.1 :: rest₂.1, rest₂.2) := by
  obtain ⟨T', hle, F, hchild⟩ := h
  obtain ⟨T'', hle', F', htail⟩ := hrest T' hle F
  have htail' := htail.later (.refl T'') hlo₁ hlo₂ (fun _ _ _ hx => hx) fun _ _ _ hx => hx
  refine ⟨T'', hle.trans hle', F', ?_⟩
  rcases hchild with ⟨hH, hQ⟩ | ⟨hno, halike⟩
  · exact .hole hH hQ htail'
  · exact .cons hno (halike.later hle' (Nat.le_refl _) (Nat.le_refl _) (keeps_behind h₁ _)
      (keeps_behind h₂ _)) htail'

theorem run_unlessRefused (c : Context) (child : Node) (act : Act RenderResult) (w : World) :
    ∃ w', w'.store = w.store ∧ (unlessRefused c child act).run w =
      match refusal? c child with
      | some error => (.failed (some child) error, w')
      | none => act.run w' := by
  obtain ⟨hanswer, hstore⟩ := run_refuse c child w
  refine ⟨((refuse c child).run w).2, hstore, ?_⟩
  rw [unlessRefused, Act.run_bind, hanswer]
  cases refusal? c child <;> rfl

/-- Children in places that are paired, when nodes in such places meet. -/
theorem meet_child {H : Holes} {k : Nat} {T : Ties} {a b : Node} {m m' : Member} {w₁ w₂ : World}
    (hQ : H.Answered c₁ c₂ Q) (F : T.Fit w₁.store w₂.store) (hm : m.Tied T.hosts m')
    (hhead : H [k] a b ∨ refusal? c₁ a = refusal? c₂ b ∧
      ∀ u₁ u₂ : World, T.Fit u₁.store u₂.store →
        Meet Q T u₁.store.instances.length u₂.store.instances.length (H.below k) a b
          ((renderNode c₁ (some m) a).run u₁) ((renderNode c₂ (some m') b).run u₂)) :
    MeetChild Q T w₁.store.instances.length w₂.store.instances.length H k a b
      ((renderChild c₁ m a).run w₁) ((renderChild c₂ m' b).run w₂) := by
  by_cases hH : H [k] a b
  · obtain ⟨hg, hh⟩ := host_lt_of_tied F hm
    have L₁ := lands_child c₁ m a w₁ hg
    have L₂ := lands_child c₂ m' b w₂ hh
    exact ⟨T, .refl T, F.widen L₁.spreads.widens L₂.spreads.widens,
      .inl ⟨hH, hQ [k] a b hH m m' w₁ w₂⟩⟩
  · obtain ⟨hrefusal, hmeet⟩ := hhead.resolve_left hH
    obtain ⟨u₁, hu₁, hrun₁⟩ := run_unlessRefused c₁ a (renderNode c₁ (some m) a) w₁
    obtain ⟨u₂, hu₂, hrun₂⟩ := run_unlessRefused c₂ b (renderNode c₂ (some m') b) w₂
    rw [renderChild, renderChild, hrun₁, hrun₂, hrefusal, ← hu₁, ← hu₂]
    rw [← hu₁, ← hu₂] at F
    cases refusal? c₂ b with
    | some error => exact ⟨T, .refl T, F, .inr ⟨hH, .failed error⟩⟩
    | none =>
      obtain ⟨T', hle, F', halike⟩ := hmeet u₁ u₂ F
      exact ⟨T', hle, F', .inr ⟨hH, halike⟩⟩

/-- Nodes that were given up before their children are alike. -/
theorem meet_abandoned {T : Ties} {H : Holes} {a b : Node} {i j : InstanceId} {w₁ w₂ : World}
    (htype : a.type = b.type) (hpaired : Paired T i j w₁.store w₂.store) (warnings : List String)
    (failure : Failure) :
    Meet Q T i j H a b ((abandoned a i [] warnings failure).run w₁)
      ((abandoned b j [] warnings failure).run w₂) := by
  obtain ⟨x, y, A⟩ := hpaired
  refine ⟨T, .refl T, A.fit, ?_⟩
  change AlikeIn Q T i j w₁.store w₂.store H a b
    ⟨some i, some a, some ("Failed to render component '" ++ a.type.getD "" ++ "': " ++
      failure.message), [], warnings⟩
    ⟨some j, some b, some ("Failed to render component '" ++ b.type.getD "" ++ "': " ++
      failure.message), [], warnings⟩
  rw [htype]
  exact .shown _ warnings ⟨Nat.le_refl i, Nat.le_refl j, A.paired, x, y, A.left, A.right, A.tied⟩
    .nil

theorem meet_childless {T : Ties} {H : Holes} {a b : Node} {i j : InstanceId} {w₁ w₂ : World}
    (htype : a.type = b.type) (hpaired : Paired T i j w₁.store w₂.store) (warnings : List String) :
    Meet Q T i j H a b ((finish a i [] warnings).run w₁) ((finish b j [] warnings).run w₂) := by
  obtain ⟨x, y, A⟩ := hpaired
  exact meet_finish htype A (.nil (fun _ => none) w₁.store) (.nil (fun _ => none) w₂.store)
    (fun _ => .none) (.refl T) A.fit .nil warnings

/-- Beyond the last panel there is no result. -/
theorem renderApart_beyond (c : Context) (type : String) (panels : List HostId) :
    ∀ (children : List Node) (index : Nat) (w : World), panels[index]? = none →
      ((renderApart c type panels index children).run w).1.1 = []
  | [], _, _, _ => rfl
  | child :: rest, index, w, hnone => by
    rw [renderApart, hnone]
    dsimp only
    rw [Act.run_bind, Act.run_bind]
    refine renderApart_beyond c type panels rest (index + 1) _ ?_
    rw [List.getElem?_eq_none_iff] at hnone ⊢
    exact Nat.le_succ_of_le hnone

/-- The children of instances that are abreast, in places that are paired, when children in
    such places meet. -/
theorem meet_house {T : Ties} {H : Holes} {a b : Node} {i j : InstanceId}
    {found found' : Except Failure Places} {w₁ w₂ : World} (htype : a.type = b.type)
    (hlength : a.children.length = b.children.length)
    (hfound : Answered (Places.Tied T) found found') (hpaired : Paired T i j w₁.store w₂.store)
    (warnings : List String)
    (htogether : ∀ {m m' : Member}, m.Tied T.hosts m' →
      MeetAll Q T w₁.store.instances.length w₂.store.instances.length H 0 a.children b.children
        ((renderTogether c₁ m a.children).run w₁) ((renderTogether c₂ m' b.children).run w₂))
    (hapart : ∀ {panels panels' : List HostId}, List.Forall₂ T.hosts panels panels' →
      MeetApart Q T w₁.store.instances.length w₂.store.instances.length H 0 a.children b.children
        ((renderApart c₁ (b.type.getD "") panels 0 a.children).run w₁)
        ((renderApart c₂ (b.type.getD "") panels' 0 b.children).run w₂)) :
    Meet Q T i j H a b ((house c₁ a i warnings found).run w₁)
      ((house c₂ b j warnings found').run w₂) := by
  cases hfound with
  | failed failure => exact meet_abandoned htype hpaired warnings failure
  | done htied =>
    obtain ⟨x, y, A⟩ := hpaired
    cases htied with
    | nowhere =>
      rw [house, house, Act.run_bind, Act.run_bind, hlength, htype]
      have hpaired : Paired T i j
          ((homeless (b.type.getD "") b.children.length).run w₁).2.store
          ((homeless (b.type.getD "") b.children.length).run w₂).2.store := ⟨x, y, A⟩
      exact meet_childless htype hpaired _
    | @together m m' hm =>
      rw [house, house, Act.run_bind, Act.run_bind]
      obtain ⟨hin₁, hin₂⟩ := host_lt_of_tied A.fit hm
      obtain ⟨T', hle, F', hmeet⟩ := htogether hm
      exact Meet.from hle <| meet_finish htype A (lands_together c₁ m a.children w₁ hin₁)
        (lands_together c₂ m' b.children w₂ hin₂) (fun _ => .some hm) hle F' hmeet warnings
    | @onePerPanel panels panels' hpanels =>
      rw [house, house, Act.run_bind, Act.run_bind, htype]
      obtain ⟨⟨T', hle, F', hmeet⟩, hwarnings⟩ := hapart hpanels
      obtain ⟨hin₁, hin₂⟩ := panels_lt_of_tied A.fit hpanels
      have L₁ := lands_apart c₁ (b.type.getD "") panels 0 a.children w₁ hin₁
      have L₂ := lands_apart c₂ (b.type.getD "") panels' 0 b.children w₂ hin₂
      dsimp only
      rw [hwarnings]
      exact Meet.from hle <| meet_finish htype A L₁ L₂
        (fun k => rel_map (panel_tied hpanels (0 + k)) fun _ _ => .host) hle F' hmeet _

/-- New instances that are abreast are prepared and furnished alike, when children in places that
    are paired meet. -/
theorem meet_settle {T : Ties} {H : Holes} {a b : Node} {i j : InstanceId} {w₁ w₂ : World}
    (htype : a.type = b.type) (hprops : a.props = b.props) (hevents : a.events = b.events)
    (hlength : a.children.length = b.children.length) (hregistry : c₁.registry = c₂.registry)
    (hyoung : Young T i j w₁.store w₂.store)
    (htogether : ∀ {T : Ties} {m m' : Member} {w₁ w₂ : World}, T.Fit w₁.store w₂.store →
      m.Tied T.hosts m' →
      MeetAll Q T w₁.store.instances.length w₂.store.instances.length H 0 a.children b.children
        ((renderTogether c₁ m a.children).run w₁) ((renderTogether c₂ m' b.children).run w₂))
    (hapart : ∀ {T : Ties} {panels panels' : List HostId} {w₁ w₂ : World},
      T.Fit w₁.store w₂.store → List.Forall₂ T.hosts panels panels' →
      MeetApart Q T w₁.store.instances.length w₂.store.instances.length H 0 a.children b.children
        ((renderApart c₁ (b.type.getD "") panels 0 a.children).run w₁)
        ((renderApart c₂ (b.type.getD "") panels' 0 b.children).run w₂)) :
    Meet Q T i j H a b ((settle c₁ a (.ok i)).run w₁) ((settle c₂ b (.ok j)).run w₂) := by
  rw [settle, settle, Act.run_bind, Act.run_bind]
  obtain ⟨T', hle, hanswer, hpaired⟩ := joint_prepare htype hprops hevents w₁ w₂ hyoung
  refine Meet.from hle ?_
  revert hanswer hpaired
  generalize (prepare a i).run w₁ = prepared₁
  generalize (prepare b j).run w₂ = prepared₂
  obtain ⟨⟨warnings, outcome⟩, u₁⟩ := prepared₁
  obtain ⟨answer, u₂⟩ := prepared₂
  rintro rfl hpaired
  cases outcome with
  | error failure => exact meet_abandoned htype hpaired warnings failure
  | ok _ =>
    have hempty : a.children.isEmpty = b.children.isEmpty := by
      rw [Bool.eq_iff_iff, List.isEmpty_iff_length_eq_zero, List.isEmpty_iff_length_eq_zero,
        hlength]
    rw [furnish, furnish, hempty, htype]
    split
    · exact meet_childless htype hpaired warnings
    · rw [Act.run_bind, Act.run_bind]
      obtain ⟨T'', hle, hfound, hpaired⟩ :=
        joint_placesOf hregistry (b.type.getD "") u₁ u₂ hpaired
      refine Meet.from hle (meet_house htype hlength hfound hpaired warnings ?_ ?_)
      · obtain ⟨x, y, A⟩ := hpaired
        exact htogether A.fit
      · obtain ⟨x, y, A⟩ := hpaired
        exact hapart A.fit

/-- Past the last panel there are only warnings. -/
theorem meet_unplaced {H : Holes} {T : Ties} {lo₁ lo₂ lo₁' lo₂' : InstanceId} {type : String}
    {as bs as' bs' : List Node} {k : Nat} {panels panels' : List HostId} {w₁ w₂ : World}
    (hlength : panels.length = panels'.length) (hg : panels[k]? = none) (hh : panels'[k]? = none)
    (hrest : MeetApart Q T lo₁ lo₂ H (k + 1) as bs
      ((renderApart c₁ type panels (k + 1) as).run ((unplaced type k panels.length).run w₁).2)
      ((renderApart c₂ type panels' (k + 1) bs).run ((unplaced type k panels'.length).run w₂).2)) :
    MeetApart Q T lo₁' lo₂' H k as' bs'
      ((do
        let warning ← unplaced type k panels.length
        let (results, warnings) ← renderApart c₁ type panels (k + 1) as
        return (results, warning :: warnings)).run w₁)
      ((do
        let warning ← unplaced type k panels'.length
        let (results, warnings) ← renderApart c₂ type panels' (k + 1) bs
        return (results, warning :: warnings)).run w₂) := by
  obtain ⟨⟨T', hle, F', -⟩, hwarnings⟩ := hrest
  have hbeyond {l : List HostId} (hl : l[k]? = none) : l[k + 1]? = none := by
    rw [List.getElem?_eq_none_iff] at hl ⊢
    exact Nat.le_succ_of_le hl
  rw [Act.run_bind, Act.run_bind, Act.run_bind, Act.run_bind]
  refine ⟨⟨T', hle, F', ?_⟩, ?_⟩
  · change AlikeAllIn Q T' _ _ _ _ H k _ _ ((renderApart c₁ type panels (k + 1) as).run _).1.1
      ((renderApart c₂ type panels' (k + 1) bs).run _).1.1
    rw [renderApart_beyond c₁ type panels as _ _ (hbeyond hg),
      renderApart_beyond c₂ type panels' bs _ _ (hbeyond hh)]
    exact .nil
  · rw [hlength] at hwarnings ⊢
    exact congrArg (_ :: ·) hwarnings

mutual
theorem alike_node (hregistry : c₁.registry = c₂.registry) : ∀ (a b : Node) {H : Holes} {T : Ties}
    {target target' : Option Member} {w₁ w₂ : World}, H.Answered c₁ c₂ Q → Matches c₁ c₂ H a b →
    T.Fit w₁.store w₂.store → Option.Rel (Member.Tied T.hosts) target target' →
    Meet Q T w₁.store.instances.length w₂.store.instances.length H a b
      ((renderNode c₁ target a).run w₁) ((renderNode c₂ target' b).run w₂)
  | ⟨id, type, props, children, events, extras, source⟩, b, H, T, target, target', w₁, w₂,
      hQ, hmatches, F, htarget => by
    rw [Matches] at hmatches
    obtain ⟨htype, hprops, hevents, hchildren⟩ := hmatches
    rw [renderNode_eq, renderNode_eq, Act.run_bind, Act.run_bind]
    rcases instantiate_pair hregistry (a := ⟨id, type, props, children, events, extras, source⟩)
        htype htarget w₁ w₂ with
      ⟨fault, h₁, h₂, hs₁, hs₂⟩ |
      ⟨_, _, rfl, rfl, g, h, blueprint, x, y, rfl, rfl, hgh, h₁, h₂, m₁, m₂⟩
    · rw [h₁, h₂]
      refine ⟨T, .refl T, ?_, .failed _⟩
      exact (hs₁.symm ▸ hs₂.symm ▸ F : T.Fit _ _)
    · refine Meet.from (T.le_linkInstances w₁.store.instances.length w₂.store.instances.length) ?_
      rw [h₁, h₂]
      refine meet_settle htype hprops hevents hchildren.length_eq hregistry
        (Young.of_makes F hgh m₁ m₂) ?_ ?_
      · exact fun F hm => alike_together hregistry children b.children hQ hchildren F hm
      · exact fun F hpanels =>
          alike_apart hregistry (b.type.getD "") children b.children 0 hQ hchildren F hpanels

theorem alike_together (hregistry : c₁.registry = c₂.registry) : ∀ (as bs : List Node)
    {H : Holes} {k : Nat} {T : Ties} {m m' : Member} {w₁ w₂ : World}, H.Answered c₁ c₂ Q →
    MatchesAll c₁ c₂ H k as bs → T.Fit w₁.store w₂.store → m.Tied T.hosts m' →
    MeetAll Q T w₁.store.instances.length w₂.store.instances.length H k as bs
      ((renderTogether c₁ m as).run w₁) ((renderTogether c₂ m' bs).run w₂)
  | [], [], H, k, T, m, m', w₁, w₂, _, _, F, _ => ⟨T, .refl T, F, .nil⟩
  | [], _ :: _, _, _, _, _, _, _, _, _, h, _, _ => by simp [MatchesAll] at h
  | _ :: _, [], _, _, _, _, _, _, _, _, h, _, _ => by simp [MatchesAll] at h
  | a :: as, b :: bs, H, k, T, m, m', w₁, w₂, hQ, hmatches, F, hm => by
    rw [MatchesAll] at hmatches
    have hchild := meet_child hQ F hm <| hmatches.1.imp_right fun ⟨hrefusal, hnode⟩ =>
      ⟨hrefusal, fun u₁ u₂ F =>
        alike_node hregistry a b (fun q => hQ (k :: q)) hnode F (.some hm)⟩
    obtain ⟨hg, hh⟩ := host_lt_of_tied F hm
    have L₁ := (lands_child c₁ m a w₁ hg).spreads
    have L₂ := (lands_child c₂ m' b w₂ hh).spreads
    have A₁ := lands_together c₁ m as ((renderChild c₁ m a).run w₁).2 fun g hg' =>
      Nat.lt_of_lt_of_le (hg g hg') L₁.hosts_le
    have A₂ := lands_together c₂ m' bs ((renderChild c₂ m' b).run w₂).2 fun h hh' =>
      Nat.lt_of_lt_of_le (hh h hh') L₂.hosts_le
    rw [renderTogether, renderTogether, Act.run_bind, Act.run_bind, Act.run_bind, Act.run_bind]
    exact hchild.cons L₁.instances.length_le L₂.instances.length_le A₁.spreads.instances
      A₂.spreads.instances fun T' hle F' =>
        alike_together hregistry as bs hQ hmatches.2 F' (hm.mono fun _ _ => hle.hosts)

theorem alike_apart (hregistry : c₁.registry = c₂.registry) (type : String) : ∀ (as bs : List Node)
    (k : Nat) {H : Holes} {T : Ties} {panels panels' : List HostId} {w₁ w₂ : World},
    H.Answered c₁ c₂ Q → MatchesAll c₁ c₂ H k as bs → T.Fit w₁.store w₂.store →
    List.Forall₂ T.hosts panels panels' →
    MeetApart Q T w₁.store.instances.length w₂.store.instances.length H k as bs
      ((renderApart c₁ type panels k as).run w₁) ((renderApart c₂ type panels' k bs).run w₂)
  | [], [], _, H, T, _, _, w₁, w₂, _, _, F, _ => ⟨⟨T, .refl T, F, .nil⟩, rfl⟩
  | [], _ :: _, _, _, _, _, _, _, _, _, h, _, _ => by simp [MatchesAll] at h
  | _ :: _, [], _, _, _, _, _, _, _, _, h, _, _ => by simp [MatchesAll] at h
  | a :: as, b :: bs, k, H, T, panels, panels', w₁, w₂, hQ, hmatches, F, hpanels => by
    rw [MatchesAll] at hmatches
    rw [renderApart, renderApart]
    have hpanel := panel_tied hpanels k
    revert hpanel
    cases hg : panels[k]? with
    | none =>
      cases hh : panels'[k]? with
      | some h => exact nofun
      | none =>
        intro _
        have hfit : T.Fit ((unplaced type k panels.length).run w₁).2.store
            ((unplaced type k panels'.length).run w₂).2.store := F
        exact meet_unplaced hpanels.length_eq hg hh
          (alike_apart hregistry type as bs (k + 1) hQ hmatches.2 hfit hpanels)
    | some g =>
      cases hh : panels'[k]? with
      | none => exact nofun
      | some h =>
        rintro (hgh | _)
        have hm : (Member.host g).Tied T.hosts (.host h) := .host hgh
        obtain ⟨hlt₁, hlt₂⟩ := panels_lt_of_tied F hpanels
        have hchild := meet_child hQ F hm <| hmatches.1.imp_right fun ⟨hrefusal, hnode⟩ =>
          ⟨hrefusal, fun u₁ u₂ F =>
            alike_node hregistry a b (fun q => hQ (k :: q)) hnode F (.some hm)⟩
        obtain ⟨hin₁, hin₂⟩ := host_lt_of_tied F hm
        have L₁ := (lands_child c₁ (.host g) a w₁ hin₁).spreads
        have L₂ := (lands_child c₂ (.host h) b w₂ hin₂).spreads
        have A₁ := lands_apart c₁ type panels (k + 1) as
          ((renderChild c₁ (.host g) a).run w₁).2
          fun g hg => Nat.lt_of_lt_of_le (hlt₁ g hg) L₁.hosts_le
        have A₂ := lands_apart c₂ type panels' (k + 1) bs
          ((renderChild c₂ (.host h) b).run w₂).2
          fun h hh => Nat.lt_of_lt_of_le (hlt₂ h hh) L₂.hosts_le
        dsimp only
        rw [Act.run_bind, Act.run_bind, Act.run_bind, Act.run_bind]
        refine ⟨hchild.cons L₁.instances.length_le L₂.instances.length_le A₁.spreads.instances
          A₂.spreads.instances fun T' hle F' => (alike_apart hregistry type as bs (k + 1) hQ
            hmatches.2 F' (hpanels.imp fun _ _ => hle.hosts)).1, ?_⟩
        obtain ⟨T', hle, F', -⟩ := hchild
        exact (alike_apart hregistry type as bs (k + 1) hQ hmatches.2 F'
          (hpanels.imp fun _ _ => hle.hosts)).2
end

/-! ## Render passes -/

/-- A pass renders its node; the record of it is not in the store. -/
theorem run_render (c : Context) (node : Node) (host : Option HostId) (w : World) :
    ∃ w', w'.store = w.store ∧
      ((render c node host).run w).1 = ((renderNode c (host.map .host) node).run w').1 ∧
      ((render c node host).run w).2.store =
        ((renderNode c (host.map .host) node).run w').2.store :=
  ⟨w.note [Telemetry.Span.opened "render" [("type", typeJson node.type)]], rfl, rfl, rfl⟩

theorem lands_render (c : Context) (node : Node) (host : Option HostId) (w : World)
    (hhost : ∀ h, host = some h → h < w.store.hosts.length) :
    Lands (host.map .host) w.store ((render c node host).run w).1
      ((render c node host).run w).2.store := by
  obtain ⟨w', hw', hanswer, hstore⟩ := run_render c node host w
  rw [hanswer, hstore, ← hw']
  refine lands_node c _ node w' fun g hg => hw' ▸ hhost g ?_
  obtain ⟨h, hh, hgh⟩ := Option.map_eq_some_iff.mp hg
  rw [hh, Member.host.inj hgh]

theorem meet_render (hregistry : c₁.registry = c₂.registry) {a b : Node} {H : Holes} {T : Ties}
    {host host' : Option HostId} {w₁ w₂ : World} (hQ : H.Answered c₁ c₂ Q)
    (hmatches : Matches c₁ c₂ H a b) (F : T.Fit w₁.store w₂.store)
    (hhost : Option.Rel T.hosts host host') :
    Meet Q T w₁.store.instances.length w₂.store.instances.length H a b
      ((render c₁ a host).run w₁) ((render c₂ b host').run w₂) := by
  obtain ⟨u₁, hu₁, hanswer₁, hstore₁⟩ := run_render c₁ a host w₁
  obtain ⟨u₂, hu₂, hanswer₂, hstore₂⟩ := run_render c₂ b host' w₂
  rw [← hu₁, ← hu₂] at F
  rw [Meet, hanswer₁, hanswer₂, hstore₁, hstore₂, ← hu₁, ← hu₂]
  exact alike_node hregistry a b hQ hmatches F (rel_map hhost fun _ _ => .host)

end Rendering

end ViewTree.Render
