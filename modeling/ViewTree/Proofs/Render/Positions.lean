import ViewTree.Proofs.Render.Alike

/-
  ViewTree.Proofs.Render.Positions — what two passes have to show, position by position.

  A position is the way down to it: the numbers of the children that are gone through. Of
  an instance one can see its make, its inputs, how often it was refreshed, how many
  subscriptions it keeps and the name of its host (`View`). Two results are the same when
  they have the same error and warnings, and instances that look the same (`Same`).

  Results that are alike are the same at every position that is not in a hole, except
  where a child in a hole has an instance in one pass only, and the instance of its parent
  counts as destroyed by what its content host holds: there the error and the number of
  refreshes may differ (`Blurred`). And of two instances that came into one host, the first
  came first in both passes (`Seen.before_iff`).
-/

namespace ViewTree

/-- The node at a position. -/
def Node.at? : List Nat → Node → Option Node
  | [], node => some node
  | k :: q, node => (node.children[k]?).bind (at? q)

/-- The result at a position. -/
def RenderResult.at? : List Nat → RenderResult → Option RenderResult
  | [], r => some r
  | k :: q, r => (r.children[k]?).bind (at? q)

/-- The instance of the result at a position. -/
def RenderResult.component? (r : RenderResult) (q : List Nat) : Option Live.InstanceId :=
  (r.at? q).bind component

theorem Node.at?_append (node : Node) (p q : List Nat) :
    node.at? (p ++ q) = (node.at? p).bind (at? q) := by
  induction p generalizing node with
  | nil => rfl
  | cons k p ih =>
    rw [List.cons_append, at?, at?, Option.bind_assoc]
    exact congrArg _ (funext ih)

theorem RenderResult.at?_append (r : RenderResult) (p q : List Nat) :
    r.at? (p ++ q) = (r.at? p).bind (at? q) := by
  induction p generalizing r with
  | nil => rfl
  | cons k p ih =>
    rw [List.cons_append, at?, at?, Option.bind_assoc]
    exact congrArg _ (funext ih)

theorem Node.at?_concat {node n : Node} {q : List Nat} (h : node.at? q = some n) (k : Nat) :
    node.at? (q ++ [k]) = n.children[k]? := by
  rw [at?_append, h, Option.bind_some, at?]
  exact Option.bind_fun_some _

theorem RenderResult.at?_concat {r s : RenderResult} {q : List Nat} (h : r.at? q = some s)
    (k : Nat) : r.at? (q ++ [k]) = s.children[k]? := by
  rw [at?_append, h, Option.bind_some, at?]
  exact Option.bind_fun_some _

mutual
/-- The instances of a result are those at its positions. -/
theorem RenderResult.mem_components {i : Live.InstanceId} :
    ∀ {r : RenderResult}, i ∈ r.components → ∃ q, r.component? q = some i
  | ⟨component, schema, error, results, warnings⟩, h => by
    rw [components] at h
    rcases List.mem_append.mp h with h | h
    · exact ⟨[], Option.mem_toList.mp h⟩
    · obtain ⟨k, r, q, hr, hq⟩ := mem_componentsOf h
      exact ⟨k :: q, by rw [← hq, component?, component?, at?, hr, Option.bind_some]⟩

theorem RenderResult.mem_componentsOf {i : Live.InstanceId} : ∀ {rs : List RenderResult},
    i ∈ componentsOf rs →
      ∃ (k : Nat) (r : RenderResult) (q : List Nat), rs[k]? = some r ∧ r.component? q = some i
  | r :: rest, h => by
    rw [componentsOf] at h
    rcases List.mem_append.mp h with h | h
    · obtain ⟨q, hq⟩ := mem_components h
      exact ⟨0, r, q, rfl, hq⟩
    · obtain ⟨k, r, q, hr, hq⟩ := mem_componentsOf h
      exact ⟨k + 1, r, q, hr, hq⟩
end

namespace Live

/-! ## What is seen of instances -/

/-- What can be seen of a live instance. -/
structure View where
  blueprint : Blueprint
  inputs : Fields
  checks : Nat
  subscriptions : Nat
  host : Option String

namespace Store

def view (s : Store) (x : Instance) : View :=
  ⟨x.blueprint, x.inputs, x.checks, x.tracked.length, x.host.map s.hostName⟩

def view? (s : Store) (i : InstanceId) : Option View := (s.instances[i]?).map s.view

/-- Of two instances that have come into one host, the one comes before the other. -/
def Before (s s' : Store) (i j : InstanceId) : Prop :=
  ∃ g new, s'.hostOf i = some g ∧ s'.mounted g = s.mounted g ++ new ∧ [i, j].Sublist new

theorem pair_sublist_iff {l : List Nat} (h : l.Pairwise (· < ·)) {i j : Nat} :
    [i, j].Sublist l ↔ i ∈ l ∧ j ∈ l ∧ i < j := by
  refine ⟨fun hsub => ⟨hsub.subset (by simp), hsub.subset (by simp),
    List.pairwise_iff_forall_sublist.mp h hsub⟩, fun ⟨hi, hj, hlt⟩ => ?_⟩
  obtain ⟨before, behind, rfl⟩ := List.append_of_mem hi
  obtain ⟨-, hbehind, hbefore⟩ := List.pairwise_append.mp h
  rcases List.mem_append.mp hj with hj | hj
  · exact absurd (hbefore j hj i List.mem_cons_self) (Nat.lt_asymm hlt)
  · rcases List.mem_cons.mp hj with rfl | hj
    · exact absurd hlt (Nat.lt_irrefl j)
    · exact .trans (.cons_cons i (List.singleton_sublist.mpr hj)) (List.sublist_append_right _ _)

/-- New instances stand in a host in the order in which they came. -/
theorem before_iff {into : HostId → Prop} {s s' : Store} {i j : InstanceId}
    (p : s.Spreads into s') (hi : s.instances.length ≤ i) (hj : s.instances.length ≤ j) :
    Before s s' i j ↔ (∃ g, s'.hostOf i = some g ∧ s'.hostOf j = some g) ∧ i < j := by
  constructor
  · rintro ⟨g, new, hhost, hnew, hsub⟩
    obtain ⟨new', hnew', -, hsorted, hhosts⟩ := p.mounted g
    obtain rfl := List.append_cancel_left (hnew.symm.trans hnew')
    obtain ⟨-, hmem, hlt⟩ := (pair_sublist_iff hsorted).mp hsub
    exact ⟨⟨g, hhost, (hhosts j hmem).2⟩, hlt⟩
  · rintro ⟨⟨g, hi', hj'⟩, hlt⟩
    obtain ⟨new, hnew, -, hsorted, -⟩ := p.mounted g
    have hmem {k : InstanceId} (hk : s.instances.length ≤ k) (hk' : s'.hostOf k = some g) :
        k ∈ new := by
      obtain ⟨g', hg', -, -, new', hnew', hmem⟩ := p.housed hk (lt_of_hostOf hk')
      obtain rfl := Option.some.inj (hg'.symm.trans hk')
      rwa [List.append_cancel_left (hnew'.symm.trans hnew)] at hmem
    exact ⟨g, new, hi', hnew, (pair_sublist_iff hsorted).mpr ⟨hmem hi hi', hmem hj hj', hlt⟩⟩

end Store

section Views

variable {T : Ties} {s₁ s₂ : Store} {x y : Instance}

theorem hostName_of_akin (F : T.Fit s₁ s₂) (h : x.Akin T.hosts y) :
    x.host.map s₁.hostName = y.host.map s₂.hostName :=
  map_eq_of_rel h.host fun _ _ => F.names

/-- Instances that may count as destroyed differ in the number of their refreshes. -/
theorem view_of_akin (F : T.Fit s₁ s₂) (h : x.Akin T.hosts y) :
    s₂.view y = { s₁.view x with checks := y.checks } := by
  rw [Store.view, Store.view, hostName_of_akin F h, h.blueprint, h.inputs, h.tracked]

theorem view_of_tied (F : T.Fit s₁ s₂) (h : x.Tied T.hosts y) : s₂.view y = s₁.view x := by
  rw [view_of_akin F h.toAkin, ← h.checks]
  rfl

end Views

end Live

namespace Render

open Live

/-! ## Positions outside the holes -/

/-- The holes below a position. -/
def Holes.under (H : Holes) (p : List Nat) : Holes := fun q => H (p ++ q)

/-- No hole is on the way to a position. -/
def Clear (H : Holes) (a b : Node) (q : List Nat) : Prop :=
  ∀ p a' b', p <+: q → p ≠ [] → a.at? p = some a' → b.at? p = some b' → ¬ H p a' b'

section Positions

variable {K F : InstanceId → InstanceId → Prop}
variable {Q : Node → Node → RenderResult → RenderResult → Prop} {H : Holes} {a b : Node}
variable {r r' : RenderResult}

theorem Alike.children (h : Alike K F Q H a b r r') :
    AlikeAll K F Q H 0 a.children b.children r.children r'.children := by
  cases h with
  | failed error => exact .nil
  | shown error warnings hij h => exact h
  | torn error error' warnings hij ht h => exact h

/-- A child has no result in either pass, is a hole, or has results that are alike. -/
theorem AlikeAll.get? {k : Nat} {as bs : List Node} {rs rs' : List RenderResult}
    (h : AlikeAll K F Q H k as bs rs rs') (n : Nat) :
    rs[n]? = none ∧ rs'[n]? = none ∨
      ∃ a b r r', as[n]? = some a ∧ bs[n]? = some b ∧ rs[n]? = some r ∧ rs'[n]? = some r' ∧
        (H [k + n] a b ∧ Q a b r r' ∨
          ¬ H [k + n] a b ∧ Alike K F Q (H.below (k + n)) a b r r') := by
  induction n generalizing k as bs rs rs' with
  | zero =>
    cases h with
    | nil => exact .inl ⟨rfl, rfl⟩
    | hole hH hQ h => exact .inr ⟨_, _, _, _, rfl, rfl, rfl, rfl, .inl ⟨hH, hQ⟩⟩
    | cons hno h h' => exact .inr ⟨_, _, _, _, rfl, rfl, rfl, rfl, .inr ⟨hno, h⟩⟩
  | succ n ih =>
    rw [Nat.add_comm n 1, ← Nat.add_assoc]
    cases h with
    | nil => exact .inl ⟨rfl, rfl⟩
    | hole hH hQ h => exact Nat.add_comm 1 n ▸ ih h
    | cons hno h h' => exact Nat.add_comm 1 n ▸ ih h'

/-- At a position that no hole is on the way to there are results in both passes or in
    none, and they are alike. -/
theorem Alike.at? (h : Alike K F Q H a b r r') (q : List Nat) (hq : Clear H a b q) :
    r.at? q = none ∧ r'.at? q = none ∨
      ∃ a' b' s s', a.at? q = some a' ∧ b.at? q = some b' ∧ r.at? q = some s ∧
        r'.at? q = some s' ∧ Alike K F Q (H.under q) a' b' s s' := by
  induction q generalizing H a b r r' with
  | nil => exact .inr ⟨a, b, r, r', rfl, rfl, rfl, rfl, h⟩
  | cons k q ih =>
    rw [RenderResult.at?, RenderResult.at?, Node.at?, Node.at?]
    rcases h.children.get? k with ⟨hr, hr'⟩ | ⟨a', b', s, s', ha, hb, hr, hr', hchild⟩
    · rw [hr, hr']
      exact .inl ⟨rfl, rfl⟩
    · rw [ha, hb, hr, hr']
      rw [Nat.zero_add] at hchild
      have hat {node n : Node} (hn : node.children[k]? = some n) (p : List Nat) :
          node.at? (k :: p) = n.at? p := by
        rw [Node.at?, hn, Option.bind_some]
      rcases hchild with ⟨hH, -⟩ | ⟨-, hchild⟩
      · exact absurd hH (hq [k] a' b' ((List.prefix_cons_inj k).mpr List.nil_prefix) nofun
          (hat ha []) (hat hb []))
      · exact ih hchild fun p a'' b'' hp hne ha'' hb'' =>
          hq (k :: p) a'' b'' ((List.prefix_cons_inj k).mpr hp) nofun ((hat ha p).trans ha'')
            ((hat hb p).trans hb'')

end Positions

/-! ## The same results -/

/-- The same error and warnings, and instances that look the same. -/
structure Same (s₁ s₂ : Store) (r r' : RenderResult) : Prop where
  error : r.error = r'.error
  warnings : r.warnings = r'.warnings
  component : Option.Rel (fun i j => ∃ v, s₁.view? i = some v ∧ s₂.view? j = some v)
    r.component r'.component

/-- Instances that may count as destroyed, and look the same but for their refreshes. -/
structure Blurred (s₁ s₂ : Store) (r r' : RenderResult) : Prop where
  warnings : r.warnings = r'.warnings
  component : ∃ i j v n, r.component = some i ∧ r'.component = some j ∧ s₁.view? i = some v ∧
    s₂.view? j = some { v with checks := n } ∧ v.blueprint.Shadowed

theorem error_eq_of_same_root {s₁ s₂ : Store} {r r' : RenderResult}
    (h : Option.Rel (Same s₁ s₂) (r.at? []) (r'.at? [])) : r.error = r'.error := by
  cases h with
  | some h => exact h.error

/-- The result at a position has an instance in one pass only. -/
def Splits (r r' : RenderResult) (q : List Nat) : Prop :=
  ∃ s s', r.at? q = some s ∧ r'.at? q = some s' ∧ s.component.isSome ≠ s'.component.isSome

/-- At a position the results are the same, or blurred because of a child: it stands at one
    of certain positions, and has an instance in one pass only. -/
def SameAt (hole : List Nat → Prop) (s₁ s₂ : Store) (r r' : RenderResult) (q : List Nat) : Prop :=
  Option.Rel (fun s s' => Same s₁ s₂ s s' ∨
    Blurred s₁ s₂ s s' ∧ ∃ k, hole (q ++ [k]) ∧ Splits r r' (q ++ [k])) (r.at? q) (r'.at? q)

/-- Instances at two positions stand in one order in their hosts in both passes. -/
def SameOrder (s₁ t₁ s₂ t₂ : Store) (r r' : RenderResult) (q q' : List Nat) : Prop :=
  ∀ i i' j j', r.component? q = some i → r.component? q' = some i' → r'.component? q = some j →
    r'.component? q' = some j' → (s₁.Before t₁ i i' ↔ s₂.Before t₂ j j')

section Same

variable {T : Ties} {lo₁ lo₂ : InstanceId} {s₁ s₂ t₁ t₂ : Store} {H : Holes} {a b : Node}
variable {Q : Node → Node → RenderResult → RenderResult → Prop} {r r' : RenderResult}

theorem Alike.same (h : AlikeIn Q T lo₁ lo₂ t₁ t₂ H a b r r') (F : T.Fit t₁ t₂) :
    Same t₁ t₂ r r' ∨
      Blurred t₁ t₂ r r' ∧ Torn H 0 a.children b.children r.children r'.children := by
  cases h with
  | failed error => exact .inl ⟨rfl, rfl, .none⟩
  | shown error warnings hij h =>
    obtain ⟨x, y, hx, hy, htied⟩ := hij.related
    refine .inl ⟨rfl, rfl, .some ⟨t₁.view x, ?_, ?_⟩⟩
    · rw [Store.view?, hx, Option.map_some]
    · rw [Store.view?, hy, Option.map_some, view_of_tied F htied]
  | torn error error' warnings hij ht h =>
    obtain ⟨x, y, hx, hy, hakin, hshadow⟩ := hij.related
    refine .inr ⟨⟨rfl, _, _, t₁.view x, y.checks, rfl, rfl, ?_, ?_, hshadow⟩, ht⟩
    · rw [Store.view?, hx, Option.map_some]
    · rw [Store.view?, hy, Option.map_some, view_of_akin F hakin]

/-- Instances that are paired, in whatever way they correspond. -/
abbrev SeenAkin (T : Ties) (lo₁ lo₂ : InstanceId) (t₁ t₂ : Store) :=
  Seen Instance.Akin T lo₁ lo₂ t₁ t₂

theorem Alike.seen (h : AlikeIn Q T lo₁ lo₂ t₁ t₂ H a b r r') :
    Option.Rel (SeenAkin T lo₁ lo₂ t₁ t₂) r.component r'.component := by
  cases h with
  | failed error => exact .none
  | shown error warnings hij h =>
    obtain ⟨x, y, hx, hy, htied⟩ := hij.related
    exact .some { hij with related := ⟨x, y, hx, hy, htied.toAkin⟩ }
  | torn error error' warnings hij ht h =>
    obtain ⟨x, y, hx, hy, hakin, -⟩ := hij.related
    exact .some { hij with related := ⟨x, y, hx, hy, hakin⟩ }

theorem hostOf_rel {i j : InstanceId} (h : SeenAkin T lo₁ lo₂ t₁ t₂ i j) :
    Option.Rel T.hosts (t₁.hostOf i) (t₂.hostOf j) := by
  obtain ⟨x, y, hx, hy, hakin⟩ := h.related
  rw [Store.hostOf_some hx, Store.hostOf_some hy]
  exact hakin.host

/-- Paired instances stand in one order in their hosts. -/
theorem Seen.before_iff {into₁ into₂ : HostId → Prop} {i i' j j' : InstanceId}
    (h : SeenAkin T s₁.instances.length s₂.instances.length t₁ t₂ i j) (F : T.Fit t₁ t₂)
    (p₁ : s₁.Spreads into₁ t₁) (p₂ : s₂.Spreads into₂ t₂)
    (h' : SeenAkin T s₁.instances.length s₂.instances.length t₁ t₂ i' j') :
    s₁.Before t₁ i i' ↔ s₂.Before t₂ j j' := by
  rw [Store.before_iff p₁ h.le_left h'.le_left, Store.before_iff p₂ h.le_right h'.le_right,
    F.instances_iff h.paired h'.paired]
  refine and_congr_left fun _ => ?_
  have hrel := hostOf_rel h
  have hrel' := hostOf_rel h'
  revert hrel hrel'
  generalize t₁.hostOf i = a, t₁.hostOf i' = a', t₂.hostOf j = b, t₂.hostOf j' = b'
  rintro (hgh | _) (hgh' | _)
  · have hiff := F.hosts_iff hgh hgh'
    constructor
    · rintro ⟨g, hg, hg'⟩
      cases hg
      cases hg'
      exact ⟨_, rfl, congrArg some (hiff.mp rfl).symm⟩
    · rintro ⟨k, hk, hk'⟩
      cases hk
      cases hk'
      exact ⟨_, rfl, congrArg some (hiff.mpr rfl).symm⟩
  · exact iff_of_false (fun ⟨_, _, h⟩ => by cases h) fun ⟨_, _, h⟩ => by cases h
  · exact iff_of_false (fun ⟨_, h, _⟩ => by cases h) fun ⟨_, h, _⟩ => by cases h
  · exact iff_of_false (fun ⟨_, h, _⟩ => by cases h) fun ⟨_, h, _⟩ => by cases h

/-- Outside the holes results that are alike are the same. -/
theorem Alike.sameAt (h : AlikeIn Q T lo₁ lo₂ t₁ t₂ H a b r r') (F : T.Fit t₁ t₂) {q : List Nat}
    (hq : Clear H a b q) {hole : List Nat → Prop}
    (hhole : ∀ p a' b', a.at? p = some a' → b.at? p = some b' → H p a' b' → hole p) :
    SameAt hole t₁ t₂ r r' q := by
  unfold SameAt
  rcases h.at? q hq with ⟨hr, hr'⟩ | ⟨a', b', s, s', ha, hb, hs, hs', halike⟩
  · rw [hr, hr']
    exact .none
  · rw [hs, hs']
    refine .some ((halike.same F).imp_right fun ⟨hblurred, ht⟩ => ⟨hblurred, ?_⟩)
    obtain ⟨k, a'', b'', x, x', ha'', hb'', hx, hx', hH, hne⟩ := ht
    rw [Nat.zero_add] at hH
    rw [← Node.at?_concat ha] at ha''
    rw [← Node.at?_concat hb] at hb''
    rw [← RenderResult.at?_concat hs] at hx
    rw [← RenderResult.at?_concat hs'] at hx'
    exact ⟨k, hhole _ a'' b'' ha'' hb'' hH, x, x', hx, hx', hne⟩

theorem Alike.seenAt (h : AlikeIn Q T lo₁ lo₂ t₁ t₂ H a b r r') {q : List Nat}
    (hq : Clear H a b q) :
    Option.Rel (SeenAkin T lo₁ lo₂ t₁ t₂) (r.component? q) (r'.component? q) := by
  unfold RenderResult.component?
  rcases h.at? q hq with ⟨hr, hr'⟩ | ⟨a', b', s, s', ha, hb, hs, hs', halike⟩
  · rw [hr, hr']
    exact .none
  · rw [hs, hs']
    exact halike.seen

theorem Alike.sameOrder {into₁ into₂ : HostId → Prop}
    (h : AlikeIn Q T s₁.instances.length s₂.instances.length t₁ t₂ H a b r r') (F : T.Fit t₁ t₂)
    (p₁ : s₁.Spreads into₁ t₁) (p₂ : s₂.Spreads into₂ t₂) {q q' : List Nat} (hq : Clear H a b q)
    (hq' : Clear H a b q') :
    SameOrder s₁ t₁ s₂ t₂ r r' q q' := by
  intro i i' j j' hi hi' hj hj'
  have hseen := h.seenAt hq
  have hseen' := h.seenAt hq'
  rw [hi, hj] at hseen
  rw [hi', hj'] at hseen'
  cases hseen with
  | some hij =>
    cases hseen' with
    | some hij' => exact hij.before_iff F p₁ p₂ hij'

end Same

end Render

end ViewTree
