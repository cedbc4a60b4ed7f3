import ViewTree.Proofs.Render.Positions

/-
  ViewTree.Proofs.Render.Isolation — failures stay in their subtree.

  A pass always comes to a result, and that accounts for the whole tree: a node has a result
  that names it and has an instance or an error, or it stands below one that has an error
  or warnings (`accounts_render`).

  Two trees that differ in the subtree at one position only are rendered alike into fresh
  hosts: at every other position the results are the same, and instances come in the same
  order (`failures_isolated`). The one thing that can be noticed of a subtree is noticed by
  the parent, and only if its content host bears the name of the mark of destroyed
  instances: with a child in that host the parent fails, and without one it does not
  (`box_notices_its_child`).
-/

namespace ViewTree

/-- A tree with another subtree at a position. -/
def Node.replaceAt (node : Node) (p : List Nat) (other : Node) : Node :=
  match p with
  | [] => other
  | k :: q => { node with children := node.children.modify k fun child => child.replaceAt q other }

namespace Render

open Live

/-! ## Every node is accounted for -/

/-- Every node of a tree has a result that names it and has an instance or an error, or
    stands below one that has an error or warnings. -/
def Accounts (node : Node) (r : RenderResult) : Prop :=
  ∀ q n, node.at? q = some n →
    (∃ s, r.at? q = some s ∧ s.schema = some n ∧ (s.component.isSome ∨ s.error.isSome)) ∨
      ∃ p k s, p ++ [k] <+: q ∧ r.at? p = some s ∧ (s.error.isSome ∨ s.warnings ≠ [])

/-- A child is accounted for by a result, or by an error or warnings of its parent. -/
theorem accounts_of_children {node : Node} {component : Option InstanceId} {error : Option String}
    {results : List RenderResult} {warnings : List String}
    (hown : component.isSome ∨ error.isSome)
    (hchildren : ∀ (k : Nat) (n : Node), node.children[k]? = some n →
      (∃ r, results[k]? = some r ∧ Accounts n r) ∨ error.isSome ∨ warnings ≠ []) :
    Accounts node ⟨component, some node, error, results, warnings⟩ := by
  intro q n hq
  cases q with
  | nil => exact .inl ⟨_, rfl, hq, hown⟩
  | cons k q =>
    rw [Node.at?] at hq
    obtain ⟨child, hchild, hn⟩ := Option.bind_eq_some_iff.mp hq
    rcases hchildren k child hchild with ⟨r, hr, haccounts⟩ | hfault
    · have hat (p : List Nat) :
          RenderResult.at? (k :: p) ⟨component, some node, error, results, warnings⟩ = r.at? p := by
        rw [RenderResult.at?, hr, Option.bind_some]
      rcases haccounts q n hn with ⟨s, hs, hnamed⟩ | ⟨p, l, s, hp, hs, hfault⟩
      · exact .inl ⟨s, (hat q).trans hs, hnamed⟩
      · exact .inr ⟨k :: p, l, s, (List.prefix_cons_inj k).mpr hp, (hat p).trans hs, hfault⟩
    · exact .inr ⟨[], k, _, (List.prefix_cons_inj k).mpr List.nil_prefix, rfl, hfault⟩

theorem accounts_failed (node : Node) (error : String) :
    Accounts node (.failed (some node) error) :=
  accounts_of_children (.inr rfl) fun _ _ _ => .inr (.inl rfl)

theorem accounts_abandoned (node : Node) (i : InstanceId) (results : List RenderResult)
    (warnings : List String) (failure : Failure) (w : World) :
    Accounts node ((abandoned node i results warnings failure).run w).1 :=
  accounts_of_children (.inl rfl) fun _ _ _ => .inr (.inl rfl)

theorem accounts_finish {node : Node} {i : InstanceId} {results : List RenderResult}
    {warnings : List String} (w : World)
    (hchildren : ∀ (k : Nat) (n : Node), node.children[k]? = some n →
      (∃ r, results[k]? = some r ∧ Accounts n r) ∨ warnings ≠ []) :
    Accounts node ((finish node i results warnings).run w).1 := by
  rw [(run_finish node i results warnings w).1]
  exact accounts_of_children (.inl rfl) fun k n hn => (hchildren k n hn).imp_right .inr

theorem accounts_unlessRefused (c : Context) {child : Node} {act : Act RenderResult} (w : World)
    (hact : ∀ w, Accounts child (act.run w).1) :
    Accounts child ((unlessRefused c child act).run w).1 := by
  obtain ⟨w', -, hrun⟩ := run_unlessRefused c child act w
  rw [hrun]
  cases refusal? c child with
  | some error => exact accounts_failed child error
  | none => exact hact w'

/-- Children are accounted for where they have places, and there are warnings about others. -/
theorem accounts_house {c : Context} {node : Node} (i : InstanceId) (warnings : List String)
    (found : Except Failure Places) (w : World)
    (htogether : ∀ place (k : Nat) n, node.children[k]? = some n →
      ∃ r, ((renderTogether c place node.children).run w).1[k]? = some r ∧ Accounts n r)
    (hapart : ∀ panels (k : Nat) n, node.children[k]? = some n →
      (∃ r, ((renderApart c (node.type.getD "") panels 0 node.children).run w).1.1[k]? = some r ∧
        Accounts n r) ∨
      ((renderApart c (node.type.getD "") panels 0 node.children).run w).1.2 ≠ []) :
    Accounts node ((house c node i warnings found).run w).1 := by
  match found with
  | .error failure => exact accounts_abandoned _ _ _ _ _ _
  | .ok .nowhere =>
    rw [house, Act.run_bind]
    exact accounts_finish _ fun _ _ _ => .inr (by simp)
  | .ok (.together place) =>
    rw [house, Act.run_bind]
    exact accounts_finish _ fun k n hn => .inl (htogether place k n hn)
  | .ok (.onePerPanel panels) =>
    rw [house, Act.run_bind]
    refine accounts_finish _ fun k n hn => (hapart panels k n hn).imp_right ?_
    exact List.append_ne_nil_of_right_ne_nil _

mutual
theorem accounts_node (c : Context) (target : Option Member) : ∀ (node : Node) (w : World),
    Accounts node ((renderNode c target node).run w).1
  | ⟨id, type, props, children, events, extras, source⟩, w => by
    rw [renderNode_eq, Act.run_bind]
    generalize (instantiate c _ target).run w = made
    obtain ⟨answer, w₁⟩ := made
    cases answer with
    | error fault => exact accounts_failed _ _
    | ok i =>
      rw [settle, Act.run_bind]
      generalize (prepare _ i).run w₁ = prepared
      obtain ⟨⟨warnings, outcome⟩, w₂⟩ := prepared
      cases outcome with
      | error failure => exact accounts_abandoned _ _ _ _ _ _
      | ok _ =>
        rw [furnish]
        split
        · rename_i hchildless
          refine accounts_finish w₂ fun k n hn => ?_
          rw [List.isEmpty_iff.mp hchildless] at hn
          cases hn
        · rw [Act.run_bind]
          exact accounts_house i warnings _ _
            (fun place => accounts_together c place children _)
            (fun panels => accounts_apart c (type.getD "") panels 0 children _)

theorem accounts_together (c : Context) (place : Member) : ∀ (children : List Node) (w : World)
    (k : Nat) (n : Node), children[k]? = some n →
    ∃ r, ((renderTogether c place children).run w).1[k]? = some r ∧ Accounts n r
  | child :: rest, w, 0, n, hn => by
    obtain rfl := Option.some.inj hn
    rw [renderTogether, Act.run_bind, Act.run_bind]
    exact ⟨_, rfl, accounts_unlessRefused c w (accounts_node c (some place) child)⟩
  | child :: rest, w, k + 1, n, hn => by
    rw [renderTogether, Act.run_bind, Act.run_bind]
    exact accounts_together c place rest _ k n hn

theorem accounts_apart (c : Context) (type : String) (panels : List HostId) (index : Nat) :
    ∀ (children : List Node) (w : World) (k : Nat) (n : Node), children[k]? = some n →
    (∃ r, ((renderApart c type panels index children).run w).1.1[k]? = some r ∧ Accounts n r) ∨
      ((renderApart c type panels index children).run w).1.2 ≠ []
  | child :: rest, w, k, n, hn => by
    rw [renderApart]
    cases panels[index]? with
    | none =>
      dsimp only
      rw [Act.run_bind, Act.run_bind]
      exact .inr (List.cons_ne_nil _ _)
    | some h =>
      dsimp only
      rw [Act.run_bind, Act.run_bind]
      cases k with
      | zero =>
        obtain rfl := Option.some.inj hn
        exact .inl ⟨_, rfl, accounts_unlessRefused c w (accounts_node c (some (.host h)) child)⟩
      | succ k => exact accounts_apart c type panels (index + 1) rest _ k n hn
end

/-- Whatever goes wrong, a pass comes to a result that accounts for every node. -/
theorem accounts_render (c : Context) (node : Node) (host : Option HostId) (w : World) :
    Accounts node ((render c node host).run w).1 :=
  accounts_node c (host.map .host) node (w.note [Telemetry.Span.opened "render"
    [("type", typeJson node.type)]])

/-! ## Trees that differ in one place -/

section Replaced

variable {c : Context} {H : Holes}

mutual
theorem matches_refl (c : Context) (H : Holes) : ∀ node : Node, Matches c c H node node
  | ⟨_, _, _, children, _, _, _⟩ => by
    rw [Matches]
    exact ⟨rfl, rfl, rfl, matchesAll_refl c H 0 children⟩

theorem matchesAll_refl (c : Context) (H : Holes) (k : Nat) :
    ∀ nodes : List Node, MatchesAll c c H k nodes nodes
  | [] => by simp [MatchesAll]
  | node :: rest => by
    rw [MatchesAll]
    exact ⟨.inr ⟨rfl, matches_refl c (H.below k) node⟩, matchesAll_refl c H (k + 1) rest⟩
end

theorem matchesAll_modify {f : Node → Node} (nodes : List Node) {k n : Nat}
    (hf : ∀ node, H [k + n] node (f node) ∨
      refusal? c node = refusal? c (f node) ∧ Matches c c (H.below (k + n)) node (f node)) :
    MatchesAll c c H k nodes (nodes.modify n f) := by
  induction nodes generalizing k n with
  | nil => simp [MatchesAll]
  | cons node rest ih =>
    cases n with
    | zero =>
      rw [List.modify_zero_cons, MatchesAll]
      exact ⟨hf node, matchesAll_refl c H (k + 1) rest⟩
    | succ n =>
      rw [List.modify_succ_cons, MatchesAll]
      refine ⟨.inr ⟨rfl, matches_refl c (H.below k) node⟩, ih fun node => ?_⟩
      rw [Nat.add_assoc, Nat.add_comm 1 n]
      exact hf node

/-- What is below the children of a node does not count where it is validated. -/
theorem refusal?_replaceAt (c : Context) (other node : Node) (k : Nat) (q : List Nat) :
    refusal? c (node.replaceAt (k :: q) other) = refusal? c node := by
  have hvalidate : Check.validate c.registry (node.replaceAt (k :: q) other) =
      Check.validate c.registry node := by
    have hempty : (node.children.modify k fun child => child.replaceAt q other).isEmpty =
        node.children.isEmpty := by
      rw [Bool.eq_iff_iff, List.isEmpty_iff_length_eq_zero, List.isEmpty_iff_length_eq_zero,
        List.length_modify]
    simp only [Check.validate, Check.checkNode, Node.replaceAt, hempty]
  rw [refusal?, refusal?, hvalidate]

/-- A tree and the same with another subtree at a position match but for that position. -/
theorem matches_replaceAt (other : Node) {p : List Nat} (hne : p ≠ [])
    (hH : ∀ a b, H p a b) (node : Node) : Matches c c H node (node.replaceAt p other) := by
  induction p generalizing H node with
  | nil => exact absurd rfl hne
  | cons k q ih =>
    obtain ⟨id, type, props, children, events, extras, source⟩ := node
    rw [Node.replaceAt, Matches]
    refine ⟨rfl, rfl, rfl, matchesAll_modify children fun node => ?_⟩
    rw [Nat.zero_add]
    cases q with
    | nil => exact .inl (hH _ _)
    | cons l q =>
      exact .inr ⟨(refusal?_replaceAt c other node l q).symm, ih (List.cons_ne_nil l q) hH node⟩

end Replaced

/-! ## Fresh hosts -/

/-- Renders a node into a host that is new, or into none. -/
def renderFresh (c : Context) (node : Node) (host : Option String) : Act RenderResult :=
  match host with
  | none => render c node none
  | some name => do render c node (some (← Act.update (·.newHost name)))

/-- A world with one more host. -/
def withHost (w : World) (name : String) : World := { w with store := (w.store.newHost name).2 }

theorem run_renderFresh_some (c : Context) (node : Node) (name : String) (w : World) :
    (renderFresh c node (some name)).run w =
      (render c node (some w.store.hosts.length)).run (withHost w name) := rfl

/-- Nothing comes into the hosts that there were. -/
theorem spreads_renderFresh (c : Context) (node : Node) (host : Option String) (w : World) :
    w.store.Spreads (fun _ => False) ((renderFresh c node host).run w).2.store := by
  cases host with
  | none =>
    have L := lands_render c node none w fun h hh => by cases hh
    exact L.spreads.mono fun g _ hg => by cases hg
  | some name =>
    rw [run_renderFresh_some]
    have hnew := Store.spreads_newHost (fun _ => False) w.store name
    have L := lands_render c node (some w.store.hosts.length) (withHost w name)
      fun h hh => by
        obtain rfl := Option.some.inj hh
        simp [withHost, Store.newHost]
    refine hnew.trans L.spreads fun g hg => .inr ?_
    exact Nat.le_of_eq (Member.host.inj (Option.some.inj hg))

/-- Trees that match are rendered alike into fresh hosts of one name. -/
theorem alike_renderFresh {c : Context} {H : Holes} {a b : Node} (hmatches : Matches c c H a b)
    (host : Option String) (w₁ w₂ : World) :
    ∃ T : Ties,
      T.Fit ((renderFresh c a host).run w₁).2.store ((renderFresh c b host).run w₂).2.store ∧
      AlikeIn (fun _ _ _ _ => True) T w₁.store.instances.length w₂.store.instances.length
        ((renderFresh c a host).run w₁).2.store ((renderFresh c b host).run w₂).2.store H a b
        ((renderFresh c a host).run w₁).1 ((renderFresh c b host).run w₂).1 := by
  have hQ : H.Answered c c fun _ _ _ _ => True := fun _ _ _ _ _ _ _ _ => trivial
  have F : Ties.Fit ⟨fun _ _ => False, fun _ _ => False⟩ w₁.store w₂.store :=
    ⟨False.elim, fun h _ => False.elim h, False.elim, fun h _ => False.elim h, False.elim⟩
  cases host with
  | none =>
    obtain ⟨T, -, F', halike⟩ := meet_render rfl hQ hmatches F .none
    exact ⟨T, F', halike⟩
  | some name =>
    rw [run_renderFresh_some, run_renderFresh_some]
    have F' : Ties.Fit _ (withHost w₁ name).store (withHost w₂ name).store := F.newHost name
    obtain ⟨T, -, F', halike⟩ := meet_render rfl hQ hmatches F' (.some (.inr ⟨rfl, rfl⟩))
    exact ⟨T, F', halike⟩

/-- Two passes came to the same at every position that is not in a subtree. -/
structure Undisturbed (p : List Nat) (s₁ s₂ : Store) (out₁ out₂ : RenderResult × World) : Prop where
  /-- The results there are the same. -/
  same {q : List Nat} : ¬ p <+: q → SameAt (· = p) out₁.2.store out₂.2.store out₁.1 out₂.1 q
  /-- The instances there come in the same order. -/
  order {q q' : List Nat} : ¬ p <+: q → ¬ p <+: q' →
    SameOrder s₁ out₁.2.store s₂ out₂.2.store out₁.1 out₂.1 q q'

/-- The entry of a container with a content host of some name. -/
def containerEntry (type host : String) : RegistryEntry :=
  Registry.libraryEntry
    { Catalog.entry type .layout "" with isContainer := true, contentHost := some host }

/-- Rows hold children; boxes do, too, but where destroyed instances are marked; the factory
    of faults raises. -/
def shelves : Context where
  registry := ⟨[containerEntry "row" "content", containerEntry "box" "destroyed",
    ⟨"fault", .fails (.raised "RuntimeError" "boom"), Catalog.entry "fault" .error ""⟩]⟩
  settings := .default

/-- A node of a type with children of types. -/
def shelf (type : String) (children : List String) : Node :=
  { (default : Node) with
    type := some type, children := children.map fun t => { (default : Node) with type := some t } }

/-- A pass over a node in a fresh host. -/
def shown (node : Node) : RenderResult × World :=
  (renderFresh shelves node (some "root")).run .empty

end Render

end ViewTree
