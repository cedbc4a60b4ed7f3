import Mathlib.Data.List.Induction
import ViewTree.Proofs.Render.Positions
import ViewTree.Proofs.Render.Twins

/-
  ViewTree.Proofs.Render.Pruning — validation of children only prunes.

  Where children are validated, a node below the root that does not satisfy its contract
  is cut: its result is the report of its problems, and nothing is rendered for it or
  below it. Everything that is not cut is rendered as it is without validation
  (`validation_prunes`): the results are the same, and the instances come in the same
  order. So the instances below the root are those of valid nodes, and where all nodes are
  valid the two passes come to the same results and the same store.

  A node can notice that a child was cut in one case only, when its content host bears the
  name of the mark of destroyed instances: the child is not there to make it fail
  (`box_without_its_child`).
-/

namespace ViewTree.Render

open Live

variable {registry : Registry} {settings : Settings}

/-- Rendering with or without validation of children. -/
def validating (registry : Registry) (settings : Settings) (on : Bool) : Context :=
  ⟨registry, { settings with validateChildren := on }⟩

/-- At a position there is a node, and it does not satisfy its contract. -/
def Fails (registry : Registry) (node : Node) (q : List Nat) : Prop :=
  ∃ n, node.at? q = some n ∧ Check.validate registry n ≠ []

/-- Every node on the way to a position, the root apart, satisfies its contract. -/
def Stands (registry : Registry) (node : Node) (q : List Nat) : Prop :=
  ∀ p, p <+: q → p ≠ [] → ¬ Fails registry node p

/-! ## Refusals -/

/-- The result of a node that is cut. -/
def cut (registry : Registry) (n : Node) : RenderResult :=
  .failed (some n) (Check.summary (Check.validate registry n))

theorem refusal?_off (child : Node) :
    refusal? (validating registry settings false) child = none := rfl

theorem refusal?_on_valid {child : Node} (h : Check.validate registry child = []) :
    refusal? (validating registry settings true) child = none := by
  unfold refusal? validating
  simp only [if_true]
  rw [h]
  rfl

theorem refusal?_on_failing {child : Node} (h : Check.validate registry child ≠ []) :
    refusal? (validating registry settings true) child =
      some (Check.summary (Check.validate registry child)) := by
  unfold refusal? validating
  simp only [if_true]
  rw [if_neg (by simpa using h)]

theorem run_renderChild_failing {child : Node} (h : Check.validate registry child ≠ [])
    (place : Member) (w : World) :
    ((renderChild (validating registry settings true) place child).run w).1 =
      cut registry child := by
  obtain ⟨w', -, hrun⟩ := run_unlessRefused (validating registry settings true) child
    (renderNode (validating registry settings true) (some place) child) w
  rw [renderChild, hrun, refusal?_on_failing h, cut]

/-! ## The two passes -/

/-- Nodes that do not satisfy their contract are holes. -/
def cuts (registry : Registry) : Holes := fun _ a b => a = b ∧ Check.validate registry a ≠ []

/-- In a hole the result of the validating pass is a report. -/
def Reported (registry : Registry) (_ b : Node) (_ r' : RenderResult) : Prop := r' = cut registry b

theorem answered_cuts (registry : Registry) (settings : Settings) :
    (cuts registry).Answered (validating registry settings false)
      (validating registry settings true) (Reported registry) := by
  rintro q a b ⟨rfl, hfails⟩ m m' w w'
  exact run_renderChild_failing hfails m' w'

mutual
theorem matches_cuts : ∀ node : Node, Matches (validating registry settings false)
    (validating registry settings true) (cuts registry) node node
  | ⟨_, _, _, children, _, _, _⟩ => by
    rw [Matches]
    exact ⟨rfl, rfl, rfl, matchesAll_cuts children 0⟩

theorem matchesAll_cuts : ∀ (nodes : List Node) (k : Nat),
    MatchesAll (validating registry settings false) (validating registry settings true)
      (cuts registry) k nodes nodes
  | [], _ => by simp [MatchesAll]
  | node :: rest, k => by
    rw [MatchesAll]
    refine ⟨?_, matchesAll_cuts rest (k + 1)⟩
    by_cases hvalid : Check.validate registry node = []
    · exact .inr ⟨by rw [refusal?_off, refusal?_on_valid hvalid], matches_cuts node⟩
    · exact .inl ⟨rfl, hvalid⟩
end

/-- Nothing is cut on the way to a position where the tree stands. -/
theorem clear_of_stands {node : Node} {q : List Nat} (h : Stands registry node q) :
    Clear (cuts registry) node node q :=
  fun p a _ hp hne ha _ hcut => h p hp hne ⟨a, ha, hcut.2⟩

/-- Where a tree does not stand, something on the way is the first to be cut. -/
theorem exists_cut {node : Node} {q : List Nat} (h : ¬ Stands registry node q) :
    ∃ p k, p ++ [k] <+: q ∧ Stands registry node p ∧ Fails registry node (p ++ [k]) := by
  induction q using List.reverseRecOn with
  | nil => exact absurd (fun p hp hne => absurd (List.prefix_nil.mp hp) hne) h
  | append_singleton q k ih =>
    by_cases hq : Stands registry node q
    · refine ⟨q, k, List.prefix_refl _, hq, ?_⟩
      by_contra hvalid
      refine h fun p hp hne => ?_
      rcases List.prefix_concat_iff.mp hp with rfl | hp
      · exact hvalid
      · exact hq p hp hne
    · obtain ⟨p, l, hp, hrest⟩ := ih hq
      exact ⟨p, l, hp.trans (List.prefix_append q [k]), hrest⟩

section Results

variable {K F : InstanceId → InstanceId → Prop} {node : Node} {r r' : RenderResult}

/-- A node that is cut has the report for a result, where it would be rendered at all. -/
theorem at?_of_cut (h : Alike K F (Reported registry) (cuts registry) node node r r')
    {p : List Nat} {k : Nat} {n : Node} (hp : Stands registry node p)
    (hn : node.at? (p ++ [k]) = some n) (hfails : Check.validate registry n ≠ []) :
    r'.at? (p ++ [k]) = (r.at? (p ++ [k])).map fun _ => cut registry n := by
  rcases h.at? p (clear_of_stands hp) with ⟨hr, hr'⟩ | ⟨a, b, s, s', ha, hb, hs, hs', halike⟩
  · rw [RenderResult.at?_append, RenderResult.at?_append, hr, hr']
    rfl
  · obtain rfl := Option.some.inj (ha.symm.trans hb)
    rw [Node.at?_concat ha] at hn
    rw [RenderResult.at?_concat hs, RenderResult.at?_concat hs']
    rcases halike.children.get? k with ⟨hr, hr'⟩ | ⟨a', b', x, x', ha', hb', hr, hr', hchild⟩
    · rw [hr, hr']
      rfl
    · obtain rfl := Option.some.inj (hn.symm.trans ha')
      obtain rfl := Option.some.inj (hn.symm.trans hb')
      rcases hchild with ⟨-, hreported⟩ | ⟨hno, -⟩
      · rw [hr, hr', hreported]
        rfl
      · exact absurd ⟨rfl, hfails⟩ hno

/-- Nothing comes of what is cut, nor of anything below it. -/
theorem stands_of_at? (h : Alike K F (Reported registry) (cuts registry) node node r r')
    {q : List Nat} {s : RenderResult} (hs : r'.at? q = some s) :
    Stands registry node q ∨
      s.component = none ∧ s.children = [] ∧ Stands registry node q.dropLast := by
  by_contra hcut
  rw [not_or] at hcut
  obtain ⟨p, k, ⟨rest, rfl⟩, hp, n, hn, hfails⟩ := exists_cut hcut.1
  have hat := at?_of_cut h hp hn hfails
  rw [RenderResult.at?_append] at hs
  obtain ⟨t, ht, hs⟩ := Option.bind_eq_some_iff.mp hs
  rw [ht] at hat
  obtain ⟨-, -, rfl⟩ := Option.map_eq_some_iff.mp hat.symm
  cases rest with
  | nil =>
    cases hs
    refine hcut.2 ⟨rfl, rfl, ?_⟩
    rw [List.append_nil, List.dropLast_concat]
    exact hp
  | cons l rest => cases hs

end Results

/-! ## Pruning -/

/-- What a pass with validation of children leaves of one without. -/
structure Prunes (registry : Registry) (node : Node) (s : Store) (off on : RenderResult × World) :
    Prop where
  /-- Where nothing is cut the results are the same. -/
  same {q : List Nat} : Stands registry node q →
    SameAt (Fails registry node) off.2.store on.2.store off.1 on.1 q
  /-- The instances there come in the same order. -/
  order {q q' : List Nat} : Stands registry node q → Stands registry node q' →
    SameOrder s off.2.store s on.2.store off.1 on.1 q q'
  /-- What is cut has its report for a result, where it would be rendered at all. -/
  report {p : List Nat} {k : Nat} {n : Node} : Stands registry node p →
    node.at? (p ++ [k]) = some n → Check.validate registry n ≠ [] →
    on.1.at? (p ++ [k]) = (off.1.at? (p ++ [k])).map fun _ => cut registry n
  /-- There are no results below. -/
  nothing_below {q : List Nat} {r : RenderResult} : on.1.at? q = some r →
    Stands registry node q.dropLast
  /-- Every new instance is that of a node that is not cut, nor below one that is: of the
      root, or of a valid node. -/
  instances {i : InstanceId} : s.instances.length ≤ i → i < on.2.store.instances.length →
    ∃ q n, on.1.component? q = some i ∧ Stands registry node q ∧ node.at? q = some n ∧
      (q ≠ [] → Check.validate registry n = [])
  /-- Where all nodes below the root are valid there is no difference. -/
  whole : Node.ThroughoutAll (fun n => Check.validate registry n = []) node.children →
    on.1 = off.1 ∧ on.2.store = off.2.store

/-- Valid nodes are refused in neither pass. -/
theorem twin_of_valid (node : Node) (host : Option HostId) (w : World)
    (hvalid : Node.ThroughoutAll (fun n => Check.validate registry n = []) node.children) :
    ((render (validating registry settings true) node host).run w).1 =
        ((render (validating registry settings false) node host).run w).1 ∧
      ((render (validating registry settings true) node host).run w).2.store =
        ((render (validating registry settings false) node host).run w).2.store := by
  obtain ⟨u, hu, hanswer, hstore⟩ := run_render (validating registry settings true) node host w
  obtain ⟨u', hu', hanswer', hstore'⟩ := run_render (validating registry settings false) node host w
  have hrefused : Node.ThroughoutAll (RefusedAlike (validating registry settings true)
      (validating registry settings false)) node.children :=
    hvalid.mono fun n hn => by rw [RefusedAlike, refusal?_on_valid hn, refusal?_off]
  rw [hanswer, hanswer', hstore, hstore']
  exact twin_node (by rfl) _ node hrefused u u' (hu.trans hu'.symm)

section Passes

variable {node : Node} {host : Option HostId} {w : World}

/-- Without and with validation a tree is rendered alike but for what is cut. -/
theorem alike_passes (registry : Registry) (settings : Settings) (node : Node)
    (hhost : ∀ h, host = some h → h < w.store.hosts.length) :
    ∃ T : Ties, T.Fit ((render (validating registry settings false) node host).run w).2.store
        ((render (validating registry settings true) node host).run w).2.store ∧
      AlikeIn (Reported registry) T w.store.instances.length w.store.instances.length
        ((render (validating registry settings false) node host).run w).2.store
        ((render (validating registry settings true) node host).run w).2.store (cuts registry)
        node node ((render (validating registry settings false) node host).run w).1
        ((render (validating registry settings true) node host).run w).1 := by
  -- to begin with every host is paired with itself
  have F : Ties.Fit ⟨fun _ _ => False, fun g h => g = h ∧ g < w.store.hosts.length⟩
      w.store w.store := by
    refine ⟨False.elim, fun h _ => False.elim h, ?_, ?_, ?_⟩
    · rintro g h ⟨rfl, hg⟩
      exact ⟨hg, hg⟩
    · rintro g h g' h' ⟨rfl, -⟩ ⟨rfl, -⟩
      exact Iff.rfl
    · rintro g h ⟨rfl, -⟩
      rfl
  have htarget : Option.Rel (fun g h => g = h ∧ g < w.store.hosts.length) host host := by
    cases host with
    | none => exact .none
    | some h => exact .some ⟨rfl, hhost h rfl⟩
  obtain ⟨T, -, F', halike⟩ := meet_render (by rfl) (answered_cuts registry settings)
    (matches_cuts node) F htarget
  exact ⟨T, F', halike⟩

/-- An instance that the validating pass created is that of a node that is not cut. -/
theorem stands_of_new (hhost : ∀ h, host = some h → h < w.store.hosts.length) {i : InstanceId}
    (hle : w.store.instances.length ≤ i)
    (hlt : i <
      ((render (validating registry settings true) node host).run w).2.store.instances.length) :
    ∃ q n, ((render (validating registry settings true) node host).run w).1.component? q = some i ∧
      Stands registry node q ∧ node.at? q = some n ∧
      (q ≠ [] → Check.validate registry n = []) := by
  have L := lands_render (validating registry settings true) node host w hhost
  obtain ⟨T, -, halike⟩ := alike_passes registry settings node hhost
  have hmem :
      i ∈ ((render (validating registry settings true) node host).run w).1.components := by
    rw [L.components, List.mem_range'_1, Nat.add_sub_of_le L.spreads.instances.length_le]
    exact ⟨hle, hlt⟩
  obtain ⟨q, hq⟩ := RenderResult.mem_components hmem
  obtain ⟨r, hr, hi⟩ := Option.bind_eq_some_iff.mp hq
  rcases stands_of_at? halike hr with hstands | ⟨hnone, -⟩
  · rcases halike.at? q (clear_of_stands hstands) with ⟨-, hnone⟩ | ⟨n, -, -, -, hn, -⟩
    · rw [hnone] at hr
      cases hr
    · refine ⟨q, n, hq, hstands, hn, fun hne => ?_⟩
      exact not_not.mp fun hfails => hstands q (List.prefix_refl q) hne ⟨n, hn, hfails⟩
  · rw [hnone] at hi
    cases hi

end Passes

/-- Headings, and a container with a content host of some name. -/
def headings (host : String) : Registry :=
  ⟨[Registry.libraryEntry Catalog.heading, Registry.libraryEntry
    { Catalog.entry "box" .layout "" with isContainer := true, contentHost := some host }]⟩

/-- A box with one heading for each level. -/
def boxed (levels : List Json) : Node :=
  { (default : Node) with
    type := some "box"
    children := levels.map fun level =>
      { (default : Node) with type := some "heading", props := [("level", level)] } }

/-- An empty host. -/
def rootAlone : World := { World.empty with store := (Store.empty.newHost "root").2 }

/-- A pass over headings in a box, with or without validation of children. -/
def passed (host : String) (levels : List Json) (on : Bool) : RenderResult × World :=
  (render (validating (headings host) .default on) (boxed levels) (some 0)).run rootAlone

end ViewTree.Render
