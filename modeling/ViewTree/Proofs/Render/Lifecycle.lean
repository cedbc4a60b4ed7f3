import Mathlib.Logic.Relation
import ViewTree.Proofs.Live.Destruction
import ViewTree.Proofs.Render.Acts
import ViewTree.Proofs.Render.Upkeep

/-
  ViewTree.Proofs.Render.Lifecycle — what lives, what is destroyed, and who still listens.

  Hosts are filled with the components of the library, cleared and filled again, and
  children of what is shown are replaced (`Step`), in any order and with any trees. The
  store stays sound throughout: rendering keeps it so, because each of its acts does
  (`soundUpkeep`), and clearing does, because destruction is complete. So the live
  instances are at any time those that are shown somewhere, each of them in one place,
  and nothing comes of the events of the others, then and ever after.
-/

namespace ViewTree

open Live

namespace Render

/-! ## Rendering -/

/-- The store of a world is sound. -/
abbrev Sound (w : World) : Prop := w.store.Sound []

/-- From a sound store a sound one, with more in it. -/
def Extends (w w' : World) : Prop := Sound w → Sound w' ∧ w.store.Grows w'.store

theorem Extends.refl (w : World) : Extends w w := fun S => ⟨S, .refl _⟩

theorem Extends.trans {u v w : World} (h : Extends u v) (h' : Extends v w) : Extends u w := by
  intro S
  obtain ⟨S', hgrows⟩ := h S
  obtain ⟨S'', hgrows'⟩ := h' S'
  exact ⟨S'', hgrows.trans hgrows'⟩

/-- Every act of a render pass with the library keeps a store sound. -/
def soundUpkeep (settings : Settings) : Upkeep (libraryContext settings) where
  Step := Extends
  Place m w := Sound w ∧ ∃ h, m = .host h ∧ w.store.Receives h
  Alive i w := Sound w ∧ w.store.Alive i
  refl := .refl
  trans := .trans
  place := by
    rintro _ w w' hstep ⟨S, h, rfl, hreceives⟩
    obtain ⟨S', hgrows⟩ := hstep S
    exact ⟨S', h, rfl, hgrows.receives hreceives⟩
  alive := by
    rintro i w w' hstep ⟨S, halive⟩
    obtain ⟨S', hgrows⟩ := hstep S
    exact ⟨S', hgrows.keepsAlive halive⟩
  note w _ := .refl w
  warned w := .refl w
  create := by
    rintro type entry _ w hentry ⟨S, h, rfl, hreceives⟩
    obtain ⟨c, hc, -, rfl⟩ := Registry.library_get? hentry
    have hplain := ofCapability_plain c hc
    obtain ⟨S', hgrows, halive⟩ := S.create hplain hreceives
    rw [Registry.libraryEntry, run_createIn w h hplain]
    refine ⟨fun _ => ⟨S', hgrows⟩, fun i hi => ⟨S', ?_⟩⟩
    cases hi
    exact halive
  bindProps := by
    rintro i w props ⟨S, halive⟩
    obtain ⟨x, hx, hplain, -⟩ := S.exists_plain halive
    rw [Store.can_plain hx hplain (by decide), run_bindProps hx hplain]
    exact fun _ => S.setInputs hx _
  listen := by
    rintro i w event e callback ⟨S, halive⟩ houtput
    obtain ⟨x, hx, hplain, hlive⟩ := S.exists_plain halive
    rw [run_listen hx hplain]
    exact fun _ => S.listen hx hlive (Store.mem_emittersOf_of_output hx hplain houtput) callback
  refresh := by
    rintro i w ⟨S, halive⟩
    exact fun _ => S.refresh halive
  mount := by
    rintro i w type capability m hcapability hcontainer ⟨S, halive⟩ hmount
    obtain ⟨x, hx, hplain, -⟩ := S.exists_plain halive
    have hlibrary := (Registry.library_capability? hcapability).1
    rw [Store.mount?_plain hx hplain (hostProperty_of_library hlibrary hcontainer)] at hmount
    split at hmount
    · obtain ⟨h, hcontent, rfl⟩ := Option.map_eq_some_iff.mp hmount
      have hoffered : h ∈ w.store.offered i := by
        rw [Store.offered_some hx]
        exact List.mem_append_left _ (Option.mem_toList.mpr hcontent)
      exact ⟨S, h, rfl, S.forest.offered_lt hoffered, .inr ⟨i, hoffered, halive⟩⟩
    · cases hmount
  panel := by
    rintro i w panels h ⟨S, halive⟩ hpanels hmem
    obtain ⟨x, hx, hplain, -⟩ := S.exists_plain halive
    rw [Store.childPanels?_plain hx hplain] at hpanels
    split at hpanels
    · obtain rfl := Option.some.inj hpanels
      have hoffered : h ∈ w.store.offered i := by
        rw [Store.offered_some hx]
        exact List.mem_append_right _ hmem
      exact ⟨S, h, rfl, S.forest.offered_lt hoffered, .inr ⟨i, hoffered, halive⟩⟩
    · cases hpanels

/-! ## Steps -/

/-- From a sound store a sound one, in which nothing is brought back. -/
def Lives (w w' : World) : Prop := Sound w → Sound w' ∧ w.store.Ages w'.store

theorem Lives.refl (w : World) : Lives w w := fun S => ⟨S, .refl _⟩

theorem Lives.trans {u v w : World} (h : Lives u v) (h' : Lives v w) : Lives u w := by
  intro S
  obtain ⟨S', hages⟩ := h S
  obtain ⟨S'', hages'⟩ := h' S'
  exact ⟨S'', hages.trans hages'⟩

theorem Extends.lives {w w' : World} (h : Extends w w') : Lives w w' := by
  intro S
  obtain ⟨S', hgrows⟩ := h S
  exact ⟨S', hgrows.ages⟩

theorem clear_lives {w : World} (S : Sound w) (h : HostId) :
    ∃ s, w.store.clear h = (s, .ok ()) ∧ Lives w { w with store := s } := by
  obtain ⟨s, hrun, S', -, hfades⟩ := Store.clear_sound S h
  exact ⟨s, hrun, fun _ => ⟨S', (hfades 0 fun i _ => Nat.zero_le i).ages⟩⟩

/-- Something is done with the hosts of a world and what is shown in them. -/
inductive Step : World → World → Prop where
  /-- There is a further root host. -/
  | host (w : World) (name : String) : Step w { w with store := (w.store.newHost name).2 }
  | render {w : World} {h : HostId} (settings : Settings) (node : Node) :
    w.store.Root h → Step w ((render (libraryContext settings) node (some h)).run w).2
  | renderValue {w : World} {h : HostId} (settings : Settings) (v : Json) :
    w.store.Root h → Step w ((renderValue (libraryContext settings) v (some h)).run w).2
  | mount {w : World} {h : HostId} (settings : Settings) (node : Node) :
    w.store.Root h → Step w ((mount (libraryContext settings) node (some h)).run w).2
  | mountValue {w : World} {h : HostId} (settings : Settings) (v : Json) :
    w.store.Root h → Step w ((mountValue (libraryContext settings) v (some h)).run w).2
  | clear {w : World} {h : HostId} : w.store.Root h → Step w ((clearHost (some h)).run w).2
  /-- The children are replaced of an instance that is shown, whatever it is taken for and
      whatever is given for children. -/
  | replace {w : World} {i : InstanceId} (settings : Settings) (type : String)
      (children : Except Failure (List Given)) :
    w.store.Reachable i →
      Step w ((replaceWith (libraryContext settings) i type children).run w).2

/-- After a host was cleared, something is rendered into it. -/
theorem cleared_lives {α : Type} {w : World} {h : HostId} (act : Act α)
    (hreceives : w.store.Receives h)
    (hact : ∀ w', Sound w' → w'.store.Receives h → Extends w' (act.run w').2) :
    Lives w ((do
      match ← clearHost (some h) with
      | .error failure => return .error failure
      | .ok () => return .ok (← act) : Act (Except Failure α)).run w).2 := by
  intro S
  obtain ⟨s, hrun, hlives⟩ := clear_lives S h
  have hrefill := Store.clear_receives S hreceives
  rw [hrun] at hrefill
  rw [Act.run_bind, clearHost, Act.run_perform, hrun]
  exact hlives.trans (hact _ (hlives S).1 hrefill).lives S

theorem replaceWith_lives {w : World} {i : InstanceId} (settings : Settings) (type : String)
    (children : Except Failure (List Given)) (hreachable : w.store.Reachable i) :
    Lives w ((replaceWith (libraryContext settings) i type children).run w).2 := by
  intro S
  rw [replaceWith]
  cases hcapability : ((libraryContext settings).registry.capability? type).filter
      Capability.isContainer with
  | none => exact Lives.refl w S
  | some capability =>
    obtain ⟨hregistered, hcontainer⟩ := Option.filter_eq_some_iff.mp hcapability
    have hlibrary := hostProperty_of_library (Registry.library_capability? hregistered).1 hcontainer
    have hfound := (soundUpkeep settings).findMount i capability.hostProperty w
      ⟨S, S.forest.alive_of_reachable hreachable⟩
    simp only [Act.run_bind]
    revert hfound
    generalize (findMount i capability.hostProperty).run w = found
    obtain ⟨outcome, w₁⟩ := found
    rintro ⟨hextends, ⟨S₁, halive₁⟩, hmount⟩
    match outcome with
    | .error failure => exact hextends.lives S
    | .ok none => exact hextends.lives S
    | .ok (some place) =>
      obtain ⟨x, hx, hplain, -⟩ := S₁.exists_plain halive₁
      have hplace := hmount place rfl
      rw [Store.mount?_plain hx hplain hlibrary] at hplace
      split at hplace
      · obtain ⟨h, hcontent, rfl⟩ := Option.map_eq_some_iff.mp hplace
        have hoffered : h ∈ w₁.store.offered i := by
          rw [Store.offered_some hx]
          exact List.mem_append_left _ (Option.mem_toList.mpr hcontent)
        obtain ⟨s, hrun, hlives⟩ := clear_lives S₁ h
        have hkept := Store.clear_keeps S₁ hoffered halive₁
        rw [hrun] at hkept
        have S₂ := (hlives S₁).1
        have hreceives : s.Receives h :=
          ⟨S₂.forest.offered_lt hkept.1, .inr ⟨i, hkept⟩⟩
        have hcleared : Lives w { w₁ with store := s } := hextends.lives.trans hlives
        rw [Act.run_bind, Act.run_perform, Store.clearMember, Store.clearMemberBy, hrun]
        cases children with
        | error failure => exact hcleared S
        | ok given =>
          have hrefill := ((soundUpkeep settings).refilled i (.host h) type given
            { w₁ with store := s } ⟨⟨S₂, hkept.2⟩, S₂, h, rfl, hreceives⟩).1
          exact hcleared.trans hrefill.lives S
      · cases hplace

theorem Step.lives {w w' : World} (h : Step w w') : Lives w w' := by
  intro S
  cases h with
  | host name =>
    have S' := S.newHost name
    exact ⟨S', Nat.le_refl _, fun _ hdead => hdead, fun _ => rfl⟩
  | render settings node hroot =>
    have hrender := (soundUpkeep settings).render node (some _) w fun h hmem => by
      cases hmem
      exact ⟨S, _, rfl, hroot.receives⟩
    exact hrender.1.lives S
  | renderValue settings v hroot =>
    have hrender := (soundUpkeep settings).renderValue v (some _) w fun h hmem => by
      cases hmem
      exact ⟨S, _, rfl, hroot.receives⟩
    exact hrender.1.lives S
  | mount settings node hroot =>
    refine cleared_lives _ hroot.receives (fun w' S' hreceives => ?_) S
    refine ((soundUpkeep settings).render node (some _) w' fun h hmem => ?_).1
    cases hmem
    exact ⟨S', _, rfl, hreceives⟩
  | mountValue settings v hroot =>
    refine cleared_lives _ hroot.receives (fun w' S' hreceives => ?_) S
    refine ((soundUpkeep settings).renderValue v (some _) w' fun h hmem => ?_).1
    cases hmem
    exact ⟨S', _, rfl, hreceives⟩
  | clear hroot =>
    obtain ⟨s, hrun, hlives⟩ := clear_lives S _
    rw [clearHost, Act.run_perform, hrun]
    exact hlives S
  | replace settings type children hreachable =>
    exact replaceWith_lives settings type children hreachable S

/-! ## Runs -/

/-- Any number of steps. -/
abbrev Steps : World → World → Prop := Relation.ReflTransGen Step

theorem Steps.lives {w w' : World} (h : Steps w w') : Lives w w' := by
  induction h with
  | refl => exact .refl w
  | tail _ hstep ih => exact ih.trans hstep.lives

/-- However hosts were filled, cleared and refilled, the instances that are not destroyed
    are those that are reached from a root host; each of them is in the one host that it
    names, once; and those that are destroyed keep no subscription and have no observer, so
    nothing comes of their events, whatever is done later on. -/
theorem nothing_leaks {w₀ w : World} (hempty : w₀.store = .empty) (hsteps : Steps w₀ w) :
    (∀ (i : InstanceId) (x : Instance), w.store.instances[i]? = some x →
      (x.destroyed = false ↔ w.store.Reachable i)) ∧
    (∀ i, w.store.Reachable i → ∃ x h, w.store.instances[i]? = some x ∧ x.host = some h ∧
      ∀ h', (w.store.mounted h').count i = if h' = h then 1 else 0) ∧
    (∀ (i : InstanceId) (x : Instance), w.store.instances[i]? = some x → x.destroyed = true →
      x.tracked = [] ∧ ∀ o ∈ x.outputs, w.store.observers o.2 = 0 ∧
        ∀ w', Steps w w' → ∀ data, w'.store.emit o.2 data = ([], none)) := by
  have hstart : Sound w₀ := by
    rw [Sound, hempty]
    exact Store.Sound.nothing
  have S : Sound w := (hsteps.lives hstart).1
  refine ⟨fun i x hx => ?_, fun i hreachable => ?_, fun i x hx hdestroyed => ?_⟩
  · rw [← S.forest.alive_iff_reachable, Store.Alive, hx, Option.map_some, Option.some_inj]
  · obtain ⟨h, hhost, hcount⟩ := S.forest.count_mounted (S.forest.alive_of_reachable hreachable)
    obtain ⟨x, hx, hnamed⟩ := Store.exists_of_hostOf hhost
    exact ⟨x, h, hx, hnamed, hcount⟩
  · have hdead : ¬ w.store.Alive i := fun halive => by
      rw [Store.Alive, hx, Option.map_some, hdestroyed] at halive
      cases halive
    have hlt := (List.getElem?_eq_some_iff.mp hx).1
    refine ⟨(Store.keptBy_some hx).symm.trans (S.wiring.released hdead), fun o ho => ?_⟩
    have hemitter : o.2 ∈ w.store.emittersOf i := Store.mem_emittersOf hx ho
    refine ⟨congrArg List.length (S.wiring.silent hdead hemitter), fun w' hlater data => ?_⟩
    obtain ⟨S', hages⟩ := hlater.lives S
    exact Store.emit_silent (S'.wiring.silent (hages.dead hlt hdead)
      ((hages.emittersOf hlt).symm ▸ hemitter)) data

/-- A card with a button in a root host. -/
def cardShown : World :=
  let handler : Handler := { serial := 0, name := "pressed", typeName := "Handler",
                             callable := true, next := false, emit := false, fails := false }
  let button : Node := { (default : Node) with
    type := some "button", events := [("click", .handler handler)] }
  let card : Node := { (default : Node) with type := some "card", children := [button] }
  let root : World := { World.empty with store := (Store.empty.newHost "root").2 }
  ((mount (libraryContext .default) card (some 0)).run root).2

/-- The card with a divider in place of the button. -/
def buttonReplaced : World :=
  ((replaceWith (libraryContext .default) 0 "card"
    (.ok [.node { (default : Node) with type := some "divider" }])).run cardShown).2

/-- The card and the divider are shown; nothing comes of pressing the button. -/
theorem nothing_leaks_buttonReplaced :
    Steps World.empty buttonReplaced ∧
      buttonReplaced.store.Reachable 0 ∧ buttonReplaced.store.Reachable 2 ∧
      ∃ x, buttonReplaced.store.instances[1]? = some x ∧ x.destroyed = true ∧ x.tracked = [] ∧
        ∀ o ∈ x.outputs, buttonReplaced.store.observers o.2 = 0 := by
  have hsteps : Steps World.empty buttonReplaced :=
    .tail (.tail (.single (.host World.empty "root")) (.mount .default _ (by decide +kernel)))
      (.replace .default _ _ (.inRoot (h := 0) (by decide +kernel) (by decide +kernel)))
  have hmarks : buttonReplaced.store.instances.map Instance.destroyed = [false, true, false] := by
    decide +kernel
  have hmark (i : InstanceId) := congrArg (·[i]?) hmarks
  simp only [List.getElem?_map] at hmark
  obtain ⟨hlive, -, hdead⟩ := nothing_leaks rfl hsteps
  obtain ⟨card, hcard, hshown⟩ := Option.map_eq_some_iff.mp (hmark 0)
  obtain ⟨button, hbutton, hgone⟩ := Option.map_eq_some_iff.mp (hmark 1)
  obtain ⟨divider, hdivider, hnew⟩ := Option.map_eq_some_iff.mp (hmark 2)
  obtain ⟨htracked, hsilent⟩ := hdead 1 button hbutton hgone
  exact ⟨hsteps, (hlive 0 card hcard).mp hshown, (hlive 2 divider hdivider).mp hnew,
    button, hbutton, hgone, htracked, fun o ho => (hsilent o ho).1⟩

end Render

end ViewTree
