import ViewTree.Proofs.Telemetry.Gauge
import ViewTree.Render

/-
  ViewTree.Proofs.Render.Upkeep — what a render pass keeps, from what its single acts keep.

  A pass works on the world by a few acts only: it makes notes, creates an instance in a
  place, sets its props, subscribes a callback to one of its outputs and refreshes it. An
  upkeep is a relation between worlds that each of these acts stays within, given that
  the place is one to create in and the instance one to work on. Whatever comes of the
  pass, and wherever it fails, the whole pass then stays within the relation: for one
  node and everything below it by induction on the tree (`Upkeep.node`), for a pass from
  a root, for a mount and for new children of a live instance.
-/

namespace ViewTree

open Live Telemetry

namespace Render

/-- A relation that every act of a render pass stays within. -/
structure Upkeep (c : Context) where
  Step : World → World → Prop
  /-- Instances may be created there. -/
  Place : Member → World → Prop
  /-- The pass may work on the instance. -/
  Alive : InstanceId → World → Prop
  refl (w : World) : Step w w
  trans {u v w : World} : Step u v → Step v w → Step u w
  place {m : Member} {w w' : World} : Step w w' → Place m w → Place m w'
  alive {i : InstanceId} {w w' : World} : Step w w' → Alive i w → Alive i w'
  /-- Rendering never measures the history. -/
  note {entries : Journal} (w : World) : entries.Apart → Step w (w.note entries)
  warned (w : World) : Step w { w with versionWarned := true }
  create {type : String} {entry : RegistryEntry} {m : Member} {w : World} :
    c.registry.get? type = some entry → Place m w →
      Step w ((createIn entry.factory m).run w).2 ∧
        ∀ i, ((createIn entry.factory m).run w).1 = .ok i →
          Alive i ((createIn entry.factory m).run w).2
  bindProps {i : InstanceId} {w : World} (props : Fields) :
    Alive i w → Step w ((bindProps i (w.store.can i .setInput) props).run w).2
  listen {i : InstanceId} {w : World} {event : String} {e : EmitterId} (callback : Callback) :
    Alive i w → w.store.output? i event = some e → Step w ((listen i e callback).run w).2
  refresh {i : InstanceId} {w : World} : Alive i w → Step w ((Act.refresh i).run w).2
  /-- The mount point of the type that an instance is taken for. -/
  mount {i : InstanceId} {w : World} {type : String} {capability : Capability} {m : Member} :
    c.registry.capability? type = some capability → capability.isContainer = true →
      Alive i w → w.store.mount? i capability.hostProperty = some m → Place m w
  panel {i : InstanceId} {w : World} {panels : List HostId} {h : HostId} :
    Alive i w → w.store.childPanels? i = some panels → h ∈ panels → Place (.host h) w

namespace Upkeep

variable {c : Context} (u : Upkeep c) {α β : Type}

/-- From a world with a property an action stays within the relation, and its answer and
    the world it leaves are as described. -/
def Moves (P : World → Prop) (act : Act α) (Q : α → World → Prop) : Prop :=
  ∀ w, P w → u.Step w (act.run w).2 ∧ Q (act.run w).1 (act.run w).2

/-- Nothing is said of what an action answers. -/
abbrev anything : α → World → Prop := fun _ _ => True

/-- A property that lasts within the relation. -/
def Lasts (P : World → Prop) : Prop := ∀ w w', u.Step w w' → P w → P w'

section Rules

variable {u} {P P' : World → Prop} {act : Act α} {R : α → World → Prop} {f : α → Act β}
variable {Q : β → World → Prop}

theorem Moves.bind (h : u.Moves P act R) (k : ∀ a, u.Moves (R a) (f a) Q) :
    u.Moves P (act >>= f) Q := by
  intro w hw
  obtain ⟨hstep, hanswer⟩ := h w hw
  obtain ⟨hstep', hanswer'⟩ := k _ _ hanswer
  exact ⟨u.trans hstep hstep', hanswer'⟩

/-- An action that starts from more and of which less is said. -/
theorem Moves.mono (h : u.Moves P act R) {R' : α → World → Prop} (hP : ∀ w, P' w → P w)
    (hR : ∀ a w, R a w → R' a w) : u.Moves P' act R' := by
  intro w hw
  obtain ⟨hstep, hanswer⟩ := h w (hP w hw)
  exact ⟨hstep, hR _ _ hanswer⟩

/-- An action of whose answer nothing is said, where something lasts. -/
theorem Moves.keep (hP : u.Lasts P) (h : u.Moves P act anything) :
    u.Moves P act (fun _ w => P w) := by
  intro w hw
  obtain ⟨hstep, -⟩ := h w hw
  exact ⟨hstep, hP _ _ hstep hw⟩

end Rules

variable {u} {P : World → Prop}

theorem moves_pure {a : α} {Q : α → World → Prop} (h : ∀ w, P w → Q a w) :
    u.Moves P (pure a) Q :=
  fun w hw => ⟨u.refl w, h w hw⟩

theorem moves_done {a : α} : u.Moves P (pure a) anything := moves_pure fun _ _ => trivial

theorem moves_ofStore (f : Store → α) :
    u.Moves P (Act.ofStore f) (fun a w => P w ∧ a = f w.store) :=
  fun w hw => ⟨u.refl w, hw, rfl⟩

theorem moves_get : u.Moves P (get : Act World) (fun a w => P w ∧ a = w) :=
  fun w hw => ⟨u.refl w, hw, rfl⟩

theorem lasts_true : u.Lasts fun _ => True := fun _ _ _ _ => trivial

theorem lasts_alive (i : InstanceId) : u.Lasts (u.Alive i) := fun _ _ hstep h => u.alive hstep h

theorem lasts_place (m : Member) : u.Lasts (u.Place m) := fun _ _ hstep h => u.place hstep h

theorem Lasts.and {P' : World → Prop} (h : u.Lasts P) (h' : u.Lasts P') :
    u.Lasts fun w => P w ∧ P' w :=
  fun w w' hstep hw => ⟨h w w' hstep hw.1, h' w w' hstep hw.2⟩

/-! ## Notes -/

theorem moves_note (hP : u.Lasts P) {entries : Journal} (h : entries.Apart) :
    u.Moves P (Act.note entries) (fun _ w => P w) :=
  Moves.keep hP fun w _ => ⟨u.note w h, trivial⟩

/-! ## The parts of a node -/

section Parts

variable (u)

theorem checkVersion (hP : u.Lasts P) (node : Node) :
    u.Moves P (checkVersion c node) (fun _ w => P w) := by
  unfold Render.checkVersion
  refine moves_get.bind fun before => ?_
  split
  · have hwarned : u.Moves (fun w => P w ∧ before = w)
        (modify fun w => { w with versionWarned := true }) (fun _ w => P w) :=
      fun w hw => ⟨u.warned w, hP _ _ (u.warned w) hw.1⟩
    exact hwarned.bind fun _ => moves_note hP (by rfl)
  · exact moves_pure fun _ hw => hw.1

/-- An instance is created in its place, or there is none. -/
theorem instantiate (node : Node) (target : Option Member) :
    u.Moves (fun w => ∀ m ∈ target, u.Place m w) (instantiate c node target)
      (fun a w => ∀ i, a = .ok i → u.Alive i w) := by
  unfold Render.instantiate
  cases node.type.filter (· ≠ "") with
  | none => exact moves_pure nofun
  | some type =>
    cases target with
    | none => exact moves_pure nofun
    | some place =>
      dsimp only
      cases hentry : c.registry.get? type with
      | none => exact moves_pure nofun
      | some entry =>
        have hcreate : u.Moves (u.Place place) (createIn entry.factory place)
            (fun a w => ∀ i, a = .ok i → u.Alive i w) := fun w hw => u.create hentry hw
        have hplace : u.Moves (fun w => ∀ m ∈ some place, u.Place m w) (Render.checkVersion c node)
            (fun _ w => u.Place place w) :=
          (u.checkVersion (u.lasts_place place) node).mono (fun _ hw => hw _ rfl) fun _ _ hw => hw
        refine hplace.bind fun _ => hcreate.bind fun a => ?_
        cases a with
        | error failure => exact moves_pure nofun
        | ok i =>
          refine moves_pure fun w hw j hj => ?_
          cases hj
          exact hw i rfl

variable (i : InstanceId)

theorem bindEvents (type : String) (events : Fields) :
    u.Moves (u.Alive i) (bindEvents i type events) anything := by
  induction events with
  | nil => exact moves_done
  | cons event rest ih =>
    obtain ⟨name, handler⟩ := event
    unfold Render.bindEvents
    cases Callback.ofBinding? handler with
    | none =>
      exact (moves_note (lasts_alive i) (by rfl)).bind fun _ =>
        ih.bind fun _ => moves_done
    | some callback =>
      refine (moves_ofStore _).bind fun output => ?_
      cases output with
      | none =>
        refine Moves.bind (R := fun _ => u.Alive i) ?_ fun _ => ih.bind fun _ => moves_done
        exact (moves_note (lasts_alive i) (by rfl)).mono (fun _ hw => hw.1)
          fun _ _ hw => hw
      | some e =>
        have hlisten : u.Moves (fun w => u.Alive i w ∧ some e = w.store.output? i name)
            (Render.listen i e callback) (fun _ => u.Alive i) := by
          intro w hw
          have hstep := u.listen callback hw.1 hw.2.symm
          exact ⟨hstep, u.alive hstep hw.1⟩
        refine hlisten.bind fun outcome => ?_
        cases outcome with
        | error failure => exact moves_done
        | ok _ => exact ih

theorem refreshes : u.Moves (u.Alive i) (Act.refresh i) (fun _ => u.Alive i) :=
  Moves.keep (lasts_alive i) fun _ hw => ⟨u.refresh hw, trivial⟩

theorem prepare (node : Node) : u.Moves (u.Alive i) (prepare node i) (fun _ => u.Alive i) := by
  refine Moves.keep (lasts_alive i) ?_
  unfold Render.prepare
  refine (moves_ofStore _).bind fun asInputs => ?_
  have hprops : u.Moves (fun w => u.Alive i w ∧ asInputs = w.store.can i .setInput)
      (Render.bindProps i asInputs node.props) (fun _ => u.Alive i) := by
    rintro w ⟨halive, rfl⟩
    have hstep := u.bindProps node.props halive
    exact ⟨hstep, u.alive hstep halive⟩
  refine hprops.bind fun outcome => ?_
  cases outcome with
  | error failure => exact moves_done
  | ok _ =>
    refine (Moves.keep (lasts_alive i) (u.bindEvents i _ node.events)).bind fun bound => ?_
    obtain ⟨warnings, outcome⟩ := bound
    cases outcome with
    | error failure => exact moves_done
    | ok _ => exact (u.refreshes i).bind fun _ => moves_done

/-- The panels that are found are places. -/
theorem panelsOf :
    u.Moves (u.Alive i) (panelsOf i)
      (fun a w => u.Alive i w ∧ ∀ panels, a = .ok panels → ∀ h ∈ panels, u.Place (.host h) w) := by
  unfold Render.panelsOf
  refine (moves_ofStore _).bind fun fault => ?_
  cases fault with
  | some failure => exact moves_pure fun w hw => ⟨hw.1, nofun⟩
  | none =>
    have hread {P : World → Prop} (hP : ∀ w, P w → u.Alive i w) : u.Moves P
        (Act.ofStore (·.childPanels? i))
        (fun a w => u.Alive i w ∧ ∀ panels, a = some panels → ∀ h ∈ panels, u.Place (.host h) w) := by
      intro w hw
      exact ⟨u.refl w, hP w hw, fun panels hpanels h hh => u.panel (hP w hw) hpanels hh⟩
    refine (hread fun w hw => hw.1).bind fun panels => ?_
    match panels with
    | none =>
      refine moves_pure fun w hw => ⟨hw.1, fun panels hpanels => ?_⟩
      cases hpanels
      exact nofun
    | some [] =>
      refine Moves.bind ((u.refreshes i).mono (fun _ hw => hw.1) fun _ _ hw => hw) fun outcome => ?_
      cases outcome with
      | error failure => exact moves_pure fun w hw => ⟨hw, nofun⟩
      | ok _ =>
        intro w hw
        refine ⟨u.refl w, hw, fun panels hpanels h hh => ?_⟩
        cases hpanels
        cases hfound : w.store.childPanels? i with
        | none => simp [hfound] at hh
        | some panels => exact u.panel hw hfound (by simpa [hfound] using hh)
    | some (p :: rest) =>
      refine moves_pure fun w hw => ⟨hw.1, fun panels hpanels => ?_⟩
      cases hpanels
      exact hw.2 _ rfl

/-- Places to create children in. -/
def Fit (places : Places) (w : World) : Prop :=
  match places with
  | .nowhere => True
  | .together m => u.Place m w
  | .onePerPanel panels => ∀ h ∈ panels, u.Place (.host h) w

theorem placesOf (type : String) :
    u.Moves (u.Alive i) (placesOf c i type)
      (fun a w => u.Alive i w ∧ ∀ places, a = .ok places → u.Fit places w) := by
  have hnowhere : u.Moves (u.Alive i) (pure (.ok .nowhere : Except Failure Places))
      (fun a w => u.Alive i w ∧ ∀ places, a = .ok places → u.Fit places w) := by
    refine moves_pure fun w hw => ⟨hw, fun places hplaces => ?_⟩
    cases hplaces
    trivial
  unfold Render.placesOf
  cases hcapability : c.registry.capability? type with
  | none => exact hnowhere
  | some capability =>
    dsimp only
    split
    · exact hnowhere
    · rename_i hcontainer
      refine (u.panelsOf i).bind fun found => ?_
      match found with
      | .error failure => exact moves_pure fun w hw => ⟨hw.1, nofun⟩
      | .ok [] =>
        refine Moves.bind (moves_ofStore _) fun place => ?_
        cases place with
        | none => exact hnowhere.mono (fun _ hw => hw.1.1) fun _ _ hw => hw
        | some m =>
          refine moves_pure fun w hw => ⟨hw.1.1, fun places hplaces => ?_⟩
          cases hplaces
          exact u.mount hcapability (by simpa using hcontainer) hw.1.1 hw.2.symm
      | .ok (p :: rest) =>
        refine moves_pure fun w hw => ⟨hw.1, fun places hplaces => ?_⟩
        cases hplaces
        exact hw.2 _ rfl

end Parts

/-! ## A node and everything below it -/

section Trees

variable (u)

theorem abandoned (node : Node) (i : InstanceId) (children : List RenderResult)
    (warnings : List String) (failure : Failure) :
    u.Moves P (abandoned node i children warnings failure) anything :=
  (moves_note lasts_true (by rfl)).bind (fun _ => moves_done) |>.mono
    (fun _ _ => trivial) fun _ _ h => h

theorem finish (node : Node) (i : InstanceId) (children : List RenderResult)
    (warnings : List String) :
    u.Moves (u.Alive i) (finish node i children warnings) anything := by
  unfold Render.finish
  refine (u.refreshes i).bind fun outcome => ?_
  cases outcome with
  | error failure => exact u.abandoned node i children warnings failure
  | ok _ => exact moves_done

theorem homeless (hP : u.Lasts P) (type : String) (count : Nat) :
    u.Moves P (homeless type count) (fun _ w => P w) :=
  (moves_note hP (by rfl)).bind fun _ => moves_pure fun _ h => h

theorem unplaced (hP : u.Lasts P) (type : String) (index panels : Nat) :
    u.Moves P (unplaced type index panels) (fun _ w => P w) :=
  (moves_note hP (by rfl)).bind fun _ => moves_pure fun _ h => h

theorem refuse (hP : u.Lasts P) (child : Node) :
    u.Moves P (refuse c child) (fun _ w => P w) := by
  unfold Render.refuse
  split
  · exact moves_pure fun _ h => h
  · refine (moves_note hP (Check.journal_apart c.registry child)).bind fun _ => ?_
    split
    · exact moves_pure fun _ h => h
    · refine (moves_note hP ?_).bind fun _ => moves_pure fun _ h => h
      exact Measure.failedNode_apart child.type _ rfl

theorem unlessRefused {act : Act RenderResult} (hP : u.Lasts P) (child : Node)
    (h : u.Moves P act anything) : u.Moves P (unlessRefused c child act) anything := by
  unfold Render.unlessRefused
  refine (u.refuse hP child).bind fun refused => ?_
  cases refused with
  | some result => exact moves_done
  | none => exact h

theorem lasts_panels (panels : List HostId) :
    u.Lasts fun w => ∀ h ∈ panels, u.Place (.host h) w :=
  fun _ _ hstep hw h hh => u.place hstep (hw h hh)

mutual
theorem node (target : Option Member) : ∀ node : Node,
    u.Moves (fun w => ∀ m ∈ target, u.Place m w) (renderNode c target node) anything
  | ⟨id, type, props, children, events, extras, component⟩ => by
    rw [renderNode]
    refine (u.instantiate _ target).bind fun created => ?_
    cases created with
    | error fault =>
      exact (moves_note lasts_true (by rfl)).bind (fun _ => moves_done) |>.mono
        (fun _ _ => trivial) fun _ _ h => h
    | ok i =>
      refine Moves.bind ((u.prepare i _).mono (fun w hw => hw i rfl) fun _ _ h => h)
        fun prepared => ?_
      match prepared with
      | (warnings, .error failure) => exact u.abandoned _ i [] warnings failure
      | (warnings, .ok _) =>
        dsimp only
        split
        · exact u.finish _ i [] warnings
        · refine (u.placesOf i (type.getD "")).bind fun places => ?_
          match places with
          | .error failure => exact u.abandoned _ i [] warnings failure
          | .ok .nowhere =>
            refine Moves.bind (R := fun _ => u.Alive i) ?_ fun warning => u.finish _ i [] _
            exact (u.homeless (lasts_alive i) _ _).mono (fun _ hw => hw.1) fun _ _ h => h
          | .ok (.together place) =>
            have hchildren := Moves.keep ((lasts_alive i).and (lasts_place place))
              ((together place children).mono (fun w hw => hw.2) fun _ _ h => h)
            refine Moves.bind (hchildren.mono (fun w hw => ⟨hw.1, hw.2 _ rfl⟩) fun _ _ h => h)
              fun results => (u.finish _ i results warnings).mono (fun _ hw => hw.1) fun _ _ h => h
          | .ok (.onePerPanel panels) =>
            have hchildren := Moves.keep ((lasts_alive i).and (u.lasts_panels panels))
              ((apart (type.getD "") panels 0 children).mono (fun w hw => hw.2) fun _ _ h => h)
            refine Moves.bind (hchildren.mono (fun w hw => ⟨hw.1, hw.2 _ rfl⟩) fun _ _ h => h)
              fun results => (u.finish _ i results.1 _).mono (fun _ hw => hw.1) fun _ _ h => h

theorem together (place : Member) : ∀ children : List Node,
    u.Moves (u.Place place) (renderTogether c place children) anything
  | [] => moves_done
  | child :: rest => by
    rw [renderTogether]
    have hchild : u.Moves (u.Place place) (renderNode c (some place) child) anything :=
      (node (some place) child).mono (fun w hw m hm => by cases hm; exact hw) fun _ _ h => h
    exact (Moves.keep (lasts_place place) (u.unlessRefused (lasts_place place) child hchild)).bind
      fun _ => (together place rest).bind fun _ => moves_done

theorem apart (type : String) (panels : List HostId) (index : Nat) : ∀ children : List Node,
    u.Moves (fun w => ∀ h ∈ panels, u.Place (.host h) w)
      (renderApart c type panels index children) anything
  | [] => moves_done
  | child :: rest => by
    rw [renderApart]
    have hrest := apart type panels (index + 1) rest
    cases hpanel : panels[index]? with
    | none =>
      exact (u.unplaced (u.lasts_panels panels) _ _ _).bind fun _ => hrest.bind fun _ => moves_done
    | some h =>
      have hchild : u.Moves (fun w => ∀ h ∈ panels, u.Place (.host h) w)
          (renderNode c (some (.host h)) child) anything :=
        (node (some (.host h)) child).mono (fun w hw m hm => by
          cases hm
          exact hw h (List.mem_of_getElem? hpanel)) fun _ _ h => h
      exact (Moves.keep (u.lasts_panels panels)
        (u.unlessRefused (u.lasts_panels panels) child hchild)).bind
          fun _ => hrest.bind fun _ => moves_done
end

end Trees

/-! ## Render passes -/

section Passes

variable (u)

theorem child (place : Member) (node : Node) :
    u.Moves (u.Place place) (renderChild c place node) anything :=
  u.unlessRefused (u.lasts_place place) node
    ((u.node (some place) node).mono (fun w hw m hm => by cases hm; exact hw) fun _ _ h => h)

theorem rejected (rejection : Rejection) : u.Moves P (rejected rejection) anything :=
  (moves_note lasts_true (by rfl)).bind (fun _ => moves_done) |>.mono
    (fun _ _ => trivial) fun _ _ h => h

theorem render (node : Node) (host : Option HostId) :
    u.Moves (fun w => ∀ h ∈ host, u.Place (.host h) w) (render c node host) anything := by
  unfold Render.render
  have hlasts : u.Lasts fun w => ∀ m ∈ host.map Member.host, u.Place m w :=
    fun _ _ hstep hw m hm => u.place hstep (hw m hm)
  refine ((moves_note hlasts (by rfl)).mono (fun w hw m hm => ?_) fun _ _ h => h).bind fun _ => ?_
  · cases host with
    | none => cases hm
    | some h =>
      cases hm
      exact hw h rfl
  · exact (u.node (host.map .host) node).bind fun result =>
      (moves_note lasts_true (by rfl)).bind fun _ => moves_done

theorem renderValue (v : Json) (host : Option HostId) :
    u.Moves (fun w => ∀ h ∈ host, u.Place (.host h) w) (renderValue c v host) anything := by
  unfold Render.renderValue
  cases Node.ofJson v with
  | ok node => exact u.render node host
  | error rejection =>
    exact (u.rejected rejection).bind fun result =>
      (moves_note lasts_true (by rfl)).bind fun _ => moves_done

theorem given (place : Member) (child : Given) :
    u.Moves (u.Place place) (renderGiven c place child) anything := by
  cases child with
  | node n => exact u.child place n
  | value v =>
    simp only [renderGiven]
    cases Node.ofJson v with
    | ok node => exact u.child place node
    | error rejection => exact u.rejected rejection

theorem all (place : Member) (children : List Given) :
    u.Moves (u.Place place) (renderAll c place children) anything := by
  induction children with
  | nil => exact moves_done
  | cons child rest ih =>
    exact (Moves.keep (lasts_place place) (u.given place child)).bind fun _ =>
      ih.bind fun _ => moves_done

/-- A mount point that is found is there. -/
theorem findMount (i : InstanceId) (name : String) :
    u.Moves (u.Alive i) (findMount i name)
      (fun a w => u.Alive i w ∧ ∀ m, a = .ok (some m) → w.store.mount? i name = some m) := by
  unfold Render.findMount
  refine (moves_ofStore _).bind fun place => ?_
  cases place with
  | some m =>
    refine moves_pure fun w hw => ⟨hw.1, fun m' hm' => ?_⟩
    cases hm'
    exact hw.2.symm
  | none =>
    refine ((u.refreshes i).mono (fun _ hw => hw.1) fun _ _ hw => hw).bind fun outcome => ?_
    cases outcome with
    | error failure => exact moves_pure fun w hw => ⟨hw, nofun⟩
    | ok _ =>
      refine (moves_ofStore _).bind fun place => moves_pure fun w hw => ⟨hw.1, fun m hm => ?_⟩
      rw [← hw.2]
      exact Except.ok.inj hm

/-- New children, and a refresh behind them. -/
theorem refilled (i : InstanceId) (place : Member) (type : String) (children : List Given) :
    u.Moves (fun w => u.Alive i w ∧ u.Place place w) (refill c i place type children) anything := by
  unfold Render.refill
  have hall := Moves.keep ((lasts_alive i).and (lasts_place place))
    ((u.all place children).mono (fun _ hw => hw.2) fun _ _ h => h)
  refine hall.bind fun results => ?_
  refine ((u.refreshes i).mono (fun _ hw => hw.1) fun _ _ h => h).bind fun outcome => ?_
  cases outcome with
  | error failure => exact moves_done
  | ok _ => exact (moves_note (lasts_alive i) (by rfl)).bind fun _ => moves_done

end Passes

end Upkeep

end Render

end ViewTree
