import ViewTree.Proofs.Node.Tree
import ViewTree.Proofs.Render.Alike

/-
  ViewTree.Proofs.Render.Twins — actions that come to the same on the same store.

  What a pass does to the store does not depend on the rest of the world: neither on the
  calls that were received, nor on the journal, nor on whether a version was reported
  (`Twin`). So settings that change nothing but what is recorded change nothing else: with
  one registry, a tree none of whose nodes below the root is refused in one context and
  not in the other is rendered to the same results and the same store (`twin_node`).
-/

namespace ViewTree.Render

open Live

/-- On one store, two actions have one answer and leave one store. -/
def Twin {α : Type} (act₁ act₂ : Act α) : Prop :=
  ∀ w₁ w₂ : World, w₁.store = w₂.store →
    (act₁.run w₁).1 = (act₂.run w₂).1 ∧ (act₁.run w₁).2.store = (act₂.run w₂).2.store

section Rules

variable {α β : Type} {act₁ act₂ : Act α} {f₁ f₂ : α → Act β}

theorem Twin.bind (h : Twin act₁ act₂) (k : ∀ a, Twin (f₁ a) (f₂ a)) :
    Twin (act₁ >>= f₁) (act₂ >>= f₂) := by
  intro w₁ w₂ hw
  obtain ⟨hanswer, hstore⟩ := h w₁ w₂ hw
  rw [Act.run_bind, Act.run_bind, hanswer]
  exact k _ _ _ hstore

theorem twin_pure (a : α) : Twin (pure a) (pure a) := fun _ _ hw => ⟨rfl, hw⟩

theorem twin_note (entries₁ entries₂ : Telemetry.Journal) :
    Twin (Act.note entries₁) (Act.note entries₂) :=
  fun _ _ hw => ⟨rfl, hw⟩

theorem twin_ofStore (f : Store → α) : Twin (Act.ofStore f) (Act.ofStore f) :=
  fun _ _ hw => ⟨congrArg f hw, hw⟩

theorem twin_update (f : Store → α × Store) : Twin (Act.update f) (Act.update f) := by
  intro w₁ w₂ hw
  rw [Act.run_update, Act.run_update, hw]
  exact ⟨rfl, rfl⟩

theorem twin_attempt (f : Store → Except Failure (α × Store)) :
    Twin (Act.attempt f) (Act.attempt f) := by
  intro w₁ w₂ hw
  cases h : f w₁.store with
  | error failure =>
    rw [Act.run_attempt_error w₁ h, Act.run_attempt_error w₂ (hw ▸ h)]
    exact ⟨rfl, hw⟩
  | ok done =>
    rw [Act.run_attempt_ok w₁ h, Act.run_attempt_ok w₂ (hw ▸ h)]
    exact ⟨rfl, rfl⟩

theorem twin_change (f : Store → Except Failure Store) : Twin (Act.change f) (Act.change f) :=
  twin_attempt _

theorem twin_refresh (i : InstanceId) : Twin (Act.refresh i) (Act.refresh i) := by
  intro w₁ w₂ hw
  rw [Act.refresh, Act.run_perform, Act.run_perform, hw]
  exact ⟨rfl, rfl⟩

end Rules

/-! ## The acts of a pass -/

section Acts

variable {c₁ c₂ : Context} (i : InstanceId)

theorem twin_checkVersion (c₁ c₂ : Context) (node : Node) :
    Twin (checkVersion c₁ node) (checkVersion c₂ node) := by
  intro w₁ w₂ hw
  have hstore₁ := (does_checkVersion c₁ node w₁.store w₁ rfl).2
  have hstore₂ := (does_checkVersion c₂ node w₂.store w₂ rfl).2
  exact ⟨rfl, hstore₁.trans (hw.trans hstore₂.symm)⟩

theorem twin_createIn (factory : Factory) (place : Member) :
    Twin (createIn factory place) (createIn factory place) := by
  cases place with
  | host h => exact twin_attempt _
  | _ => exact twin_pure _

theorem twin_instantiate (hregistry : c₁.registry = c₂.registry) (node : Node)
    (target : Option Member) : Twin (instantiate c₁ node target) (instantiate c₂ node target) := by
  unfold instantiate
  rw [hregistry]
  cases node.type.filter (· ≠ "") with
  | none => exact twin_pure _
  | some type =>
    cases target with
    | none => exact twin_pure _
    | some place =>
      dsimp only
      cases c₂.registry.get? type with
      | none => exact twin_pure _
      | some entry =>
        refine (twin_checkVersion c₁ c₂ node).bind fun _ =>
          (twin_createIn entry.factory place).bind fun made => ?_
        cases made <;> exact twin_pure _

theorem twin_bindProps (asInputs : Bool) (props : Fields) :
    Twin (bindProps i asInputs props) (bindProps i asInputs props) := by
  induction props with
  | nil => exact twin_pure _
  | cons prop rest ih =>
    unfold bindProps
    refine (twin_change _).bind fun outcome => ?_
    cases outcome with
    | error failure => exact twin_pure _
    | ok _ => exact ih

theorem twin_listen (e : EmitterId) (callback : Callback) :
    Twin (listen i e callback) (listen i e callback) := by
  unfold listen
  refine (twin_update _).bind fun subscription => (twin_ofStore _).bind fun tracks => ?_
  split
  · exact twin_change _
  · exact twin_pure _

theorem twin_bindEvents (type : String) (events : Fields) :
    Twin (bindEvents i type events) (bindEvents i type events) := by
  induction events with
  | nil => exact twin_pure _
  | cons event rest ih =>
    obtain ⟨name, handler⟩ := event
    unfold bindEvents
    cases Callback.ofBinding? handler with
    | none => exact (twin_note _ _).bind fun _ => ih.bind fun _ => twin_pure _
    | some callback =>
      refine (twin_ofStore _).bind fun output => ?_
      cases output with
      | none => exact (twin_note _ _).bind fun _ => ih.bind fun _ => twin_pure _
      | some e =>
        refine (twin_listen i e callback).bind fun outcome => ?_
        cases outcome with
        | error failure => exact twin_pure _
        | ok _ => exact ih

theorem twin_prepare (node : Node) : Twin (prepare node i) (prepare node i) := by
  unfold prepare
  refine (twin_ofStore _).bind fun asInputs => (twin_bindProps i _ _).bind fun outcome => ?_
  cases outcome with
  | error failure => exact twin_pure _
  | ok _ =>
    refine (twin_bindEvents i _ _).bind fun bound => ?_
    obtain ⟨warnings, outcome⟩ := bound
    cases outcome with
    | error failure => exact twin_pure _
    | ok _ => exact (twin_refresh i).bind fun _ => twin_pure _

theorem twin_panelsOf : Twin (panelsOf i) (panelsOf i) := by
  unfold panelsOf
  refine (twin_ofStore _).bind fun fault => ?_
  cases fault with
  | some failure => exact twin_pure _
  | none =>
    refine (twin_ofStore _).bind fun found => ?_
    match found with
    | none => exact twin_pure _
    | some (p :: rest) => exact twin_pure _
    | some [] =>
      refine (twin_refresh i).bind fun outcome => ?_
      cases outcome with
      | error failure => exact twin_pure _
      | ok _ => exact (twin_ofStore _).bind fun _ => twin_pure _

theorem twin_placesOf (hregistry : c₁.registry = c₂.registry) (type : String) :
    Twin (placesOf c₁ i type) (placesOf c₂ i type) := by
  unfold placesOf
  rw [hregistry]
  cases c₂.registry.capability? type with
  | none => exact twin_pure _
  | some capability =>
    dsimp only
    split
    · exact twin_pure _
    · refine (twin_panelsOf i).bind fun found => ?_
      match found with
      | .error failure => exact twin_pure _
      | .ok (p :: rest) => exact twin_pure _
      | .ok [] =>
        refine (twin_ofStore _).bind fun place => ?_
        cases place <;> exact twin_pure _

theorem twin_abandoned (node : Node) (results : List RenderResult) (warnings : List String)
    (failure : Failure) :
    Twin (abandoned node i results warnings failure) (abandoned node i results warnings failure) :=
  (twin_note _ _).bind fun _ => twin_pure _

theorem twin_finish (node : Node) (results : List RenderResult) (warnings : List String) :
    Twin (finish node i results warnings) (finish node i results warnings) := by
  unfold finish
  refine (twin_refresh i).bind fun outcome => ?_
  cases outcome with
  | error failure => exact twin_abandoned i node results warnings failure
  | ok _ => exact twin_pure _

theorem twin_unlessRefused {child : Node} {act₁ act₂ : Act RenderResult}
    (hrefusal : refusal? c₁ child = refusal? c₂ child) (hact : Twin act₁ act₂) :
    Twin (unlessRefused c₁ child act₁) (unlessRefused c₂ child act₂) := by
  intro w₁ w₂ hw
  obtain ⟨u₁, hu₁, hrun₁⟩ := run_unlessRefused c₁ child act₁ w₁
  obtain ⟨u₂, hu₂, hrun₂⟩ := run_unlessRefused c₂ child act₂ w₂
  have hu : u₁.store = u₂.store := hu₁.trans (hw.trans hu₂.symm)
  rw [hrun₁, hrun₂, hrefusal]
  cases refusal? c₂ child with
  | some error => exact ⟨rfl, hu⟩
  | none => exact hact u₁ u₂ hu

end Acts

/-! ## Rendering -/

/-- A node is refused in both contexts with one error, or in none. -/
def RefusedAlike (c₁ c₂ : Context) (node : Node) : Prop := refusal? c₁ node = refusal? c₂ node

section Rendering

variable {c₁ c₂ : Context}

theorem twin_house (node : Node) (i : InstanceId) (warnings : List String)
    (found : Except Failure Places)
    (htogether : ∀ place,
      Twin (renderTogether c₁ place node.children) (renderTogether c₂ place node.children))
    (hapart : ∀ panels, Twin (renderApart c₁ (node.type.getD "") panels 0 node.children)
      (renderApart c₂ (node.type.getD "") panels 0 node.children)) :
    Twin (house c₁ node i warnings found) (house c₂ node i warnings found) := by
  match found with
  | .error failure => exact twin_abandoned i _ _ _ _
  | .ok .nowhere =>
    exact Twin.bind ((twin_note _ _).bind fun _ => twin_pure _) fun _ => twin_finish i _ _ _
  | .ok (.together place) => exact (htogether place).bind fun _ => twin_finish i _ _ _
  | .ok (.onePerPanel panels) => exact (hapart panels).bind fun _ => twin_finish i _ _ _

mutual
/-- A tree is rendered to the same results and the same store, if its nodes below the root
    are refused alike. -/
theorem twin_node (hregistry : c₁.registry = c₂.registry) (target : Option Member) : ∀ node : Node,
    Node.ThroughoutAll (RefusedAlike c₁ c₂) node.children →
    Twin (renderNode c₁ target node) (renderNode c₂ target node)
  | ⟨id, type, props, children, events, extras, source⟩, h => by
    rw [renderNode_eq, renderNode_eq]
    refine (twin_instantiate hregistry _ target).bind fun made => ?_
    cases made with
    | error fault => exact (twin_note _ _).bind fun _ => twin_pure _
    | ok i =>
      refine (twin_prepare i _).bind fun prepared => ?_
      obtain ⟨warnings, outcome⟩ := prepared
      cases outcome with
      | error failure => exact twin_abandoned i _ _ _ _
      | ok _ =>
        rw [furnish, furnish]
        split
        · exact twin_finish i _ _ _
        · refine (twin_placesOf i hregistry _).bind fun found => twin_house _ i warnings found ?_ ?_
          · exact fun place => twin_together hregistry place children h
          · exact fun panels => twin_apart hregistry (type.getD "") panels 0 children h

theorem twin_together (hregistry : c₁.registry = c₂.registry) (place : Member) :
    ∀ children : List Node, Node.ThroughoutAll (RefusedAlike c₁ c₂) children →
    Twin (renderTogether c₁ place children) (renderTogether c₂ place children)
  | [], _ => twin_pure _
  | child :: rest, h => by
    rw [Node.ThroughoutAll, Node.throughout_iff] at h
    rw [renderTogether, renderTogether]
    have hchild := twin_unlessRefused h.1.1 (twin_node hregistry (some place) child h.1.2)
    refine hchild.bind fun _ => ?_
    exact (twin_together hregistry place rest h.2).bind fun _ => twin_pure _

theorem twin_apart (hregistry : c₁.registry = c₂.registry) (type : String) (panels : List HostId)
    (index : Nat) : ∀ children : List Node, Node.ThroughoutAll (RefusedAlike c₁ c₂) children →
    Twin (renderApart c₁ type panels index children) (renderApart c₂ type panels index children)
  | [], _ => twin_pure _
  | child :: rest, h => by
    rw [Node.ThroughoutAll, Node.throughout_iff] at h
    rw [renderApart, renderApart]
    cases panels[index]? with
    | some g =>
      have hchild := twin_unlessRefused h.1.1 (twin_node hregistry (some (.host g)) child h.1.2)
      refine hchild.bind fun _ => ?_
      exact (twin_apart hregistry type panels (index + 1) rest h.2).bind fun _ => twin_pure _
    | none =>
      refine Twin.bind ((twin_note _ _).bind fun _ => twin_pure _) fun _ => ?_
      exact (twin_apart hregistry type panels (index + 1) rest h.2).bind fun _ => twin_pure _
end

end Rendering

end ViewTree.Render
