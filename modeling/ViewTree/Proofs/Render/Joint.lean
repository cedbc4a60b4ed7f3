import ViewTree.Proofs.Live.Abreast
import ViewTree.Proofs.Live.Action
import ViewTree.Proofs.Render.Acts

/-
  ViewTree.Proofs.Render.Joint — two render passes, act by act.

  Two nodes of one type with the same props and events are rendered in two worlds, whatever
  else is in these. What is done with their instances is done abreast (`Joint`): the acts
  of both passes are answered alike, and leave the instances abreast. So it goes from the
  creation of the instances, which fails in both worlds or in none
  (`instantiate_pair`), to the places for their children, which are paired.
-/

namespace ViewTree.Render

open Live
open Live.Store (Abreast Paired Young)

/-- What holds of two instances, each in its store, under some ties. -/
abbrev Bond := Ties → InstanceId → InstanceId → Store → Store → Prop

/-- Two actions, each on its own of two instances that are in one bond, leave them in
    another, and their answers correspond. -/
def JointFrom {α β : Type} (P Q : Bond) (T : Ties) (i j : InstanceId) (act₁ : Act α)
    (act₂ : Act β) (R : Ties → α → β → Prop) : Prop :=
  ∀ w₁ w₂ : World, P T i j w₁.store w₂.store →
    ∃ T', T.Le T' ∧ R T' (act₁.run w₁).1 (act₂.run w₂).1 ∧
      Q T' i j (act₁.run w₁).2.store (act₂.run w₂).2.store

/-- Actions on instances that are abreast leave them abreast. -/
abbrev Joint {α β : Type} (T : Ties) (i j : InstanceId) (act₁ : Act α) (act₂ : Act β)
    (R : Ties → α → β → Prop) : Prop :=
  JointFrom Paired Paired T i j act₁ act₂ R

/-- The answers are the same. -/
abbrev alike {α : Type} : Ties → α → α → Prop := fun _ a b => a = b

section Rules

variable {α β γ δ : Type} {T : Ties} {i j : InstanceId} {act₁ : Act α} {act₂ : Act β}
variable {R : Ties → α → β → Prop} {f₁ : α → Act γ} {f₂ : β → Act δ} {S : Ties → γ → δ → Prop}

theorem JointFrom.bind {P P' P'' : Bond} (h : JointFrom P P' T i j act₁ act₂ R)
    (k : ∀ T' a b, T.Le T' → R T' a b → JointFrom P' P'' T' i j (f₁ a) (f₂ b) S) :
    JointFrom P P'' T i j (act₁ >>= f₁) (act₂ >>= f₂) S := by
  intro w₁ w₂ hbond
  obtain ⟨T', hle, hanswer, hbond'⟩ := h w₁ w₂ hbond
  obtain ⟨T'', hle', hanswer', hbond''⟩ := k T' _ _ hle hanswer _ _ hbond'
  exact ⟨T'', hle.trans hle', hanswer', hbond''⟩

/-- Instances to which nothing was brought yet are abreast. -/
theorem JointFrom.young {P : Bond} (h : JointFrom Paired P T i j act₁ act₂ R) :
    JointFrom Young P T i j act₁ act₂ R :=
  fun w₁ w₂ hyoung => h w₁ w₂ hyoung.paired

theorem joint_pure {P : Bond} {a : α} {b : β} (h : R T a b) :
    JointFrom P P T i j (pure a) (pure b) R :=
  fun _ _ hbond => ⟨T, .refl T, h, hbond⟩

theorem joint_note (entries₁ entries₂ : Telemetry.Journal) :
    Joint T i j (Act.note entries₁) (Act.note entries₂) alike :=
  fun _ _ hpaired => ⟨T, .refl T, rfl, hpaired⟩

theorem joint_ofStore {g₁ : Store → α} {g₂ : Store → β}
    (h : ∀ x y s₁ s₂, Abreast T i j x y s₁ s₂ → R T (g₁ s₁) (g₂ s₂)) :
    Joint T i j (Act.ofStore g₁) (Act.ofStore g₂) R := by
  rintro w₁ w₂ ⟨x, y, A⟩
  exact ⟨T, .refl T, h x y _ _ A, x, y, A⟩

theorem joint_change {P : Bond} {g₁ g₂ : Store → Except Failure Store}
    (h : ∀ s₁ s₂, P T i j s₁ s₂ →
      (∃ failure, g₁ s₁ = .error failure ∧ g₂ s₂ = .error failure) ∨
      ∃ s₁' s₂', g₁ s₁ = .ok s₁' ∧ g₂ s₂ = .ok s₂' ∧ P T i j s₁' s₂') :
    JointFrom P P T i j (Act.change g₁) (Act.change g₂) alike := by
  intro w₁ w₂ hbond
  refine ⟨T, .refl T, ?_⟩
  rcases h _ _ hbond with ⟨failure, h₁, h₂⟩ | ⟨s₁', s₂', h₁, h₂, hpaired⟩
  · have hmap {g : Store → Except Failure Store} {s : Store} (hg : g s = .error failure) :
        (g s).map (fun s => ((), s)) = .error failure := by
      rw [hg]
      rfl
    rw [Act.change, Act.change, Act.run_attempt_error w₁ (hmap h₁),
      Act.run_attempt_error w₂ (hmap h₂)]
    exact ⟨rfl, hbond⟩
  · rw [Act.run_change_ok w₁ h₁, Act.run_change_ok w₂ h₂]
    exact ⟨rfl, hpaired⟩

theorem joint_refresh : Joint T i j (Act.refresh i) (Act.refresh j) alike := by
  rintro w₁ w₂ ⟨x, y, A⟩
  obtain ⟨hanswer, T', hle, hpaired⟩ := A.refresh
  exact ⟨T', hle, hanswer, hpaired⟩

end Rules

/-! ## Props and events -/

section Acts

variable {T : Ties} {i j : InstanceId}

theorem joint_bindProps (asInputs : Bool) (props : Fields) :
    ∀ {T : Ties}, JointFrom Young Young T i j (bindProps i asInputs props)
      (bindProps j asInputs props) alike := by
  induction props with
  | nil => exact joint_pure rfl
  | cons prop rest ih =>
    intro T
    obtain ⟨name, value⟩ := prop
    unfold bindProps
    refine (joint_change fun s₁ s₂ hyoung => ?_).bind fun T' outcome _ _ h => ?_
    · split
      · exact hyoung.setInput name value
      · exact hyoung.giveAttribute name value
    · obtain rfl := h
      cases outcome with
      | error failure => exact joint_pure rfl
      | ok _ => exact ih

theorem joint_listen (e e' : EmitterId) (callback : Callback) :
    Joint T i j (listen i e callback) (listen j e' callback) alike := by
  have hsubscribe : Joint T i j (Act.update (·.subscribe e callback))
      (Act.update (·.subscribe e' callback)) (fun _ _ _ => True) := by
    rintro w₁ w₂ ⟨x, y, A⟩
    exact ⟨T, .refl T, trivial, x, y, A.subscribe e e' callback⟩
  unfold listen
  refine hsubscribe.bind fun T' id id' _ _ => ?_
  refine (joint_ofStore (R := alike) fun x y s₁ s₂ A => A.can .track).bind fun _ tracks _ _ h => ?_
  obtain rfl := h
  split
  · exact joint_change fun s₁ s₂ hpaired => hpaired.track id id'
  · exact joint_pure rfl

theorem joint_bindEvents (type : String) (events : Fields) :
    ∀ {T : Ties}, Joint T i j (bindEvents i type events) (bindEvents j type events) alike := by
  induction events with
  | nil => exact joint_pure rfl
  | cons event rest ih =>
    intro T
    obtain ⟨name, handler⟩ := event
    unfold bindEvents
    cases Callback.ofBinding? handler with
    | none =>
      refine (joint_note _ _).bind fun _ _ _ _ _ => ih.bind fun _ _ _ _ h => ?_
      obtain rfl := h
      exact joint_pure rfl
    | some callback =>
      refine (joint_ofStore (R := fun _ a b => a.isSome = b.isSome)
        fun x y s₁ s₂ A => A.output?_isSome name).bind fun T' output output' _ h => ?_
      cases output with
      | none =>
        obtain rfl := Option.isNone_iff_eq_none.mp (Option.isSome_eq_false_iff.mp h.symm)
        refine (joint_note _ _).bind fun _ _ _ _ _ => ih.bind fun _ _ _ _ h => ?_
        obtain rfl := h
        exact joint_pure rfl
      | some e =>
        obtain ⟨e', rfl⟩ := Option.isSome_iff_exists.mp h.symm
        refine (joint_listen e e' callback).bind fun _ outcome _ _ h => ?_
        obtain rfl := h
        cases outcome with
        | error failure => exact joint_pure rfl
        | ok _ => exact ih

theorem joint_prepare {a b : Node} (htype : a.type = b.type) (hprops : a.props = b.props)
    (hevents : a.events = b.events) : JointFrom Young Paired T i j (prepare a i) (prepare b j)
      alike := by
  have hcan : JointFrom Young Young T i j (Act.ofStore (·.can i .setInput))
      (Act.ofStore (·.can j .setInput)) alike := by
    rintro w₁ w₂ ⟨x, y, A, hnone⟩
    exact ⟨T, .refl T, A.can .setInput, x, y, A, hnone⟩
  unfold prepare
  rw [htype, hprops, hevents]
  refine hcan.bind fun _ asInputs _ _ h => ?_
  obtain rfl := h
  refine (joint_bindProps _ _).bind fun _ outcome _ _ h => ?_
  obtain rfl := h
  cases outcome with
  | error failure => exact JointFrom.young (joint_pure rfl)
  | ok _ =>
    refine (joint_bindEvents _ _).young.bind fun _ bound _ _ h => ?_
    obtain rfl := h
    obtain ⟨warnings, outcome⟩ := bound
    cases outcome with
    | error failure => exact joint_pure rfl
    | ok _ =>
      refine joint_refresh.bind fun _ outcome _ _ h => ?_
      obtain rfl := h
      exact joint_pure rfl

/-! ## Places -/

/-- Both fail in one way, or both come to something. -/
inductive Answered {α β : Type} (R : α → β → Prop) :
    Except Failure α → Except Failure β → Prop where
  | failed (failure : Failure) : Answered R (.error failure) (.error failure)
  | done {a : α} {b : β} : R a b → Answered R (.ok a) (.ok b)

/-- Places that are paired. -/
inductive Places.Tied (T : Ties) : Places → Places → Prop where
  | nowhere : Tied T .nowhere .nowhere
  | together {m m' : Member} : m.Tied T.hosts m' → Tied T (.together m) (.together m')
  | onePerPanel {panels panels' : List HostId} :
    List.Forall₂ T.hosts panels panels' → Tied T (.onePerPanel panels) (.onePerPanel panels')

theorem joint_panelsOf :
    Joint T i j (panelsOf i) (panelsOf j) (fun T => Answered (List.Forall₂ T.hosts)) := by
  unfold panelsOf
  refine (joint_ofStore (R := alike) fun x y s₁ s₂ A => A.panelsFault?).bind
    fun _ fault _ _ h => ?_
  obtain rfl := h
  cases fault with
  | some failure => exact joint_pure (.failed failure)
  | none =>
    refine (joint_ofStore (R := fun T => Option.Rel (List.Forall₂ T.hosts))
      fun x y s₁ s₂ A => A.childPanels?).bind fun T' found found' _ h => ?_
    cases h with
    | none => exact joint_pure (.done .nil)
    | some h =>
      cases h with
      | cons hp hrest => exact joint_pure (.done (.cons hp hrest))
      | nil =>
        refine joint_refresh.bind fun _ outcome _ _ h => ?_
        obtain rfl := h
        cases outcome with
        | error failure => exact joint_pure (.failed failure)
        | ok _ =>
          refine (joint_ofStore (R := fun T => List.Forall₂ T.hosts) fun x y s₁ s₂ A => ?_).bind
            fun _ _ _ _ h => joint_pure (.done h)
          have hpanels := A.childPanels?
          revert hpanels
          generalize s₁.childPanels? i = a
          generalize s₂.childPanels? j = b
          rintro (h | _)
          · exact h
          · exact .nil

theorem joint_placesOf {c₁ c₂ : Context} (hregistry : c₁.registry = c₂.registry) (type : String) :
    Joint T i j (placesOf c₁ i type) (placesOf c₂ j type)
      (fun T => Answered (Places.Tied T)) := by
  unfold placesOf
  rw [hregistry]
  cases c₂.registry.capability? type with
  | none => exact joint_pure (.done .nowhere)
  | some capability =>
    dsimp only
    split
    · exact joint_pure (.done .nowhere)
    · refine joint_panelsOf.bind fun T' found found' _ h => ?_
      cases h with
      | failed failure => exact joint_pure (.failed failure)
      | done h =>
        cases h with
        | cons hp hrest => exact joint_pure (.done (.onePerPanel (.cons hp hrest)))
        | nil =>
          refine (joint_ofStore (R := fun T => Option.Rel (Member.Tied T.hosts))
            fun x y s₁ s₂ A => A.mount? capability.hostProperty).bind fun _ _ _ _ h => ?_
          cases h with
          | none => exact joint_pure (.done .nowhere)
          | some hm => exact joint_pure (.done (.together hm))

end Acts

/-! ## New instances -/

section Creation

variable {T : Ties} {m m' : Member} {w₁ w₂ : World}

/-- Neither action creates anything, for the same reason. -/
def BothFail {ε : Type} (act₁ act₂ : Act (Except ε InstanceId)) (w₁ w₂ : World) : Prop :=
  ∃ fault, (act₁.run w₁).1 = .error fault ∧ (act₂.run w₂).1 = .error fault ∧
    (act₁.run w₁).2.store = w₁.store ∧ (act₂.run w₂).2.store = w₂.store

/-- Both actions create an instance of one make, in hosts that are paired. -/
def BothCreate {ε : Type} (T : Ties) (m m' : Member) (act₁ act₂ : Act (Except ε InstanceId))
    (w₁ w₂ : World) : Prop :=
  ∃ g h b x y, m = .host g ∧ m' = .host h ∧ T.hosts g h ∧
    (act₁.run w₁).1 = .ok w₁.store.instances.length ∧
    (act₂.run w₂).1 = .ok w₂.store.instances.length ∧
    w₁.store.Makes g b x (act₁.run w₁).2.store ∧ w₂.store.Makes h b y (act₂.run w₂).2.store

theorem createIn_pair (factory : Factory) (hm : m.Tied T.hosts m') (w₁ w₂ : World) :
    BothFail (createIn factory m) (createIn factory m') w₁ w₂ ∨
      BothCreate T m m' (createIn factory m) (createIn factory m') w₁ w₂ := by
  cases hm with
  | output e e' => exact .inl ⟨_, rfl, rfl, rfl, rfl⟩
  | same hm =>
    cases m
    case host g => exact absurd rfl (hm g)
    all_goals exact .inl ⟨_, rfl, rfl, rfl, rfl⟩
  | @host g h hgh =>
    have hfails (failure : Failure) (hmake : ∀ (s : Store) (h : HostId),
        s.create h factory = .error failure) :
        BothFail (createIn factory (.host g)) (createIn factory (.host h)) w₁ w₂ := by
      refine ⟨failure, ?_⟩
      rw [createIn, createIn, Act.run_attempt_error w₁ (hmake _ g),
        Act.run_attempt_error w₂ (hmake _ h)]
      exact ⟨rfl, rfl, rfl, rfl⟩
    cases factory with
    | make b =>
      cases hb : b.fault? with
      | some failure => exact .inl (hfails failure fun s h => s.create_faulty h hb)
      | none =>
        obtain ⟨x, s₁, hcreate₁, hmakes₁⟩ := w₁.store.create_make g hb
        obtain ⟨y, s₂, hcreate₂, hmakes₂⟩ := w₂.store.create_make h hb
        refine .inr ⟨g, h, b, x, y, rfl, rfl, hgh, ?_⟩
        rw [createIn, createIn, Act.run_attempt_ok w₁ hcreate₁, Act.run_attempt_ok w₂ hcreate₂]
        exact ⟨rfl, rfl, hmakes₁, hmakes₂⟩
    | fails failure => exact .inl (hfails _ fun _ _ => rfl)
    | notCallable typeName => exact .inl (hfails _ fun _ _ => rfl)
    | wantsData typeName => exact .inl (hfails _ fun _ _ => rfl)

/-- Nodes of one type have an instance each or none, in places that are paired. -/
theorem instantiate_pair {c₁ c₂ : Context} (hregistry : c₁.registry = c₂.registry) {a b : Node}
    (htype : a.type = b.type) {target target' : Option Member}
    (htarget : Option.Rel (Member.Tied T.hosts) target target') (w₁ w₂ : World) :
    BothFail (instantiate c₁ a target) (instantiate c₂ b target') w₁ w₂ ∨
      ∃ m m', target = some m ∧ target' = some m' ∧
        BothCreate T m m' (instantiate c₁ a target) (instantiate c₂ b target') w₁ w₂ := by
  unfold instantiate
  rw [htype, hregistry]
  cases b.type.filter (· ≠ "") with
  | none => exact .inl ⟨_, rfl, rfl, rfl, rfl⟩
  | some type =>
    cases htarget with
    | none => exact .inl ⟨_, rfl, rfl, rfl, rfl⟩
    | @some m m' hm =>
      dsimp only
      cases c₂.registry.get? type with
      | none => exact .inl ⟨_, rfl, rfl, rfl, rfl⟩
      | some entry =>
        have hstore (c : Context) (node : Node) (w : World) :=
          (does_checkVersion c node w.store w rfl).2
        simp only [BothFail, BothCreate, Act.run_bind]
        rw [← hstore c₁ a w₁, ← hstore c₂ b w₂]
        generalize ((checkVersion c₁ a).run w₁).2 = u₁
        generalize ((checkVersion c₂ b).run w₂).2 = u₂
        rcases createIn_pair entry.factory hm u₁ u₂ with
          ⟨failure, h₁, h₂, hsame₁, hsame₂⟩ | ⟨g, h, blueprint, x, y, rfl, rfl, hgh, h₁, h₂, hmakes⟩
        · rw [h₁, h₂]
          exact .inl ⟨_, rfl, rfl, hsame₁, hsame₂⟩
        · rw [h₁, h₂]
          exact .inr ⟨_, _, rfl, rfl, g, h, blueprint, x, y, rfl, rfl, hgh, rfl, rfl, hmakes⟩

end Creation

end ViewTree.Render
