import ViewTree.Proofs.Live.Action
import ViewTree.Proofs.Live.Growth
import ViewTree.Render

/-
  ViewTree.Proofs.Render.Acts — the acts of a render pass on plain instances.

  Each act succeeds, and changes nothing in the world but the store, by one of the changes
  that `Growth` gives: an instance is created, its inputs are set, a callback is
  subscribed, mount points appear.

  What a pass does to the store does not depend on the rest of the world. `Does` says so
  of an action: on a store it has one answer and leaves one store.
-/

namespace ViewTree.Render

open Live

/-- Rendering with the built-in library. -/
def libraryContext (settings : Settings) : Context := ⟨Registry.library, settings⟩

variable {w : World} {i : InstanceId} {x : Instance}

theorem run_createIn (w : World) (h : HostId) {b : Blueprint} (hb : b.Plain) :
    (createIn (.make b) (.host h)).run w =
      (.ok w.store.instances.length, { w with store := w.store.created h b }) := by
  rw [createIn]
  exact Act.run_attempt_ok w (w.store.create_plain h hb)

theorem run_bindProps (hx : w.store.instances[i]? = some x) (h : x.Plain) (props : Fields) :
    (bindProps i true props).run w =
      (.ok (), { w with store := { w.store with
        instances := w.store.instances.set i { x with inputs := x.inputs.merge props } } }) := by
  induction props generalizing w x with
  | nil =>
    obtain ⟨hlt, rfl⟩ := List.getElem?_eq_some_iff.mp hx
    change (Except.ok (), w) = _
    rw [show Fields.merge _ [] = w.store.instances[i].inputs from rfl, List.set_getElem_self]
  | cons prop rest ih =>
    obtain ⟨name, value⟩ := prop
    have hlt := (List.getElem?_eq_some_iff.mp hx).1
    let y : Instance := { x with inputs := Fields.put name value x.inputs }
    let s : Store := { w.store with instances := w.store.instances.set i y }
    have hset : w.store.setInput i name value = .ok s := by
      rw [Store.setInput_plain hx h, Store.updateInstance_eq hx]
    have hy : s.instances[i]? = some y := List.getElem?_set_self hlt
    have hplain : y.Plain := ⟨h.blueprint, h.attributes, h.outputs, h.content, h.panels⟩
    simp only [bindProps, if_true]
    rw [Act.run_bind, Act.run_change_ok w hset]
    refine (ih (w := { w with store := s }) hy hplain).trans ?_
    simp only [s, List.set_set]
    rfl

theorem run_listen (hx : w.store.instances[i]? = some x) (h : x.Plain) (e : EmitterId)
    (callback : Callback) :
    (listen i e callback).run w = (.ok (), { w with store := w.store.listening i x e callback }) := by
  have hcan : (w.store.subscribe e callback).2.can i .track = true :=
    Store.can_plain hx h (by decide)
  rw [listen, Act.run_bind, Act.run_update, Act.run_bind, Act.run_ofStore]
  simp only [hcan, if_true]
  exact Act.run_change_ok _ (Store.track_subscribe hx h e callback)

theorem run_refresh (hx : w.store.instances[i]? = some x) (h : x.Plain)
    (hlive : x.destroyed = false) :
    (Act.refresh i).run w = (x.refreshOutcome, { w with store := w.store.refreshed i x }) := by
  rw [Act.refresh, Act.run_perform, Store.refresh_live hx h hlive]

/-! ## Answers and stores -/

variable {α β : Type} {s s' s'' : Store} {a : α} {b : β}

/-- On any world with a store, an action answers this and leaves that store. -/
def Does (act : Act α) (s : Store) (a : α) (s' : Store) : Prop :=
  ∀ w : World, w.store = s → (act.run w).1 = a ∧ (act.run w).2.store = s'

theorem Does.bind {act : Act α} {f : α → Act β} (h : Does act s a s') (h' : Does (f a) s' b s'') :
    Does (act >>= f) s b s'' := by
  intro w hw
  obtain ⟨hanswer, hstore⟩ := h w hw
  rw [Act.run_bind, hanswer]
  exact h' _ hstore

theorem does_pure (s : Store) (a : α) : Does (pure a) s a s := fun _ hw => ⟨rfl, hw⟩

theorem does_note (s : Store) (entries : Telemetry.Journal) : Does (Act.note entries) s () s :=
  fun _ hw => ⟨rfl, hw⟩

theorem does_ofStore (s : Store) (f : Store → α) : Does (Act.ofStore f) s (f s) s := by
  rintro w rfl
  exact ⟨rfl, rfl⟩

theorem does_checkVersion (c : Context) (node : Node) (s : Store) :
    Does (checkVersion c node) s () s := by
  rintro w rfl
  rw [checkVersion, Act.run_bind, Act.run_get]
  dsimp only
  split <;> exact ⟨rfl, rfl⟩

theorem does_createIn (s : Store) (h : HostId) {b : Blueprint} (hb : b.Plain) :
    Does (createIn (.make b) (.host h)) s (.ok s.instances.length) (s.created h b) := by
  rintro w rfl
  rw [run_createIn w h hb]
  exact ⟨rfl, rfl⟩

section Plain

variable (hx : s.instances[i]? = some x) (h : x.Plain)
include hx h

theorem does_bindProps (props : Fields) :
    Does (bindProps i true props) s (.ok ())
      { s with instances := s.instances.set i { x with inputs := x.inputs.merge props } } := by
  rintro w rfl
  rw [run_bindProps hx h]
  exact ⟨rfl, rfl⟩

theorem does_listen (e : EmitterId) (callback : Callback) :
    Does (listen i e callback) s (.ok ()) (s.listening i x e callback) := by
  rintro w rfl
  rw [run_listen hx h]
  exact ⟨rfl, rfl⟩

theorem does_refresh (hlive : x.destroyed = false) :
    Does (Act.refresh i) s x.refreshOutcome (s.refreshed i x) := by
  rintro w rfl
  rw [run_refresh hx h hlive]
  exact ⟨rfl, rfl⟩

end Plain

end ViewTree.Render
