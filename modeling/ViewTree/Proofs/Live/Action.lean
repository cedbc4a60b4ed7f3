import ViewTree.Live.World

/-
  ViewTree.Proofs.Live.Action — what an action answers and the world it leaves.

  One equation for each way to make an action from a function on the store. The store is
  the only part of the world that such an action changes (`StoreOnly`), and the only part
  that several of them change one after the other.
-/

namespace ViewTree.Live.Act

variable {α β : Type} (w : World)

theorem run_bind (act : Act α) (f : α → Act β) :
    (act >>= f).run w = (f (act.run w).1).run (act.run w).2 := rfl

theorem run_get : (get : Act World).run w = (w, w) := rfl

theorem run_ofStore (f : Store → α) : (Act.ofStore f).run w = (f w.store, w) := rfl

theorem run_update (f : Store → α × Store) :
    (Act.update f).run w = ((f w.store).1, { w with store := (f w.store).2 }) := rfl

theorem run_perform (f : Store → Store.Attempt) :
    (Act.perform f).run w = ((f w.store).2, { w with store := (f w.store).1 }) := rfl

theorem run_attempt_ok {f : Store → Except Failure (α × Store)} {a : α} {s : Store}
    (h : f w.store = .ok (a, s)) : (Act.attempt f).run w = (.ok a, { w with store := s }) := by
  rw [attempt, run_bind, run_get]
  dsimp only
  rw [h]
  rfl

theorem run_attempt_error {f : Store → Except Failure (α × Store)} {failure : Failure}
    (h : f w.store = .error failure) : (Act.attempt f).run w = (.error failure, w) := by
  rw [attempt, run_bind, run_get]
  dsimp only
  rw [h]
  rfl

theorem run_change_ok {f : Store → Except Failure Store} {s : Store} (h : f w.store = .ok s) :
    (Act.change f).run w = (.ok (), { w with store := s }) := by
  refine run_attempt_ok w ?_
  rw [h]
  rfl

/-- An action changes nothing in the world but the store. -/
def StoreOnly (act : Act α) : Prop := ∀ w : World, ∃ s, (act.run w).2 = { w with store := s }

theorem storeOnly_pure (a : α) : StoreOnly (pure a) := fun w => ⟨w.store, rfl⟩

theorem storeOnly_ofStore (f : Store → α) : StoreOnly (Act.ofStore f) := fun w => ⟨w.store, rfl⟩

theorem storeOnly_update (f : Store → α × Store) : StoreOnly (Act.update f) := fun w =>
  ⟨_, congrArg Prod.snd (run_update w f)⟩

theorem storeOnly_attempt (f : Store → Except Failure (α × Store)) :
    StoreOnly (Act.attempt f) := by
  intro w
  cases h : f w.store with
  | error failure => exact ⟨w.store, by rw [run_attempt_error w h]⟩
  | ok done => exact ⟨done.2, by rw [run_attempt_ok w h]⟩

theorem storeOnly_change (f : Store → Except Failure Store) : StoreOnly (Act.change f) :=
  storeOnly_attempt _

theorem StoreOnly.bind {act : Act α} {f : α → Act β} (h : StoreOnly act)
    (h' : ∀ a, StoreOnly (f a)) : StoreOnly (act >>= f) := by
  intro w
  obtain ⟨s, hs⟩ := h w
  obtain ⟨s', hs'⟩ := h' (act.run w).1 { w with store := s }
  exact ⟨s', by rw [run_bind, hs, hs']⟩

end ViewTree.Live.Act
