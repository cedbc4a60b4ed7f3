import ViewTree.Live.Refresh
import ViewTree.Telemetry.Span

/-
  ViewTree.Live.World — the state that rendering works on.

  Besides the store of live instances the world holds what rendering leaves behind: the
  calls that handlers received and the journal, whose records are stamped with the
  fields bound at that moment. An action changes the world; an action that may
  fail answers with its failure, and the changes it made before that stay.
-/

namespace ViewTree.Live

open Telemetry

structure World where
  store : Store
  calls : List Call
  journal : Journal
  bound : Bound
  /-- A node asked for another renderer version, and that was reported. -/
  versionWarned : Bool

abbrev Act := StateM World

namespace World

def empty : World := ⟨.empty, [], [], [], false⟩

/-- Adds entries to the journal under the bound fields. -/
def note (entries : Journal) (w : World) : World :=
  { w with journal := w.journal ++ entries.map (Entry.stamp w.bound) }

end World

namespace Act

def note (entries : Journal) : Act Unit := modify (World.note entries)

/-- Changes the store. -/
def onStore (f : Store → Store) : Act Unit := modify fun w => { w with store := f w.store }

/-- Reads the store. -/
def ofStore {α : Type} (f : Store → α) : Act α := do return f (← get).store

/-- A change of the store with an answer. -/
def update {α : Type} (f : Store → α × Store) : Act α := do
  let w ← get
  let (a, s) := f w.store
  set { w with store := s }
  return a

/-- A change of the store that may fail, and then leaves the store alone. -/
def attempt {α : Type} (f : Store → Except Failure (α × Store)) : Act (Except Failure α) := do
  let w ← get
  match f w.store with
  | .error failure => return .error failure
  | .ok (a, s) =>
    set { w with store := s }
    return .ok a

/-- An attempt on the store, which also keeps what a failed one had done. -/
def perform (f : Store → Store.Attempt) : Act (Except Failure Unit) := do
  let w ← get
  let (s, result) := f w.store
  set { w with store := s }
  return result

def refresh (i : InstanceId) : Act (Except Failure Unit) := Act.perform (·.refresh i)

/-- A change of the store that may fail without an answer. -/
def change (f : Store → Except Failure Store) : Act (Except Failure Unit) :=
  attempt fun s => (f s).map fun s => ((), s)

/-- Emits an event; the calls are kept also when one of them fails. -/
def emit (e : EmitterId) (data : Json) : Act (Except Failure Unit) := do
  let w ← get
  let (calls, failure) := w.store.emit e data
  set { w with calls := w.calls ++ calls }
  match failure with
  | none => return .ok ()
  | some f => return .error f

end Act

end ViewTree.Live
