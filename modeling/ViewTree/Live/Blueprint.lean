import ViewTree.Capability
import ViewTree.Live.Failure

/-
  ViewTree.Live.Blueprint — what a live instance is made from.

  A blueprint fixes the shape of an instance: whether it takes children, and how. The
  shapes:
  - a leaf takes no children;
  - a container has one mount point, which appears when it is first refreshed;
  - tabs are a container that also keeps one mount point per entry of their tab list;
  - a spread is a container with further mount points, of which each refresh adds as many
    as its class wants by then;
  - a bare instance has outputs and attributes and nothing else.

  The class of an instance may fail of itself when it is refreshed or an input is set
  (`Hooks`). It goes by what the instance holds of its own, and by nothing that is mounted
  in it: a class that looks there, or at other instances, has no blueprint. Nor has a
  factory that keeps a state: it makes instances of one blueprint, or fails each time in
  one way.
-/

namespace ViewTree.Live

/-- What an instance holds of its own. -/
structure Own where
  inputs : Fields
  attributes : Fields
  /-- How often it was refreshed. -/
  checks : Nat
  destroyed : Bool

inductive Shape where
  | leaf
  | container (host : String)
  | tabs (host : String)
  /-- The further mount points are named by a label and their number. -/
  | spread (host label : String) (wanted : Own → Nat)
  | bare

/-- A spread whose mount points appear when it is refreshed for the second time. -/
def Shape.late (host : String) (panels : Nat) : Shape :=
  spread host "late" fun own => if 1 ≤ own.checks then panels else 0

/-- How a class fails of itself, by what an instance holds when it is asked. -/
structure Hooks where
  /-- A refresh, before anything is done. -/
  refresh : Own → Option Failure
  /-- A refresh, when all is done that every class does. -/
  refreshed : Own → Option Failure
  /-- Setting an input, before it is set. -/
  input : Own → String → Json → Option Failure

namespace Hooks

/-- A class that never fails of itself. -/
def never : Hooks := ⟨fun _ => none, fun _ => none, fun _ _ _ => none⟩

/-- A class whose refreshes fail from one on. -/
def failsFrom (first : Nat) : Hooks :=
  { never with
    refresh := fun own =>
      if first ≤ own.checks + 1 then
        some (.raised "RuntimeError" ("boom " ++ toString (own.checks + 1)))
      else none }

/-- A class that refuses some inputs. -/
def refuses (names : List String) : Hooks :=
  { never with
    input := fun _ name _ =>
      if names.contains name then some (.raised "ValueError" ("bad input " ++ name)) else none }

end Hooks

structure Blueprint where
  componentType : String
  /-- The name of the class of instances, as they show themselves. -/
  className : String
  shape : Shape
  /-- The events an instance emits. -/
  outputs : List String
  hooks : Hooks

namespace Blueprint

def leaf (type : String) (outputs : List String) : Blueprint :=
  ⟨type, "BaseComponent", .leaf, outputs, .never⟩

def container (type host : String) (outputs : List String) : Blueprint :=
  ⟨type, "ContainerComponent", .container host, outputs, .never⟩

def tabs (type host : String) (outputs : List String) : Blueprint :=
  ⟨type, "TabsComponent", .tabs host, outputs, .never⟩

/-- The name of the mount point for children. -/
def host? (b : Blueprint) : Option String :=
  match b.shape with
  | .container host => some host
  | .tabs host => some host
  | .spread host _ _ => some host
  | .leaf => none
  | .bare => none

/-- The reference blueprint of a capability. -/
def ofCapability (c : Capability) : Blueprint :=
  if c.name = "tabs" then tabs c.name c.hostProperty c.outputs
  else if c.isContainer then container c.name c.hostProperty c.outputs
  else leaf c.name c.outputs

/-- Under this name every instance has its class, and takes nothing else there. -/
def classMember : String := "__class__"

/-- Why no instance can be made: an output or the mount point is to stand in the place of
    its class. -/
def fault? (b : Blueprint) : Option Failure :=
  if b.outputs.contains classMember then some (.notClass "EventEmitter")
  else if b.host? = some classMember then some (.notClass "NoneType")
  else none

end Blueprint

inductive Factory where
  | make (blueprint : Blueprint)
  /-- Asking for an instance fails. -/
  | fails (failure : Failure)
  /-- A value of some type that cannot be asked for instances. -/
  | notCallable (typeName : String)
  /-- A handler of some type, which wants data when it is asked. -/
  | wantsData (typeName : String)

/-- A value in the place of a factory. -/
def Factory.ofValue (v : Json) : Factory :=
  match v with
  | .handler h => if h.callable then wantsData h.typeName else notCallable h.typeName
  | _ => notCallable v.typeName

def Factory.isCallable : Factory → Bool
  | notCallable _ => false
  | _ => true

end ViewTree.Live
