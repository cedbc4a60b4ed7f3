import ViewTree.Live.Blueprint
import ViewTree.Live.Event

/-
  ViewTree.Live.Instance — live instances and the hosts they are mounted in.

  Emitters, subscriptions, hosts and instances are referred to by number. An instance
  carries what was set on it, the subscriptions it keeps, and the hosts it offers.
-/

namespace ViewTree.Live

abbrev SubscriptionId := Nat
abbrev HostId := Nat
abbrev InstanceId := Nat

structure Emitter where
  name : String
  listeners : List Callback
deriving DecidableEq, Repr

structure Subscription where
  emitter : EmitterId
  callback : Callback
  closed : Bool
deriving DecidableEq, Repr

structure Host where
  name : String
  instances : List InstanceId
deriving DecidableEq, Repr

structure Instance where
  blueprint : Blueprint
  /-- The inputs that were set. -/
  inputs : Fields
  /-- The attributes that were set, where there are no inputs to set. -/
  attributes : Fields
  /-- The host it was created in. -/
  host : Option HostId
  /-- How often it was refreshed. -/
  checks : Nat
  destroyed : Bool
  /-- The subscriptions it ends when it is destroyed. -/
  tracked : List SubscriptionId
  outputs : List (String × EmitterId)
  content : Option HostId
  panels : List HostId

namespace Instance

/-- Nothing set and nothing offered. -/
def fresh (b : Blueprint) : Instance :=
  { blueprint := b, inputs := [], attributes := [], host := none, checks := 0, destroyed := false,
    tracked := [], outputs := [], content := none, panels := [] }

/-- What the class of an instance goes by. -/
def own (x : Instance) : Own := ⟨x.inputs, x.attributes, x.checks, x.destroyed⟩

def isBare (x : Instance) : Bool :=
  match x.blueprint.shape with
  | .bare => true
  | _ => false

/-- Whether an instance offers a list of mount points, one per child. -/
def distributes (x : Instance) : Bool :=
  match x.blueprint.shape with
  | .tabs _ => true
  | .spread _ _ _ => true
  | _ => false

/-- Whether an instance is tabs. -/
def isTabs (x : Instance) : Bool :=
  match x.blueprint.shape with
  | .tabs _ => true
  | _ => false

end Instance

end ViewTree.Live
