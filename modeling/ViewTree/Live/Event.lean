import ViewTree.Json.Basic
import ViewTree.Live.Failure

/-
  ViewTree.Live.Event — what happens to an event that listeners receive.

  A listener is a callback: a handler taken by one of its three ways, or a relay to
  another emitter. Callbacks fire in order, and the first failure ends the delivery.
-/

namespace ViewTree.Live

abbrev EmitterId := Nat

/-- What a listener does with an event. -/
inductive Callback where
  | call (h : Handler)
  | next (h : Handler)
  | emit (h : Handler)
  /-- Passes the event on to another emitter. -/
  | relay (emitter : EmitterId)
deriving DecidableEq, Repr

/-- The callback of a handler: a call before `next`, and `next` before `emit`. -/
def Callback.ofHandler? (h : Handler) : Option Callback :=
  if h.callable then some (.call h)
  else if h.next then some (.next h)
  else if h.emit then some (.emit h)
  else none

/-- The callback of an event binding; data is no handler. -/
def Callback.ofBinding? : Json → Option Callback
  | .handler h => ofHandler? h
  | _ => none

/-! ## Deliveries -/

/-- A handler took note of an event. -/
structure Call where
  handler : String
  method : String
  data : Json
deriving DecidableEq

/-- The calls made so far, and the failure that ended them. -/
abbrev Delivery := List Call × Option Failure

/-- Fires callbacks in order, up to the first failure. -/
def fireAll (fire : Callback → Delivery) : List Callback → Delivery
  | [] => ([], none)
  | c :: rest =>
    match fire c with
    | (calls, some f) => (calls, some f)
    | (calls, none) =>
      let (more, failure) := fireAll fire rest
      (calls ++ more, failure)

/-- What a handler does with an event. -/
def fireHandler (data : Json) : Callback → Delivery
  | .call h =>
    if h.callable then
      ([⟨h.name, "call", data⟩], if h.fails then some (.handlerFails h.name) else none)
    else ([], some (.notCallable h.typeName))
  | .next h => ([⟨h.name, "next", data⟩], none)
  | .emit h => ([⟨h.name, "emit", data⟩], none)
  | .relay _ => ([], none)

end ViewTree.Live
