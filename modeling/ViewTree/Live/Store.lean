import ViewTree.Live.Member

/-
  ViewTree.Live.Store — live instances, the hosts they are mounted in, and the
  subscriptions to their outputs.

  Everything has a number: the store keeps instances, hosts, emitters and subscriptions
  in lists and refers to them by position. Nothing is ever dropped from these lists; an
  instance that is destroyed stays as a destroyed one.

  - An emitter calls its listeners in the order in which they subscribed. Ending a
    subscription takes out the first listener equal to its callback, and ending it again
    does nothing.
  - A host holds instances in order. Clearing it destroys them, and destroying an
    instance clears the hosts it offers and ends the subscriptions it tracks.
  - An attempt may fail, and keeps what it had done until then.
-/

namespace ViewTree.Live

structure Store where
  emitters : List Emitter
  subscriptions : List Subscription
  hosts : List Host
  instances : List Instance

namespace Store

def empty : Store := ⟨[], [], [], []⟩

/-! ## Emitters and subscriptions -/

def newEmitter (s : Store) (name : String) : EmitterId × Store :=
  (s.emitters.length, { s with emitters := s.emitters ++ [⟨name, []⟩] })

def listeners (s : Store) (e : EmitterId) : List Callback :=
  ((s.emitters[e]?).map Emitter.listeners).getD []

def observers (s : Store) (e : EmitterId) : Nat := (s.listeners e).length

def subscribe (s : Store) (e : EmitterId) (callback : Callback) : SubscriptionId × Store :=
  (s.subscriptions.length,
    { s with
      emitters := s.emitters.modify e fun x => { x with listeners := x.listeners ++ [callback] }
      subscriptions := s.subscriptions ++ [⟨e, callback, false⟩] })

def unsubscribe (s : Store) (id : SubscriptionId) : Store :=
  match s.subscriptions[id]? with
  | none => s
  | some sub =>
    if sub.closed then s
    else
      { s with
        emitters := s.emitters.modify sub.emitter fun x =>
          { x with listeners := x.listeners.erase sub.callback }
        subscriptions := s.subscriptions.modify id fun x => { x with closed := true } }

/-- The open subscriptions to an emitter. -/
def openOn (s : Store) (e : EmitterId) : List Subscription :=
  s.subscriptions.filter fun sub => sub.emitter = e && !sub.closed

/-! ## Hosts and instances -/

def newHost (s : Store) (name : String) : HostId × Store :=
  (s.hosts.length, { s with hosts := s.hosts ++ [⟨name, []⟩] })

def mounted (s : Store) (h : HostId) : List InstanceId :=
  ((s.hosts[h]?).map Host.instances).getD []

def hostName (s : Store) (h : HostId) : String := ((s.hosts[h]?).map Host.name).getD ""

def updateInstance (s : Store) (i : InstanceId) (f : Instance → Instance) : Store :=
  { s with instances := s.instances.modify i f }

def putOutput (name : String) (e : EmitterId) :
    List (String × EmitterId) → List (String × EmitterId)
  | [] => [(name, e)]
  | (k, x) :: rest => if k = name then (k, e) :: rest else (k, x) :: putOutput name e rest

/-- One emitter for each name; a name that comes again gets a new one. -/
def newOutputs (s : Store) : List String → List (String × EmitterId) × Store
  | names => names.foldl (fun (outputs, s) name =>
      let (e, s) := newEmitter s name
      (putOutput name e outputs, s)) ([], s)

/-- A new instance that is mounted nowhere. What a container keeps comes after its
    outputs and takes the place of those of the same names. -/
def spawn (s : Store) (b : Blueprint) : InstanceId × Store :=
  let fresh := Instance.fresh b
  let (outputs, s) := s.newOutputs (b.outputs.filter fun name => (fresh.kept? name).isNone)
  (s.instances.length, { s with instances := s.instances ++ [{ fresh with outputs := outputs }] })

def make (s : Store) : Factory → Except Failure (InstanceId × Store)
  | .make b =>
    match b.fault? with
    | some f => .error f
    | none => .ok (s.spawn b)
  | .fails failure => .error failure
  | .notCallable typeName => .error (.notCallable typeName)
  | .wantsData typeName => .error (.wantsData typeName)

def dropOutput (name : String) (x : Instance) : Instance :=
  { x with outputs := x.outputs.filter fun o => o.1 ≠ name }

/-- A new instance at the end of a host, which it knows from then on. -/
def create (s : Store) (h : HostId) (factory : Factory) : Except Failure (InstanceId × Store) :=
  match s.make factory with
  | .error f => .error f
  | .ok (i, s) =>
    let s := s.updateInstance i fun x => { dropOutput Datum.host.name x with host := some h }
    let hosts := s.hosts.modify h fun x => { x with instances := x.instances ++ [i] }
    .ok (i, { s with hosts := hosts })

/-! ## Attempts -/

/-- A changed store, and the failure that kept it from changing further. -/
abbrev Attempt := Store × Except Failure Unit

/-- Attempts one after another, up to the first that fails. -/
def attemptAll {α : Type} (step : Store → α → Attempt) : Store → List α → Attempt
  | s, [] => (s, .ok ())
  | s, a :: rest =>
    match step s a with
    | (s, .error f) => (s, .error f)
    | (s, .ok ()) => attemptAll step s rest

/-- One attempt after another. -/
def andThen (first : Attempt) (next : Store → Attempt) : Attempt :=
  match first with
  | (s, .error f) => (s, .error f)
  | (s, .ok ()) => next s

/-- An instance has an operation, and it can be carried out. -/
def demand (s : Store) (i : InstanceId) (o : Operation) : Except Failure Unit :=
  match s.instances[i]? with
  | none => .ok ()
  | some x =>
    match x.blocked? o with
    | some f => .error f
    | none => if x.offers o then .ok () else .error (.noAttribute x.blueprint.className o.name)

/-! ## Inputs and attributes -/

def setInput (s : Store) (i : InstanceId) (name : String) (value : Json) :
    Except Failure Store :=
  match s.instances[i]? with
  | none => .ok s
  | some x =>
    match x.blueprint.hooks.input x.own name value with
    | some f => .error f
    | none =>
      match x.hidden? .inputs with
      | some m => .error (.notAssignable m.typeName)
      | none =>
        .ok (s.updateInstance i fun x => { x with inputs := Fields.put name value x.inputs })

/-- Sets an attribute, which takes the place of an output of its name. -/
def setAttribute (s : Store) (i : InstanceId) (name : String) (value : Json) : Store :=
  s.updateInstance i fun x =>
    { dropOutput name x with attributes := Fields.put name value x.attributes }

/-- Gives an attribute to an instance; its class is not given away. -/
def giveAttribute (s : Store) (i : InstanceId) (name : String) (value : Json) :
    Except Failure Store :=
  if name = Blueprint.classMember then .error (.notClass value.typeName)
  else .ok (s.setAttribute i name value)

/-- Whether an operation on an instance can be carried out. -/
def can (s : Store) (i : InstanceId) (o : Operation) : Bool := (s.instances[i]?).any (·.can o)

/-- Keeps a subscription to be ended with the instance. -/
def track (s : Store) (i : InstanceId) (id : SubscriptionId) : Except Failure Store :=
  match (s.instances[i]?).bind (·.hidden? .tracked) with
  | some m => .error (.noAttribute m.typeName "append")
  | none => .ok (s.updateInstance i fun x => { x with tracked := x.tracked ++ [id] })

/-! ## Members -/

def member? (s : Store) (i : InstanceId) (name : String) : Option Member :=
  (s.instances[i]?).bind (·.member? name)

/-- The emitter of an event of an instance. -/
def output? (s : Store) (i : InstanceId) (event : String) : Option EmitterId :=
  match s.member? i event with
  | some (.output e) => some e
  | _ => none

/-- The emitter of an event for one of its uses, or why there is none. -/
def outputFor (s : Store) (i : InstanceId) (event use : String) : Except Failure EmitterId :=
  match s.member? i event with
  | some (.output e) => .ok e
  | some m => .error (.noAttribute m.typeName use)
  | none =>
    let className := ((s.instances[i]?).map fun x => x.blueprint.className).getD ""
    .error (.noAttribute className event)

/-- Where children can be put: the member of a name, unless there is nothing in it. -/
def mount? (s : Store) (i : InstanceId) (name : String) : Option Member :=
  (s.member? i name).filter (!·.isVacant)

/-- Why the list of mount points cannot be asked for: something that wants data stands in
    its place. -/
def panelsFault? (s : Store) (i : InstanceId) : Option Failure :=
  ((s.instances[i]?).bind fun x => x.given? Operation.listPanels.name).bind fun m =>
    if m.isCallable then some m.callFault else none

/-- The mount points of an instance that offers a list of them. -/
def childPanels? (s : Store) (i : InstanceId) : Option (List HostId) :=
  match s.instances[i]? with
  | none => none
  | some x => if x.can .listPanels then some x.panels else none

/-! ## Destruction -/

def emptyHost (s : Store) (h : HostId) : Store :=
  { s with hosts := s.hosts.modify h fun x => { x with instances := [] } }

/-- Empties what stands in the place of a host under a name, if it can be emptied. -/
def emptyMember (s : Store) (i : InstanceId) (name : String) : Member → Attempt
  | .inputs => (s.updateInstance i fun x => { x with inputs := [] }, .ok ())
  | .tracked => (s.updateInstance i fun x => { x with tracked := [] }, .ok ())
  | .panels => (s.updateInstance i fun x => { x with panels := [] }, .ok ())
  | .value (.arr _) => (s.setAttribute i name (.arr []), .ok ())
  | .value (.obj _) => (s.setAttribute i name (.obj []), .ok ())
  | m => (s, .error (.noAttribute m.typeName "clear"))

/-- Destroys the instances of a host in order and empties it. -/
def clearBy (destroy : Store → InstanceId → Attempt) (s : Store) (h : HostId) : Attempt :=
  andThen (attemptAll destroy s (s.mounted h)) fun s => (s.emptyHost h, .ok ())

/-- Clears a mount point of an instance, or what stands in its place. -/
def clearMemberBy (clear : Store → HostId → Attempt) (s : Store) (i : InstanceId)
    (name : String) : Member → Attempt
  | .host h => clear s h
  | m => s.emptyMember i name m

/-- Clears what an instance offers: the panels of tabs, then the content host. -/
def clearOffered (clear : Store → HostId → Attempt) (s : Store) (i : InstanceId) (x : Instance) :
    Attempt :=
  andThen (attemptAll clear s (if x.isTabs then x.panels else [])) fun s =>
    match x.blueprint.host?, x.contentFault? with
    | none, _ => (s, .ok ())
    | some _, some f => (s, .error f)
    | some name, none =>
      match s.mount? i name with
      | none => (s, .ok ())
      | some m => clearMemberBy clear s i name m

/-- An instance that is marked as destroyed; what stood in the place of the mark gives way. -/
def marked (x : Instance) : Instance :=
  match x.hidden? .destroyed with
  | none => { x with destroyed := true }
  | some _ =>
    { dropOutput Datum.destroyed.name x with
      destroyed := true
      attributes := Fields.put Datum.destroyed.name (.bool true) x.attributes }

/-- Ends the subscriptions an instance keeps and marks it as destroyed. -/
def release (s : Store) (i : InstanceId) (x : Instance) : Attempt :=
  match x.hidden? .tracked with
  | some m =>
    if x.isBare then (s.updateInstance i marked, .ok ())
    else (s, .error (.notIterable m.typeName))
  | none =>
    let s := x.tracked.foldl unsubscribe s
    (s.updateInstance i fun x => marked { x with tracked := [] }, .ok ())

/-- Destroys an instance and everything mounted below it, down to a depth. -/
def destroyTo : Nat → Store → InstanceId → Attempt
  | 0, s, _ => (s, .error .endless)
  | depth + 1, s, i =>
    match s.instances[i]? with
    | none => (s, .ok ())
    | some x =>
      match x.blocked? .destroy with
      | some f => (s, .error f)
      | none =>
        andThen (clearOffered (clearBy (destroyTo depth)) s i x) fun s => s.release i x

/-- Instances nest no deeper than there are instances, unless one is mounted in itself. -/
def destroy (s : Store) (i : InstanceId) : Attempt := destroyTo (s.instances.length + 1) s i

/-- Destroys the instances of a host in order and empties it. -/
def clear (s : Store) (h : HostId) : Attempt := clearBy destroy s h

/-- Clears the member of a name. -/
def clearMember (s : Store) (i : InstanceId) (name : String) (m : Member) : Attempt :=
  clearMemberBy clear s i name m

/-! ## Events -/

/-- Delivers an event through at most `depth` emitters one behind the other. -/
def deliver (s : Store) (data : Json) : Nat → EmitterId → Delivery
  | 0, _ => ([], some .endless)
  | depth + 1, e =>
    fireAll (fun c => match c with
      | .relay next => deliver s data depth next
      | c => fireHandler data c) (s.listeners e)

/-- Emits an event. Relays that form no circle pass each emitter at most once. -/
def emit (s : Store) (e : EmitterId) (data : Json) : Delivery :=
  s.deliver data (s.emitters.length + 1) e

end Store

end ViewTree.Live
