import ViewTree.Live.Instance

/-
  ViewTree.Live.Member — what a live instance has under a name.

  An instance has members of its own, which are its data and the operations on it, and
  it is given further ones: outputs, mount points, attributes. A given member may bear
  the name of one of its own and then stands in its place: data that is hidden in this
  way cannot be used, and an operation that is hidden cannot be carried out. Of several
  given members of one name the latest counts: an attribute hides the host the instance
  is mounted in, that hides what a container keeps, and that hides an output.

  Attributes are outside the domain under five names: a container knows the name of its
  mount point and tabs know their panels whatever hides them, and an attribute in the place
  of the inputs, the kept subscriptions or the count of refreshes is never used as one of
  these, not even where it could be. Of the names that the objects of a runtime have for
  purposes of its own only that of the class is known here.
-/

namespace ViewTree.Live

inductive Member where
  /-- There is a place for a member, and nothing in it. -/
  | vacant
  | output (e : EmitterId)
  | host (h : HostId)
  | value (v : Json)
  | inputs
  | tracked
  | panels
  | operation
  /-- Data that nothing can be mounted in, of some type. -/
  | scalar (typeName : String)
deriving DecidableEq

namespace Member

def typeName : Member → String
  | vacant => "NoneType"
  | output _ => "EventEmitter"
  | host _ => "ViewHost"
  | value v => v.typeName
  | inputs => "dict"
  | tracked => "list"
  | panels => "list"
  | operation => "function"
  | scalar typeName => typeName

def isVacant : Member → Bool
  | vacant => true
  | value v => v.isNull
  | _ => false

/-- Whether a member can be called. -/
def isCallable : Member → Bool
  | operation => true
  | value (.handler h) => h.callable
  | _ => false

/-- Why nothing comes of calling a member in the place of an operation: it cannot be
    called, or it is a handler, which wants data. -/
def callFault (m : Member) : Failure :=
  if m.isCallable then .wantsData m.typeName else .notCallable m.typeName

end Member

/-! ## Names -/

/-- The operations on an instance. -/
inductive Operation where
  | setInput
  | refresh
  | track
  | destroy
  | listPanels
deriving DecidableEq, Repr

def Operation.name : Operation → String
  | setInput => "set_input"
  | refresh => "detect_changes"
  | track => "track"
  | destroy => "destroy"
  | listPanels => "get_child_containers"

/-- The data of an instance. -/
inductive Datum where
  | componentType
  | inputs
  | host
  | checks
  | destroyed
  | tracked
  | outputs
deriving DecidableEq, Repr

def Datum.name : Datum → String
  | componentType => "component_type"
  | inputs => "inputs"
  | host => "host"
  | checks => "check_count"
  | destroyed => "destroyed"
  | tracked => "subscriptions"
  | outputs => "outputs"

/-- Under this name a container keeps the name of its mount point. -/
def hostNameMember : String := "content_host"

/-- Under this name tabs keep their panels. -/
def panelsMember : String := "panel_hosts"

/-! ## Members -/

namespace Instance

/-- Whether an instance has an operation. -/
def offers (x : Instance) : Operation → Bool
  | .refresh => true
  | .destroy => true
  | .listPanels => x.distributes
  | _ => !x.isBare

/-- The datum of an instance as a member; a bare instance only has its type. -/
def datum? (x : Instance) (d : Datum) : Option Member :=
  if x.isBare && d ≠ .componentType then none
  else
    some <| match d with
      | .componentType => .scalar "str"
      | .inputs => .inputs
      | .host => .vacant
      | .checks => .scalar "int"
      | .destroyed => .scalar "bool"
      | .tracked => .tracked
      | .outputs => .scalar "tuple"

/-- What a container keeps under a name: its panels, its mount point, the name of it. -/
def kept? (x : Instance) (name : String) : Option Member :=
  match x.blueprint.host? with
  | none => none
  | some hostName =>
    if x.isTabs && name = panelsMember then some .panels
    else if name = hostName then some ((x.content.map Member.host).getD .vacant)
    else if name = hostNameMember then some (.scalar "str")
    else none

/-- The member that an instance was given under a name. -/
def given? (x : Instance) (name : String) : Option Member :=
  ((Fields.get? name x.attributes).map Member.value).or <|
  (if name = Datum.host.name then x.host.map Member.host else none).or <|
  (x.kept? name).or <|
  (x.outputs.find? fun o => o.1 = name).map fun o => Member.output o.2

def operations : List Operation := [.setInput, .refresh, .track, .destroy, .listPanels]

def data : List Datum :=
  [.componentType, .inputs, .host, .checks, .destroyed, .tracked, .outputs]

/-- The member of its own that an instance has under a name. -/
def own? (x : Instance) (name : String) : Option Member :=
  ((data.find? fun d => d.name = name).bind x.datum?).or <|
  (operations.find? fun o => o.name = name && x.offers o).map fun _ => Member.operation

/-- What an instance has under a name, if it has such a member. -/
def member? (x : Instance) (name : String) : Option Member := (x.given? name).or (x.own? name)

/-- Why an operation cannot be carried out: something else stands in its place. -/
def blocked? (x : Instance) (o : Operation) : Option Failure :=
  (x.given? o.name).map Member.callFault

/-- Whether an operation can be carried out. -/
def can (x : Instance) (o : Operation) : Bool := x.offers o && (x.blocked? o).isNone

/-- What stands in the place of a datum. -/
def hidden? (x : Instance) (d : Datum) : Option Member := x.given? d.name

/-- Why a container cannot look for its mount point: there is nothing, and will be nothing,
    under the name that it keeps this name by. -/
def contentFault? (x : Instance) : Option Failure :=
  if x.blueprint.host? = some hostNameMember then some (.notName Member.vacant.typeName)
  else none

end Instance

end ViewTree.Live
