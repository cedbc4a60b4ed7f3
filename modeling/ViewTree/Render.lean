import ViewTree.Check
import ViewTree.Live.World
import ViewTree.Settings

/-
  ViewTree.Render — live instances for a node tree.

  Rendering a node creates one instance, sets its props as inputs, subscribes its event
  handlers, refreshes it, renders its children into its mount points and refreshes it
  again. Whatever goes wrong is recorded on the result of the node where it happened;
  rendering itself never fails, so a bad subtree leaves its neighbours alone.

  Children go into the content host of a container, or one per panel where the instance
  offers panels. A child without a place is a warning on the parent.

  - `render`: a node as a child of a host, with a record of the pass.
  - `mount`: the same in a host that is cleared first.
  - `replaceWith`, `replaceChildren`: new children for a live container.
-/

namespace ViewTree

open Live Telemetry

/-- What became of one node. -/
structure RenderResult where
  component : Option InstanceId
  schema : Option Node
  error : Option String
  children : List RenderResult
  warnings : List String

namespace RenderResult

/-- A node that has no instance. -/
def failed (schema : Option Node) (error : String) : RenderResult :=
  ⟨none, schema, some error, [], []⟩

mutual
/-- The errors of a result and of everything below it, depth first. -/
def errors : RenderResult → List String
  | ⟨_, _, error, children, _⟩ => error.toList ++ errorsOf children

def errorsOf : List RenderResult → List String
  | [] => []
  | r :: rest => errors r ++ errorsOf rest
end

def childComponents (r : RenderResult) : List InstanceId := r.children.filterMap component

def ok (r : RenderResult) : Bool := r.error.isNone

/-- How a render pass counts. -/
def status (r : RenderResult) : String :=
  if r.error.isSome then "error" else if r.errors.isEmpty then "success" else "partial"

end RenderResult

namespace Render

def source : String := "genui.rendering.renderer"

/-- What rendering consults and never changes. -/
structure Context where
  registry : Registry
  settings : Settings

def typeJson (type : Option String) : Json := (type.map Json.str).getD .null

/-! ## Instances -/

/-- Why a node has no instance. -/
inductive RenderFault where
  | noType
  | noHost (type : String)
  | unregistered (type : String)
  | notCreated (type : String) (failure : Failure)
deriving DecidableEq

def RenderFault.message : RenderFault → String
  | .noType => "Schema missing type property"
  | .noHost type => "No mount target for component '" ++ type ++ "'"
  | .unregistered type => "Component type '" ++ type ++ "' not registered"
  | .notCreated type failure =>
    "Failed to create component '" ++ type ++ "': " ++ failure.message

/-- Whether a node asks for another renderer version than this one. -/
def mismatched (settings : Settings) (version : Json) : Bool :=
  version.truthy && version ≠ .str settings.rendererVersion

/-- Reports the first node that asks for another renderer version. -/
def checkVersion (c : Context) (node : Node) : Act Unit := do
  let version := node.rendererVersion
  if mismatched c.settings version && !(← get).versionWarned then
    modify fun w => { w with versionWarned := true }
    Act.note [.warning source "renderer_version_mismatch"
      [("schema_version", version), ("renderer_version", .str c.settings.rendererVersion)]]

/-- A new instance in a mount point; what only stands in a host's place creates nothing. -/
def createIn (factory : Factory) : Member → Act (Except Failure InstanceId)
  | .host h => Act.attempt fun s => s.create h factory
  | m => return .error (.noAttribute m.typeName "create_component")

/-- The instance of a node. -/
def instantiate (c : Context) (node : Node) (target : Option Member) :
    Act (Except RenderFault InstanceId) := do
  match node.type.filter (· ≠ "") with
  | none => return .error .noType
  | some type =>
    match target with
    | none => return .error (.noHost type)
    | some place =>
      match c.registry.get? type with
      | none => return .error (.unregistered type)
      | some entry =>
        checkVersion c node
        match ← createIn entry.factory place with
        | .error failure => return .error (.notCreated type failure)
        | .ok i => return .ok i

/-- Sets props one after another, up to the first that is refused: as inputs, or as
    attributes where there are no inputs to set. -/
def bindProps (i : InstanceId) (asInputs : Bool) : Fields → Act (Except Failure Unit)
  | [] => return .ok ()
  | (name, value) :: rest => do
    let set (s : Store) : Except Failure Store :=
      if asInputs then s.setInput i name value else s.giveAttribute i name value
    match ← Act.change set with
    | .error failure => return .error failure
    | .ok () => bindProps i asInputs rest

/-- Subscribes a callback to an output; the instance keeps the subscription if it can. -/
def listen (i : InstanceId) (e : EmitterId) (callback : Callback) :
    Act (Except Failure Unit) := do
  let subscription ← Act.update (·.subscribe e callback)
  if ← Act.ofStore (·.can i .track) then Act.change (·.track i subscription)
  else return .ok ()

/-- Subscribes the handlers of a node, up to the first subscription that fails; the
    warnings name the handlers that found no place. -/
def bindEvents (i : InstanceId) (type : String) : Fields → Act (List String × Except Failure Unit)
  | [] => return ([], .ok ())
  | (event, handler) :: rest => do
    match Callback.ofBinding? handler with
    | none =>
      Act.note [.warning source "event_handler_unbindable"
        [("type", .str type), ("event_name", .str event)]]
      let (more, outcome) ← bindEvents i type rest
      let warning := "Handler for '" ++ event ++ "' on '" ++ type ++ "' is not callable"
      return (warning :: more, outcome)
    | some callback =>
      match ← Act.ofStore (·.output? i event) with
      | none =>
        Act.note [.warning source "event_output_missing"
          [("type", .str type), ("event_name", .str event)]]
        let (more, outcome) ← bindEvents i type rest
        return (("Component '" ++ type ++ "' has no '" ++ event ++ "' output") :: more, outcome)
      | some e =>
        match ← listen i e callback with
        | .error failure => return ([], .error failure)
        | .ok () => bindEvents i type rest

/-! ## Places for children -/

/-- Where the children of an instance go. -/
inductive Places where
  | nowhere
  | together (place : Member)
  | onePerPanel (panels : List HostId)
deriving DecidableEq

/-- The panels of an instance, refreshed once more if it shows none yet. -/
def panelsOf (i : InstanceId) : Act (Except Failure (List HostId)) := do
  match ← Act.ofStore (·.panelsFault? i) with
  | some failure => return .error failure
  | none =>
    match ← Act.ofStore (·.childPanels? i) with
    | none => return .ok []
    | some [] =>
      match ← Act.refresh i with
      | .error failure => return .error failure
      | .ok () => return .ok (← Act.ofStore fun s => (s.childPanels? i).getD [])
    | some panels => return .ok panels

/-- The places for children of an instance of a type. -/
def placesOf (c : Context) (i : InstanceId) (type : String) : Act (Except Failure Places) := do
  match c.registry.capability? type with
  | none => return .ok .nowhere
  | some capability =>
    if !capability.isContainer then return .ok .nowhere
    else
      match ← panelsOf i with
      | .error failure => return .error failure
      | .ok [] =>
        match ← Act.ofStore (·.mount? i capability.hostProperty) with
        | none => return .ok .nowhere
        | some place => return .ok (.together place)
      | .ok panels => return .ok (.onePerPanel panels)

/-! ## Nodes -/

/-- The result of a node whose rendering failed after its instance was created. -/
def abandoned (node : Node) (i : InstanceId) (children : List RenderResult)
    (warnings : List String) (failure : Failure) : Act RenderResult := do
  Act.note [.error source "render_failed"
    [("type", typeJson node.type), ("error", .str failure.message),
      ("exc_type", .str failure.kind)]]
  return { component := some i, schema := some node,
           error := some ("Failed to render component '" ++ node.type.getD "" ++ "': " ++
             failure.message),
           children := children, warnings := warnings }

/-- A child that is not valid, where children are validated. -/
def refuse (c : Context) (child : Node) : Act (Option RenderResult) := do
  if !c.settings.validateChildren then return none
  else
    let problems := Check.validate c.registry child
    Act.note (Check.journal c.registry child)
    if problems.isEmpty then return none
    else
      Act.note [.measure (.failedNode child.type),
        .warning source "child_validation_failed"
          [("type", typeJson child.type),
            ("errors", .arr (problems.map fun p => .str p.message))]]
      return some (.failed (some child) (Check.summary problems))

/-- What comes of a fresh instance once its children are rendered. -/
def finish (node : Node) (i : InstanceId) (children : List RenderResult)
    (warnings : List String) : Act RenderResult := do
  match ← Act.refresh i with
  | .error failure => abandoned node i children warnings failure
  | .ok () =>
    return { component := some i, schema := some node, error := none, children := children,
             warnings := warnings }

/-- Prepares a fresh instance up to the point where children can be rendered. -/
def prepare (node : Node) (i : InstanceId) : Act (List String × Except Failure Unit) := do
  let asInputs ← Act.ofStore (·.can i .setInput)
  match ← bindProps i asInputs node.props with
  | .error failure => return ([], .error failure)
  | .ok () =>
    match ← bindEvents i (node.type.getD "") node.events with
    | (warnings, .error failure) => return (warnings, .error failure)
    | (warnings, .ok ()) => return (warnings, ← Act.refresh i)

/-- A warning about children that cannot be put anywhere. -/
def homeless (type : String) (count : Nat) : Act String := do
  Act.note [.warning source "children_not_rendered"
    [("type", .str type), ("children", .int count)]]
  return "Component '" ++ type ++ "' cannot host children; " ++ toString count ++ " not rendered"

/-- A warning about a child beyond the last panel. -/
def unplaced (type : String) (index panels : Nat) : Act String := do
  Act.note [.warning source "child_container_missing"
    [("type", .str type), ("index", .int index), ("containers", .int panels)]]
  return "Child " ++ toString index ++ " of '" ++ type ++ "' has no container"

/-- Renders a child unless it is refused. -/
def unlessRefused (c : Context) (child : Node) (run : Act RenderResult) : Act RenderResult := do
  match ← refuse c child with
  | some result => return result
  | none => run

mutual
/-- Renders a node and everything below it. -/
def renderNode (c : Context) (target : Option Member) : Node → Act RenderResult
  | ⟨id, type, props, children, events, extras, component⟩ => do
    let node : Node := ⟨id, type, props, children, events, extras, component⟩
    match ← instantiate c node target with
    | .error fault =>
      Act.note [.error source "render_failed"
        [("type", typeJson type), ("error", .str fault.message)]]
      return .failed (some node) fault.message
    | .ok i =>
      match ← prepare node i with
      | (warnings, .error failure) => abandoned node i [] warnings failure
      | (warnings, .ok ()) =>
        if children.isEmpty then finish node i [] warnings
        else
          match ← placesOf c i (type.getD "") with
          | .error failure => abandoned node i [] warnings failure
          | .ok .nowhere =>
            let warning ← homeless (type.getD "") children.length
            finish node i [] (warnings ++ [warning])
          | .ok (.together place) =>
            let results ← renderTogether c place children
            finish node i results warnings
          | .ok (.onePerPanel panels) =>
            let (results, more) ← renderApart c (type.getD "") panels 0 children
            finish node i results (warnings ++ more)

/-- Children in one place. -/
def renderTogether (c : Context) (place : Member) : List Node → Act (List RenderResult)
  | [] => return []
  | child :: rest => do
    let result ← unlessRefused c child (renderNode c (some place) child)
    return result :: (← renderTogether c place rest)

/-- Children in panels of their own, from a position on, with the warnings about those
    beyond the last panel. -/
def renderApart (c : Context) (type : String) (panels : List HostId) (index : Nat) :
    List Node → Act (List RenderResult × List String)
  | [] => return ([], [])
  | child :: rest => do
    match panels[index]? with
    | some h =>
      let result ← unlessRefused c child (renderNode c (some (.host h)) child)
      let (results, warnings) ← renderApart c type panels (index + 1) rest
      return (result :: results, warnings)
    | none =>
      let warning ← unplaced type index panels.length
      let (results, warnings) ← renderApart c type panels (index + 1) rest
      return (results, warning :: warnings)
end

def renderChild (c : Context) (place : Member) (child : Node) : Act RenderResult :=
  unlessRefused c child (renderNode c (some place) child)

/-! ## Render passes -/

/-- A value that is no node. -/
def rejected (rejection : Rejection) : Act RenderResult := do
  Act.note [.error source "render_node_rejected"
    [("errors", .int rejection.faults.length), ("error", .str rejection.text)]]
  return .failed none ("Invalid schema node: " ++ rejection.text)

/-- Renders a node into a host, or finds that there is none. -/
def render (c : Context) (node : Node) (host : Option HostId) : Act RenderResult := do
  let context : Fields := [("type", typeJson node.type)]
  Act.note [Span.opened "render" context]
  let result ← renderNode c (host.map .host) node
  Act.note [Span.closed "render" context [("errors", .int result.errors.length)],
    .measure (.render result.status none)]
  return result

/-- Renders the node in a value. -/
def renderValue (c : Context) (v : Json) (host : Option HostId) : Act RenderResult := do
  match Node.ofJson v with
  | .ok node => render c node host
  | .error rejection =>
    let result ← rejected rejection
    Act.note [.measure (.render result.status none)]
    return result

def clearHost (host : Option HostId) : Act (Except Failure Unit) :=
  match host with
  | none => return .ok ()
  | some h => Act.perform (·.clear h)

/-- Clears a host and renders a node into it, unless it cannot be cleared. -/
def mount (c : Context) (node : Node) (host : Option HostId) :
    Act (Except Failure RenderResult) := do
  match ← clearHost host with
  | .error failure => return .error failure
  | .ok () => return .ok (← render c node host)

def mountValue (c : Context) (v : Json) (host : Option HostId) :
    Act (Except Failure RenderResult) := do
  match ← clearHost host with
  | .error failure => return .error failure
  | .ok () => return .ok (← renderValue c v host)

/-! ## New children for a live container -/

/-- The mount point of an instance, refreshed once if it shows none yet. -/
def findMount (i : InstanceId) (name : String) : Act (Except Failure (Option Member)) := do
  match ← Act.ofStore (·.mount? i name) with
  | some place => return .ok (some place)
  | none =>
    match ← Act.refresh i with
    | .error failure => return .error failure
    | .ok () => return .ok (← Act.ofStore (·.mount? i name))

/-- A child as it is given: a value, or a node that was read before. -/
inductive Given where
  | value (v : Json)
  | node (n : Node)

/-- Renders a given child in a place; a value that is no node has no instance. -/
def renderGiven (c : Context) (place : Member) : Given → Act RenderResult
  | .value v =>
    match Node.ofJson v with
    | .error rejection => rejected rejection
    | .ok node => renderChild c place node
  | .node n => renderChild c place n

/-- Renders given children in one place. -/
def renderAll (c : Context) (place : Member) : List Given → Act (List RenderResult)
  | [] => return []
  | child :: rest => do
    let result ← renderGiven c place child
    return result :: (← renderAll c place rest)

/-- Renders the new children of a live instance, which is refreshed behind them. -/
def refill (c : Context) (i : InstanceId) (place : Member) (type : String)
    (children : List Given) : Act (Except Failure (List RenderResult)) := do
  let results ← renderAll c place children
  match ← Act.refresh i with
  | .error failure => return .error failure
  | .ok () =>
    Act.note [.debug source "children_replaced"
      [("type", .str type), ("count", .int results.length)]]
    return .ok results

/-- Replaces the children of a live instance of a container type by those that are given;
    what cannot be gone through for children is only found once the old ones are gone. -/
def replaceWith (c : Context) (i : InstanceId) (type : String)
    (children : Except Failure (List Given)) : Act (Except Failure (List RenderResult)) := do
  match (c.registry.capability? type).filter Capability.isContainer with
  | none =>
    Act.note [.warning source "replace_children_not_container" [("type", .str type)]]
    return .ok []
  | some capability =>
    match ← findMount i capability.hostProperty with
    | .error failure => return .error failure
    | .ok none =>
      Act.note [.warning source "replace_children_no_host"
        [("type", .str type), ("host", .str capability.hostProperty)]]
      return .ok []
    | .ok (some place) =>
      match ← Act.perform (fun s => s.clearMember i capability.hostProperty place) with
      | .error failure => return .error failure
      | .ok () =>
        match children with
        | .error failure => return .error failure
        | .ok given => refill c i place type given

/-- Replaces the children of a live instance by the nodes in a value. -/
def replaceChildren (c : Context) (i : InstanceId) (type : String) (children : Json) :
    Act (Except Failure (List RenderResult)) :=
  replaceWith c i type <|
    match children.iterate? with
    | none => .error (.notIterable children.typeName)
    | some values => .ok (values.map .value)

end Render

end ViewTree
