import ViewTree.Node
import ViewTree.Json.Write
import ViewTree.Telemetry.Journal

/-
  ViewTree.Wire — from the wire format to a node tree.

  A wire schema carries a version mark, an optional layout and a list of components.
  The layout becomes the root; each component becomes one node, and those below a
  component that is passed through become its children. A component the library has no
  counterpart for never fails the schema: a visible error node stands in for it and
  keeps the component.

  - `normalize`: any accepted value as a node tree; a value that is no wire schema is
    read as a node.
  - `standIns`: what the tree stands in for, with the positions that lead there.
  - `journal`: the records a normalization leaves.
-/

namespace ViewTree.Wire

/-- A wire schema has a version mark and a list of components. -/
def isWire : Json → Bool
  | .obj fields =>
    (Fields.given? "schemaVersion" fields).isSome &&
      match Fields.get? "components" fields with
      | some (.arr _) => true
      | _ => false
  | _ => false

/-! ## Layout -/

/-- Layouts that are a root type of their own. -/
def layoutTypes : List String := ["flexbox", "grid", "card"]

def defaultRoot : String := "container"

/-- The root type of a layout type, read in any case. -/
def rootType : Option Json → String
  | some (.str s) =>
    let kind := Text.lower s
    if layoutTypes.contains kind then kind else defaultRoot
  | _ => defaultRoot

/-- A field, or a value in its place when it is absent. -/
def getOr (key : String) (default : Json) (fields : Fields) : Json :=
  (fields.get? key).getD default

/-- The props a root takes from its layout. -/
def rootProps (type : String) (layout : Fields) : Fields :=
  if type = "flexbox" then
    ["direction", "gap", "padding", "alignItems", "justifyContent"].filterMap fun key =>
      (layout.given? key).map fun v => (key, v)
  else if type = "grid" then
    [("columns", getOr "columns" (.int 1) layout), ("gap", getOr "gap" (.int 16) layout)]
  else if type = "card" then [("title", getOr "title" (.str "") layout)]
  else
    [("maxWidth", getOr "maxWidth" (.int 1200) layout),
      ("variant", getOr "variant" (.str "default") layout)]

/-! ## Components -/

/-- What a component becomes. -/
inductive Kind where
  | heading
  | paragraph
  | divider
  /-- An input field of a certain type. -/
  | input (type : String)
  /-- A node of the component's own type with the component's fields as props. -/
  | passThrough (type : String)
deriving DecidableEq, Repr

def passThroughTypes : List String :=
  ["select", "checkbox", "radio", "textarea", "button", "card", "grid", "list"]

/-- The kind of a component type, read in any case. -/
def Kind.ofType? (wireType : String) : Option Kind :=
  let kind := Text.lower wireType
  if kind = "heading" then some .heading
  else if kind = "paragraph" then some .paragraph
  else if kind = "divider" then some .divider
  else if kind = "text-input" then some (.input "text")
  else if kind = "number-input" then some (.input "number")
  else if passThroughTypes.contains kind then some (.passThrough kind)
  else none

/-- Fields that describe the structure of a component rather than its props. -/
def structural : List String := ["type", "props", "components", "children", "events"]

/-- The fields of a component: those of its props, overruled by its own. -/
def propFields (component : Fields) : Fields :=
  let inner := match component.get? "props" with
    | some (.obj fields) => fields
    | _ => []
  Fields.merge inner (component.filter fun f => !structural.contains f.1)

/-- The props of an input field; optional ones without a value are left out. -/
def inputProps (component fields : Fields) (type : String) : Fields :=
  let identifier := match component.get? "id" with
    | some v => v
    | none => getOr "id" .null fields
  let props : Fields :=
    [("id", identifier), ("type", .str type), ("label", getOr "label" (.str "") fields),
      ("placeholder", getOr "placeholder" (.str "") fields),
      ("value", getOr "value" (.str "") fields),
      ("disabled", getOr "disabled" (.bool false) fields),
      ("required", getOr "required" (.bool false) fields),
      ("pattern", getOr "pattern" .null fields), ("error", getOr "error" .null fields)]
  props.filter fun f => !f.2.isNull

/-- The type and props of the node for a component of a known kind. -/
def Kind.target (kind : Kind) (component : Fields) : String × Fields :=
  let fields := propFields component
  let ariaLabel := ("ariaLabel", getOr "ariaLabel" (.str "") fields)
  match kind with
  | heading =>
    ("heading", [("text", getOr "text" (.str "") fields),
      ("level", getOr "level" (.int 2) fields), ariaLabel])
  | paragraph => ("paragraph", [("text", getOr "text" (.str "") fields), ariaLabel])
  | divider => ("divider", [ariaLabel])
  | input type => ("input", inputProps component fields type)
  | passThrough type => (type, fields)

/-- A node with the identifier and the events of a component. -/
def nodeOf (component : Fields) (target : String × Fields) (children : List Node) : Node where
  id := (component.given? "id").map Json.shown
  type := some target.1
  props := target.2
  children := children
  events := match component.get? "events" with
    | some (.obj events) => events
    | _ => []
  extras := []
  source := none

/-- What a component calls its type: for one that is no object, the component itself. -/
def calledType : Json → Json
  | .obj fields => (Fields.get? "type" fields).getD .null
  | v => v

/-- The error node that stands in for a component. -/
def standIn (component : Json) : Node where
  id := none
  type := some "error"
  props :=
    [("title", .str "Unsupported component"),
      ("message", .str ("Component type '" ++ (calledType component).shown ++
        "' is not supported yet.")),
      ("details", .str (component.encode 0)), ("dismissible", .bool false),
      ("visible", .bool true)]
  children := []
  events := []
  extras := []
  source := some component

/-- The kind of a component, if it is an object with a supported type. -/
def kindOf? (component : Fields) : Option Kind :=
  match component.get? "type" with
  | some (.str s) => Kind.ofType? s
  | _ => none

mutual
/-- The node for a component. -/
def expand : Json → Node
  | .obj fields =>
    let below := expandNested fields
    match kindOf? fields with
    | none => standIn (.obj fields)
    | some kind =>
      let children := match kind with
        | .passThrough _ => below
        | _ => []
      nodeOf fields (kind.target fields) children
  | v => standIn v

/-- The nodes for the components that the fields of a component name. -/
def expandNested : List (String × Json) → List Node
  | [] => []
  | (key, v) :: rest => if key = "components" then expandList v else expandNested rest

/-- The nodes for the items of a list; none for any other value. -/
def expandList : Json → List Node
  | .arr items => expandEach items
  | _ => []

def expandEach : List Json → List Node
  | [] => []
  | v :: rest => expand v :: expandEach rest
end

/-! ## Schemas -/

/-- The tree of a wire schema. -/
def tree (schema : Fields) : Node :=
  let layout := match schema.get? "layout" with
    | some (.obj fields) => fields
    | _ => []
  let type := rootType (layout.get? "type")
  { id := none, type := some type, props := rootProps type layout,
    children := expandList ((schema.get? "components").getD .null),
    events := [], extras := [], source := none }

/-- Any accepted value as a node tree. -/
def normalize (raw : Json) : Except Rejection Node :=
  match raw with
  | .obj fields => if isWire raw then .ok (tree fields) else Node.ofJson raw
  | _ => Node.ofJson raw

/-! ## Stand-ins and records -/

/-- A stand-in below a node: the positions that lead to it, and what it stands in for. -/
structure StandIn where
  path : List Nat
  component : Json

namespace StandIn

/-- The type the component gave, or what it is when it is no object. -/
def typeName (s : StandIn) : String :=
  match s.component with
  | .obj _ => (calledType s.component).shown
  | v => v.typeName

end StandIn

mutual
/-- The stand-ins of a tree, depth first. -/
def standIns : Node → List StandIn
  | ⟨_, _, _, children, _, _, source⟩ =>
    (match source with
      | some component => [⟨[], component⟩]
      | none => []) ++ standInsFrom 0 children

def standInsFrom (position : Nat) : List Node → List StandIn
  | [] => []
  | node :: rest =>
    (standIns node).map (fun s => { s with path := position :: s.path }) ++
      standInsFrom (position + 1) rest
end

def source : String := "genui.schema.normalizer"

/-- What normalizing a value reports. -/
def journal (raw : Json) : Telemetry.Journal :=
  match raw with
  | .obj fields =>
    if isWire raw then
      let root := tree fields
      (standIns root).map (fun s => Telemetry.Entry.warning source "unsupported_component"
        [("type", .str (calledType s.component).shown)]) ++
      [Telemetry.Entry.debug source "wire_schema_normalized"
        [("root", .str (root.type.getD "")), ("components", .int root.children.length),
          ("schema_version", (Fields.get? "schemaVersion" fields).getD .null)]]
    else []
  | _ => []

end ViewTree.Wire
