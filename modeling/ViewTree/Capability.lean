import ViewTree.Field
import ViewTree.Json.Shown

/-
  ViewTree.Capability — the contract of a component type.

  A capability names its props with what each of them may be, the events it emits, and
  whether it takes children and where. It is read from an object with camelCase keys;
  the same keys in snake_case are understood where the camelCase one is absent. Keys
  that mean nothing are kept.
-/

namespace ViewTree

inductive Category where
  | form
  | layout
  | dataDisplay
  | navigation
  | typography
  | error
deriving DecidableEq, Repr

namespace Category

def name : Category → String
  | form => "form"
  | layout => "layout"
  | dataDisplay => "data-display"
  | navigation => "navigation"
  | typography => "typography"
  | error => "error"

def all : List Category := [form, layout, dataDisplay, navigation, typography, error]

def ofName? (s : String) : Option Category := all.find? fun c => c.name = s

/-- The category a value names. -/
def ofValue? : Json → Option Category
  | .str s => ofName? s
  | _ => none

/-- What is said about a value that names no category. -/
def unknownMessage (v : Json) : String := v.quotedText ++ " is not a valid ComponentCategory"

def read : Json → Checked Category
  | .str s =>
    match ofName? s with
    | some c => .ok c
    | none => Field.fail (.notOneOf (all.map name))
  | _ => Field.fail (.notOneOf (all.map name))

end Category

/-- The kinds a prop may have, as declared. -/
inductive PropType where
  | one (kind : String)
  | several (kinds : List String)
deriving DecidableEq, Repr

structure PropSpec where
  type : Option PropType
  enum : Option (List Json)
  required : Bool
  default : Json
  description : String
  extras : Fields

namespace PropSpec

/-- A prop of which nothing is demanded. -/
def free : PropSpec := ⟨none, none, false, .null, "", []⟩

def ofKind (kind : String) : PropSpec := { free with type := some (.one kind) }
def ofKinds (kinds : List String) : PropSpec := { free with type := some (.several kinds) }

def oneOf (spec : PropSpec) (choices : List String) : PropSpec :=
  { spec with enum := some (choices.map .str) }

def defaultsTo (spec : PropSpec) (value : Json) : PropSpec := { spec with default := value }
def describedAs (spec : PropSpec) (text : String) : PropSpec := { spec with description := text }

/-- The kinds a prop may have; none are declared when the list is empty. -/
def allowedTypes (spec : PropSpec) : List String :=
  match spec.type with
  | none => []
  | some (.one kind) => [kind]
  | some (.several kinds) => kinds

def model : String := "PropSpec"

/-- One kind or a list of kinds; what is neither has a fault for each reading. -/
def readType : Json → Checked (Option PropType)
  | .null => .ok none
  | .str s => .ok (some (.one s))
  | .arr items =>
    match Field.all (items.mapIdx fun i v => Field.under (toString i) (Field.text v)) with
    | .ok kinds => .ok (some (.several kinds))
    | .error faults => .error (⟨["str"], .notText⟩ :: faults.map (Fault.under "list[str]"))
  | _ => .error [⟨["str"], .notText⟩, ⟨["list[str]"], .notList⟩]

def readEnum : Json → Checked (Option (List Json))
  | .null => .ok none
  | v => (Field.list v).map some

def read : Json → Checked PropSpec
  | .obj fields =>
    let checked :=
      Field.both (Field.optional ["type"] fields none readType) <|
      Field.both (Field.optional ["enum"] fields none readEnum) <|
      Field.both (Field.optional ["required"] fields false Field.flag) <|
      Field.both (Field.optional ["default"] fields .null .ok)
        (Field.optional ["description"] fields "" Field.text)
    match checked with
    | .ok (type, enum, required, default, description) =>
      let known := ["type", "enum", "required", "default", "description"]
      .ok { type, enum, required, default, description,
            extras := fields.filter fun f => !known.contains f.1 }
    | .error faults => .error faults
  | _ => Field.fail (.notModel model)

def typeJson (spec : PropSpec) : Json :=
  match spec.type with
  | none => .null
  | some (.one kind) => .str kind
  | some (.several kinds) => .arr (kinds.map .str)

def toJson (spec : PropSpec) : Json :=
  .obj (Fields.merge
    [("type", spec.typeJson), ("enum", (spec.enum.map Json.arr).getD .null),
      ("required", .bool spec.required), ("default", spec.default),
      ("description", .str spec.description)]
    spec.extras)

end PropSpec

structure Capability where
  name : String
  description : String
  category : Option Category
  /-- The declared props, in order. -/
  props : List (String × PropSpec)
  events : Fields
  isContainer : Bool
  /-- The name of the mount point for children. -/
  contentHost : Option String
  extras : Fields

namespace Capability

def model : String := "Capability"

def defaultHost : String := "contentHost"

/-- The name of the mount point for children; an empty name counts as none. -/
def hostProperty (c : Capability) : String :=
  match c.contentHost with
  | none => defaultHost
  | some host => if host = "" then defaultHost else host

/-- The events a component of this type emits. -/
def outputs (c : Capability) : List String := c.events.keys

def spec? (c : Capability) (prop : String) : Option PropSpec :=
  (c.props.find? fun p => p.1 = prop).map Prod.snd

def readProps (v : Json) : Checked (List (String × PropSpec)) :=
  match Field.object v with
  | .ok fields =>
    Field.all (fields.map fun (key, spec) =>
      (Field.under key (PropSpec.read spec)).map fun s => (key, s))
  | .error faults => .error faults

def readCategory : Json → Checked (Option Category)
  | .null => .ok none
  | v => (Category.read v).map some

/-- The names a field is known by, the preferred one first. -/
def spellings : List (List String) :=
  [["name"], ["description"], ["category"], ["propsSchema", "props_schema"],
    ["eventsSchema", "events_schema"], ["isContainer", "is_container"],
    ["contentHost", "content_host"]]

/-- The keys of an object that no field takes its value from. -/
def unused (fields : Fields) : Fields :=
  let taken := spellings.filterMap fun keys => keys.find? fun k => fields.has k
  fields.filter fun f => !taken.contains f.1

def read : Json → Checked Capability
  | .obj fields =>
    let checked :=
      Field.both (Field.required ["name"] fields Field.text) <|
      Field.both (Field.optional ["description"] fields "" Field.text) <|
      Field.both (Field.optional ["category"] fields none readCategory) <|
      Field.both (Field.optional ["propsSchema", "props_schema"] fields [] readProps) <|
      Field.both (Field.optional ["eventsSchema", "events_schema"] fields [] Field.object) <|
      Field.both (Field.optional ["isContainer", "is_container"] fields false Field.flag)
        (Field.optional ["contentHost", "content_host"] fields none Field.text?)
    match checked with
    | .ok (name, description, category, props, events, isContainer, contentHost) =>
      .ok { name, description, category, props, events, isContainer, contentHost,
            extras := unused fields }
    | .error faults => .error faults
  | _ => Field.fail (.notModel model)

/-- The capability in an object, or the report of why there is none. -/
def ofJson (v : Json) : Except Rejection Capability :=
  match read v with
  | .ok c => .ok c
  | .error faults => .error ⟨model, faults⟩

def toJson (c : Capability) : Fields :=
  Fields.merge
    [("name", .str c.name), ("description", .str c.description),
      ("category", (c.category.map fun k => Json.str k.name).getD .null),
      ("propsSchema", .obj (c.props.map fun (k, s) => (k, s.toJson))),
      ("eventsSchema", .obj c.events), ("isContainer", .bool c.isContainer),
      ("contentHost", (c.contentHost.map Json.str).getD .null)]
    c.extras

end Capability

end ViewTree
