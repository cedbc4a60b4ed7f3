import ViewTree.Field

/-
  ViewTree.Node — one node of a declarative view tree.

  A node has a type, props, children and event bindings; an identifier and keys that
  mean nothing here are kept. The type may be absent: that is for the validator to
  report, not for the reader. A node may stand in for a component that has no
  counterpart; it then keeps that component for diagnosis and is otherwise an ordinary
  node.

  - `Node.ofJson`: a node read from an object, or a report of all its faults.
  - `Node.toJson`: the object of a node; identifier and type appear only when set.
  - `Node.dump?`: that object as it is written. A writer takes a tree with too many levels
    of nodes for a cycle and gives none.
-/

namespace ViewTree

structure Node where
  id : Option String
  type : Option String
  props : Fields
  children : List Node
  events : Fields
  extras : Fields
  /-- The component this node stands in for. -/
  source : Option Json

instance : Inhabited Node := ⟨⟨none, none, [], [], [], [], none⟩⟩

namespace Node

def model : String := "UINode"

def keys : List String := ["id", "type", "props", "children", "events"]

/-- The fields of an object; null counts as the empty object. -/
def mapping : Json → Checked Fields
  | .null => .ok []
  | v => Field.object v

/-- The number of levels below the root that are read. -/
def maxLevels : Nat := 254

mutual
/-- The node in a value, with room for some levels below it. -/
def read (room : Nat) : Json → Checked Node
  | .obj fields =>
    let checked :=
      Field.both (Field.optional ["id"] fields none Field.text?) <|
      Field.both (Field.optional ["type"] fields none Field.text?) <|
      Field.both (Field.optional ["props"] fields [] mapping) <|
      Field.both (readChildrenOf room fields) (Field.optional ["events"] fields [] mapping)
    match checked with
    | .ok (id, type, props, children, events) =>
      .ok { id, type, props, children, events,
            extras := fields.filter fun f => !keys.contains f.1, source := none }
    | .error faults => .error faults
  | _ => Field.fail (.notModel model)

/-- The children named by the fields of a node. -/
def readChildrenOf (room : Nat) : List (String × Json) → Checked (List Node)
  | [] => .ok []
  | (key, v) :: rest =>
    if key = "children" then Field.under "children" (readChildren room v)
    else readChildrenOf room rest

/-- A list of nodes; null counts as the empty list. -/
def readChildren (room : Nat) : Json → Checked (List Node)
  | .null => .ok []
  | .arr items => readEach room 0 items
  | _ => Field.fail .notList

/-- Nodes at consecutive positions. -/
def readEach (room position : Nat) : List Json → Checked (List Node)
  | [] => .ok []
  | v :: rest =>
    let node := if room = 0 then Field.fail .tooDeep else read (room - 1) v
    match Field.both (Field.under (toString position) node) (readEach room (position + 1) rest) with
    | .ok (node, nodes) => .ok (node :: nodes)
    | .error faults => .error faults
end

/-- The node in an object, or the report of why there is none. -/
def ofJson (v : Json) : Except Rejection Node :=
  match read maxLevels v with
  | .ok node => .ok node
  | .error faults => .error ⟨model, faults⟩

/-- A field that is left out when it has no value. -/
def identity (key : String) : Option String → Fields
  | none => []
  | some s => [(key, .str s)]

mutual
def toFields : Node → Fields
  | ⟨id, type, props, children, events, extras, _⟩ =>
    Fields.merge
      (identity "id" id ++ identity "type" type ++
        [("props", .obj props), ("children", .arr (toItems children)), ("events", .obj events)])
      extras

def toItems : List Node → List Json
  | [] => []
  | node :: rest => .obj (toFields node) :: toItems rest
end

def toJson (node : Node) : Json := .obj node.toFields

mutual
/-- The number of levels of a tree, the root counted. -/
def levels : Node → Nat
  | ⟨_, _, _, children, _, _, _⟩ => levelsEach children + 1

/-- The number of levels of the highest of some trees. -/
def levelsEach : List Node → Nat
  | [] => 0
  | node :: rest => max (levels node) (levelsEach rest)
end

/-- The number of levels that are written, one more than are read below the root. -/
def maxWritten : Nat := 255

/-- The object that is written of a node. -/
def dump? (node : Node) : Option Json :=
  if node.levels ≤ maxWritten then some node.toJson else none

/-- What is reported when nothing is written. -/
def tooDeepMessage : String :=
  "Error calling function `_omit_missing_identity`: " ++
    "ValueError: Circular reference detected (depth exceeded)"

/-- The renderer version a node asks for, as it was written. -/
def rendererVersion (node : Node) : Json := (node.extras.get? "rendererVersion").getD .null

mutual
/-- Equality of nodes: types and identifiers as texts, everything else by value. -/
def same : Node → Node → Bool
  | ⟨id, type, props, children, events, extras, _⟩, other =>
    id == other.id && type == other.type && Json.same (.obj props) (.obj other.props) &&
      sameEach children other.children && Json.same (.obj events) (.obj other.events) &&
      Json.same (.obj extras) (.obj other.extras)

def sameEach : List Node → List Node → Bool
  | [], [] => true
  | a :: as, b :: bs => same a b && sameEach as bs
  | _, _ => false
end

end Node

end ViewTree
