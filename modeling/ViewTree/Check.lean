import ViewTree.Json.Shown
import ViewTree.Node
import ViewTree.Registry

/-
  ViewTree.Check — a node against the contract of its type.

  The check is shallow: it looks at the node's type and props, and only asks whether it
  has children. Every violated constraint is one problem, in the order in which the
  props are declared; a prop of the wrong kind and outside its choices has two. A node
  is valid when there is no problem.
-/

namespace ViewTree.Check

open Telemetry

inductive Problem where
  | noType
  | unregistered (type : String)
  | required (prop : String)
  | wrongKind (prop : String) (allowed : List String) (actual : String)
  | notAllowed (prop : String) (value : Json) (choices : List Json)
  | childless (type : String)
deriving DecidableEq

def Problem.message : Problem → String
  | .noType => "Schema missing type property"
  | .unregistered type => "Component type '" ++ type ++ "' not registered"
  | .required prop => "Property '" ++ prop ++ "' is required"
  | .wrongKind prop allowed actual =>
    "Property '" ++ prop ++ "' should be type " ++ String.intercalate " | " allowed ++ ", got " ++
      actual
  | .notAllowed prop value choices =>
    "Property '" ++ prop ++ "' value '" ++ value.shown ++ "' not in allowed values: " ++
      String.intercalate ", " (choices.map Json.shown)
  | .childless type => "Component '" ++ type ++ "' requires children"

/-- The kind that accepts every value. -/
def anyKind : String := "any"

/-- The prop that stands for the children of a node. -/
def childrenProp : String := "children"

/-- The constraints that the value of a prop violates. -/
def checkProp (prop : String) (spec : PropSpec) (value : Option Json) : List Problem :=
  match value with
  | none => if spec.required then [.required prop] else []
  | some v =>
    let allowed := spec.allowedTypes
    let kind :=
      if allowed.isEmpty || allowed.contains anyKind || allowed.contains v.kind then []
      else [Problem.wrongKind prop allowed v.kind]
    let choice := match spec.enum with
      | none => []
      | some choices => if choices.any (Json.same v) then [] else [.notAllowed prop v choices]
    kind ++ choice

/-- The constraints of a capability that a node violates. -/
def checkNode (c : Capability) (type : String) (node : Node) : List Problem :=
  let props := c.props.filter fun p => p.1 ≠ childrenProp
  let demandsChildren := (c.spec? childrenProp).any PropSpec.required
  props.flatMap (fun (prop, spec) => checkProp prop spec (node.props.given? prop)) ++
    if demandsChildren && node.children.isEmpty then [.childless type] else []

/-- Every problem of a node. -/
def validate (registry : Registry) (node : Node) : List Problem :=
  match node.type with
  | none => [.noType]
  | some type =>
    if type = "" then [.noType]
    else
      match registry.capability? type with
      | none => [.unregistered type]
      | some c => checkNode c type node

/-- The problems in one line. -/
def summary (problems : List Problem) : String :=
  String.intercalate ", " (problems.map Problem.message)

def source : String := "genui.rendering.validator"

/-- A node of a registered type that violates its contract leaves a record. -/
def journal (registry : Registry) (node : Node) : Journal :=
  match node.type with
  | none => []
  | some type =>
    let problems := validate registry node
    if type ≠ "" && registry.has type && !problems.isEmpty then
      [.debug source "validation_failed"
        [("type", .str type), ("errors", .int problems.length)]]
    else []

end ViewTree.Check
