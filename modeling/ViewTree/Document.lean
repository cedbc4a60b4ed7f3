import ViewTree.Json.Read
import ViewTree.Json.Write
import ViewTree.Node

/-
  ViewTree.Document — nodes as JSON documents.

  A document is the JSON text of a node. Reading one is strict about JSON and then about
  the shape of a node.
-/

namespace ViewTree

/-- Why a text is not the document of a node. -/
inductive DocumentFault where
  | notJson
  | notNode (rejection : Rejection)
deriving DecidableEq, Repr

def DocumentFault.message : DocumentFault → String
  | .notJson => "Invalid JSON"
  | .notNode rejection => rejection.text

namespace Node

/-- The document of a node that can be written; an indentation of zero gives the compact
    form. -/
def encode? (node : Node) (indent : Int) : Option String := node.dump?.map (·.encode indent)

def decode (text : String) : Except DocumentFault Node :=
  match Json.decode? text.toList with
  | none => .error .notJson
  | some v =>
    match ofJson v with
    | .ok node => .ok node
    | .error rejection => .error (.notNode rejection)

end Node

end ViewTree
