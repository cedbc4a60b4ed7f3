import ViewTree.Json.Basic
import ViewTree.Patch.Index
import ViewTree.Patch.Path

/-
  ViewTree.Patch.Edit — single edits of a document.

  The five edits address a value by path. Reading walks existing containers only; adding
  creates missing parents on the way, a list where the next segment looks like a
  position and an object otherwise, and inserts into lists with positions counted from
  the end when negative. A move reads its target path after the removal.

  An edit either gives a document or a fault. `Edited.doc` is the document it leaves
  behind in both cases: an addition that fails further down has created the parents it
  passed.
-/

namespace ViewTree.Patch

/-- Why an edit does not apply. -/
inductive EditFault where
  | badIndex (segment : String)
  | outOfRange (index : Int) (length : Nat)
  | notFound (segment : String)
  | cannotTraverse (typeName segment : String)
  | cannotCreate (typeName segment : String)
  | cannotAdd (typeName path : String)
  | cannotRemove (typeName path : String)
  | cannotReplace (typeName path : String)
  | removeRoot
  | intoOwnChild (source path : String)
deriving DecidableEq, Repr

def EditFault.message : EditFault → String
  | .badIndex segment => "Invalid array index '" ++ segment ++ "'"
  | .outOfRange index length =>
    "Array index " ++ toString index ++ " out of range (length " ++ toString length ++ ")"
  | .notFound segment => "Path segment '" ++ segment ++ "' not found"
  | .cannotTraverse typeName segment =>
    "Cannot traverse into " ++ typeName ++ " at '" ++ segment ++ "'"
  | .cannotCreate typeName segment =>
    "Cannot create path below " ++ typeName ++ " at '" ++ segment ++ "'"
  | .cannotAdd typeName path => "Cannot add to " ++ typeName ++ " at '" ++ path ++ "'"
  | .cannotRemove typeName path => "Cannot remove from " ++ typeName ++ " at '" ++ path ++ "'"
  | .cannotReplace typeName path => "Cannot replace in " ++ typeName ++ " at '" ++ path ++ "'"
  | .removeRoot => "Cannot remove the document root"
  | .intoOwnChild source path =>
    "Cannot move '" ++ source ++ "' into its own child '" ++ path ++ "'"

/-- How an edit comes to nothing: by a fault, or by a list position that no machine
    word holds. -/
inductive Stop where
  | fault (f : EditFault)
  | hugeIndex
deriving DecidableEq, Repr

def hugeIndexMessage : String := "Python int too large to convert to C ssize_t"

/-! ## Reading -/

/-- The position of an existing item. -/
def existingIndex (length : Nat) (segment : String) : Except EditFault Nat :=
  match toIndex? segment with
  | none => .error (.badIndex segment)
  | some index =>
    if 0 ≤ index ∧ index < length then .ok index.toNat else .error (.outOfRange index length)

/-- The member of a container at a segment. -/
def getMember (container : Json) (segment : String) : Except EditFault Json :=
  match container with
  | .arr items =>
    match existingIndex items.length segment with
    | .error f => .error f
    | .ok i => .ok (items.getD i .null)
  | .obj fields =>
    match Fields.get? segment fields with
    | none => .error (.notFound segment)
    | some v => .ok v
  | v => .error (.cannotTraverse v.typeName segment)

/-- The value that segments lead to. -/
def resolve (doc : Json) : List String → Except EditFault Json
  | [] => .ok doc
  | s :: rest =>
    match getMember doc s with
    | .error f => .error f
    | .ok child => resolve child rest

/-! ## Writing to existing places -/

/-- A container with the member at an existing segment exchanged. -/
def setMember (container : Json) (segment : String) (member : Json) : Json :=
  match container with
  | .arr items =>
    match existingIndex items.length segment with
    | .error _ => container
    | .ok i => .arr (items.set i member)
  | .obj fields => .obj (Fields.put segment member fields)
  | v => v

/-- Changes the container that all but the last segment lead to, given the last one. -/
def changeParent (change : String → Json → Except EditFault Json) :
    List String → Json → Except EditFault Json
  | [], doc => .ok doc
  | [last], parent => change last parent
  | s :: next :: rest, doc =>
    match getMember doc s with
    | .error f => .error f
    | .ok child =>
      match changeParent change (next :: rest) child with
      | .error f => .error f
      | .ok child' => .ok (setMember doc s child')

/-- A container without the member at a segment; an object may lack it already. -/
def removeMember (path segment : String) (container : Json) : Except EditFault Json :=
  match container with
  | .arr items =>
    match existingIndex items.length segment with
    | .error f => .error f
    | .ok i => .ok (.arr (items.eraseIdx i))
  | .obj fields => .ok (.obj (Fields.erase segment fields))
  | v => .error (.cannotRemove v.typeName path)

/-- A container with the member at a segment replaced; an object may gain it. -/
def replaceMember (path : String) (value : Json) (segment : String) (container : Json) :
    Except EditFault Json :=
  match container with
  | .arr items =>
    match existingIndex items.length segment with
    | .error f => .error f
    | .ok i => .ok (.arr (items.set i value))
  | .obj fields => .ok (.obj (Fields.put segment value fields))
  | v => .error (.cannotReplace v.typeName path)

/-! ## Adding -/

/-- What an edit leaves behind, and the document it gives. -/
structure Edited where
  doc : Json
  result : Except Stop Json

/-- An edit that keeps the document where it fails. -/
def Edited.of (doc : Json) : Except EditFault Json → Edited
  | .ok doc' => ⟨doc', .ok doc'⟩
  | .error f => ⟨doc, .error (.fault f)⟩

/-- The segment that stands for the end of a list. -/
def appendMark : String := "-"

/-- The empty container for a missing parent of a segment. -/
def freshParent (segment : String) : Json := if looksLikeIndex segment then .arr [] else .obj []

/-- Inserts before a position; a negative one counts from the end, and one outside the
    list means its nearer end. -/
def insertAt (items : List Json) (index : Int) (value : Json) : List Json :=
  let i := if index < 0 then index + items.length else index
  items.insertIdx (min i.toNat items.length) value

/-- Adds a value to a container at the last segment of a path. -/
def addMember (path : String) (value : Json) (segment : String) (container : Json) :
    Except Stop Json :=
  match container with
  | .arr items =>
    if segment = appendMark then .ok (.arr (items ++ [value]))
    else
      match toIndex? segment with
      | none => .error (.fault (.badIndex segment))
      | some index =>
        if fitsSigned index then .ok (.arr (insertAt items index value))
        else .error .hugeIndex
  | .obj fields => .ok (.obj (Fields.put segment value fields))
  | v => .error (.fault (.cannotAdd v.typeName path))

/-- The child to go on with below a container, and the container that holds it. A
    missing or null child is created for the segment that follows. -/
def ensureChild (container : Json) (segment next : String) : Except EditFault (Json × Json) :=
  match container with
  | .obj fields =>
    match Fields.given? segment fields with
    | some child => .ok (child, container)
    | none =>
      let child := freshParent next
      .ok (child, .obj (Fields.put segment child fields))
  | .arr items =>
    match toIndex? segment with
    | none => .error (.badIndex segment)
    | some index =>
      let child := freshParent next
      if 0 ≤ index ∧ index < items.length then
        let member := items.getD index.toNat .null
        if member.isNull then .ok (child, .arr (items.set index.toNat child))
        else .ok (member, container)
      else if index = items.length then .ok (child, .arr (items ++ [child]))
      else .error (.outOfRange index items.length)
  | v => .error (.cannotCreate v.typeName segment)

/-- Adds a value below a document, creating missing parents. -/
def addBelow (path : String) (value : Json) : List String → Json → Edited
  | [], doc => ⟨doc, .ok doc⟩
  | [last], parent =>
    match addMember path value last parent with
    | .ok parent' => ⟨parent', .ok parent'⟩
    | .error stop => ⟨parent, .error stop⟩
  | s :: next :: rest, doc =>
    match ensureChild doc s next with
    | .error f => ⟨doc, .error (.fault f)⟩
    | .ok (child, holder) =>
      let below := addBelow path value (next :: rest) child
      let doc' := setMember holder s below.doc
      ⟨doc', below.result.map fun _ => doc'⟩

/-! ## The five edits -/

/-- Adds a value; at the root it takes the place of the document. -/
def add (doc : Json) (path : String) (value : Json) : Edited :=
  match parsePath path with
  | [] => ⟨doc, .ok value⟩
  | segments => addBelow path value segments doc

def remove (doc : Json) (path : String) : Edited :=
  match parsePath path with
  | [] => ⟨doc, .error (.fault .removeRoot)⟩
  | segments => .of doc (changeParent (removeMember path) segments doc)

/-- Replaces a value; at the root it takes the place of the document. -/
def replace (doc : Json) (path : String) (value : Json) : Edited :=
  match parsePath path with
  | [] => ⟨doc, .ok value⟩
  | segments => .of doc (changeParent (replaceMember path value) segments doc)

def copy (doc : Json) (path source : String) : Edited :=
  match resolve doc (parsePath source) with
  | .error f => ⟨doc, .error (.fault f)⟩
  | .ok value => add doc path value

/-- Whether a path leads strictly below another one. -/
def leadsBelow (source target : List String) : Bool :=
  source.length < target.length && source.isPrefixOf target

def move (doc : Json) (path source : String) : Edited :=
  if leadsBelow (parsePath source) (parsePath path) then
    ⟨doc, .error (.fault (.intoOwnChild source path))⟩
  else
    match resolve doc (parsePath source) with
    | .error f => ⟨doc, .error (.fault f)⟩
    | .ok value =>
      let removed := remove doc source
      match removed.result with
      | .error stop => ⟨removed.doc, .error stop⟩
      | .ok doc' => add doc' path value

end ViewTree.Patch
