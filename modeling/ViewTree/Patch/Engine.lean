import ViewTree.Field
import ViewTree.Json.Shown
import ViewTree.Patch.Edit
import ViewTree.Telemetry.Journal

/-
  ViewTree.Patch.Engine — lists of patches on a document.

  Patching is best effort: operations run in order, each on the document its
  predecessors left, and one that does not apply is skipped without a trace in the
  document. Every operation is counted once, as applied or as skipped. A list position
  that no machine word holds is the one thing that stops a run.
-/

namespace ViewTree.Patch

open Telemetry

/-! ## Operations -/

/-- One operation as read from a patch. -/
structure Operation where
  op : String
  path : String
  value : Json
  source : Option String

namespace Operation

def model : String := "PatchOperation"

def read : Json → Checked Operation
  | .obj fields =>
    let checked :=
      Field.both (Field.required ["op"] fields Field.text) <|
      Field.both (Field.optional ["path"] fields "" Field.text) <|
      Field.both (Field.optional ["value"] fields .null .ok)
        (Field.optional ["from", "from_"] fields none Field.text?)
    match checked with
    | .ok (op, path, value, source) => .ok { op, path, value, source }
    | .error faults => .error faults
  | _ => Field.fail (.notModel model)

end Operation

/-- Why an operation was skipped. -/
inductive SkipCause where
  | malformed (rejection : Rejection)
  | unknownOperation (op : String)
  | sourceMissing (op : String)
  | edit (fault : EditFault)
deriving DecidableEq, Repr

def SkipCause.message : SkipCause → String
  | .malformed rejection => rejection.text
  | .unknownOperation op => "Unknown JSON Patch operation: " ++ op
  | .sourceMissing op => "'" ++ op ++ "' requires a 'from' path"
  | .edit fault => fault.message

/-- A skipped operation: its position, the operation and path as given, and the cause. -/
structure Skip where
  index : Nat
  op : String
  path : String
  cause : SkipCause
deriving DecidableEq, Repr

/-! ## One operation -/

/-- What became of one operation. -/
inductive Step where
  | applied (doc : Json) (op : String)
  | skipped (cause : SkipCause)
  | stopped
deriving DecidableEq

def Step.ofEdit (op : String) (edited : Edited) : Step :=
  match edited.result with
  | .ok doc => .applied doc op
  | .error (.fault f) => .skipped (.edit f)
  | .error .hugeIndex => .stopped

/-- An edit that needs a source path. -/
def withSource (o : Operation) (edit : String → Edited) : Step :=
  match o.source with
  | none => .skipped (.sourceMissing o.op)
  | some source => .ofEdit o.op (edit source)

def apply (doc : Json) (o : Operation) : Step :=
  if o.op = "add" then .ofEdit o.op (add doc o.path o.value)
  else if o.op = "remove" then .ofEdit o.op (remove doc o.path)
  else if o.op = "replace" then .ofEdit o.op (replace doc o.path o.value)
  else if o.op = "copy" then withSource o (copy doc o.path)
  else if o.op = "move" then withSource o (move doc o.path)
  else .skipped (.unknownOperation o.op)

/-- One patch as given: read, then applied. -/
def step (doc patch : Json) : Step :=
  match Operation.read patch with
  | .error faults => .skipped (.malformed ⟨Operation.model, faults⟩)
  | .ok o => apply doc o

/-! ## Runs -/

structure Outcome where
  tree : Json
  applied : Nat
  skipped : List Skip
  journal : Journal

/-- A run that was stopped, and what it had reported until then. -/
structure Interrupted where
  journal : Journal

def source : String := "genui.rendering.patch"

/-- A field of a patch as given, null when there is none. -/
def rawField (key : String) (patch : Json) : Json := (patch.field? key).getD .null

def skipOf (index : Nat) (patch : Json) (cause : SkipCause) : Skip :=
  ⟨index, (rawField "op" patch).shown, (rawField "path" patch).shown, cause⟩

/-- What an unknown operation reports before it is skipped. -/
def unknownJournal (patch : Json) : SkipCause → Journal
  | .unknownOperation op =>
    let path := match patch.field? "path" with
      | some v => v
      | none => .str ""
    [.warning source "patch_operation_unknown" [("op", .str op), ("path", path)]]
  | _ => []

def skipJournal (index : Nat) (patch : Json) (cause : SkipCause) : Journal :=
  unknownJournal patch cause ++
    [.error source "patch_operation_failed"
      [("index", .int index), ("op", rawField "op" patch), ("path", rawField "path" patch),
        ("error", .str cause.message)],
      .measure (.patchOperation (rawField "op" patch).shown "skipped")]

/-- Runs patches from a position on. -/
def runFrom (index : Nat) (doc : Json) : List Json → Except Interrupted Outcome
  | [] => .ok ⟨doc, 0, [], []⟩
  | patch :: rest =>
    match step doc patch with
    | .stopped => .error ⟨[]⟩
    | .applied doc' op =>
      let entry := Entry.measure (.patchOperation op "applied")
      match runFrom (index + 1) doc' rest with
      | .error i => .error ⟨entry :: i.journal⟩
      | .ok o => .ok { o with applied := o.applied + 1, journal := entry :: o.journal }
    | .skipped cause =>
      let entries := skipJournal index patch cause
      match runFrom (index + 1) doc rest with
      | .error i => .error ⟨entries ++ i.journal⟩
      | .ok o =>
        .ok { o with skipped := skipOf index patch cause :: o.skipped,
                     journal := entries ++ o.journal }

/-- Runs a list of patches. -/
def run (doc : Json) (patches : List Json) : Except Interrupted Outcome := runFrom 0 doc patches

end ViewTree.Patch
