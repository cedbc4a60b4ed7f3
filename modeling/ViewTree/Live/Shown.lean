import ViewTree.Json.Shown
import ViewTree.Live.Store

/-
  ViewTree.Live.Shown — how hosts and instances show themselves in texts.

  An instance shows its class and its component type, a host its name and the number
  of instances in it. What stands in the place of the component type is shown instead of
  it; an emitter then shows its class alone, and not its place in memory.
-/

namespace ViewTree.Live

def quotedName (name : String) : String := String.ofList (Text.quoted name.toList [])

def Host.text (h : Host) : String :=
  "ViewHost(" ++ quotedName h.name ++ ", instances=" ++ toString h.instances.length ++ ")"

example : Host.text ⟨"root", [0, 3]⟩ = "ViewHost('root', instances=2)" := by decide +kernel

namespace Store

/-- A member that an instance was given, as it shows itself. -/
def memberText (s : Store) : Member → String
  | .host h => ((s.hosts[h]?).map Host.text).getD ""
  | .vacant => Json.null.quotedText
  | .value v => v.quotedText
  | m => "<" ++ m.typeName ++ ">"

/-- The component type of an instance as a part of a text. -/
def typeText (s : Store) (x : Instance) : String :=
  match x.hidden? .componentType with
  | none => x.blueprint.componentType
  | some (.value v) => v.shown
  | some m => s.memberText m

def instanceText (s : Store) (x : Instance) : String :=
  let type := ((x.hidden? .componentType).map s.memberText).getD
    (quotedName x.blueprint.componentType)
  x.blueprint.className ++ "(" ++ type ++ ")"

end Store

end ViewTree.Live
