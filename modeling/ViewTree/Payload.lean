import ViewTree.Json.Write

/-
  ViewTree.Payload — size and depth limits for incoming values.

  Depth is measured by a walk over an explicit stack, so that a deeply nested value
  costs no recursion. The walk takes the youngest pending member first and stops at the
  first one below the limit; its length is bounded by the number of values, `weight`.
  Size is the number of characters of the compact JSON text.
-/

namespace ViewTree

namespace Json

/-- The values directly inside a value. -/
def members : Json → List Json
  | .arr items => items
  | .obj fields => fields.map Prod.snd
  | _ => []

mutual
/-- The number of values in a value, itself counted. -/
def weight : Json → Nat
  | .arr items => weightItems items + 1
  | .obj fields => weightFields fields + 1
  | _ => 1

def weightItems : List Json → Nat
  | [] => 0
  | x :: xs => weight x + weightItems xs

def weightFields : List (String × Json) → Nat
  | [] => 0
  | (_, v) :: rest => weight v + weightFields rest
end

theorem weightFields_eq (fs : List (String × Json)) :
    weightFields fs = weightItems (fs.map Prod.snd) := by
  induction fs with
  | nil => rfl
  | cons f fs ih => obtain ⟨k, v⟩ := f; simp [weightItems, weightFields, ih]

theorem weight_eq (v : Json) : v.weight = weightItems v.members + 1 := by
  cases v <;> simp [weight, members, weightItems, weightFields_eq]

end Json

namespace Payload

/-- What is wrong with a payload. -/
inductive Issue where
  | tooLarge (name : String) (size : Nat) (limit : Int)
  | tooDeep (depth : Nat) (limit : Int)
deriving DecidableEq, Repr

def Issue.message : Issue → String
  | .tooLarge name size limit =>
    name ++ " size " ++ toString size ++ " bytes exceeds maximum of " ++ toString limit ++ " bytes"
  | .tooDeep depth limit =>
    "JSON nesting depth " ++ toString depth ++ " exceeds maximum " ++ toString limit

/-- Values still to be looked at, the next one first, each with its depth. -/
abbrev Pending := List (Json × Nat)

/-- Puts values on top, the last of them first. -/
def Pending.push (depth : Nat) (values : List Json) (pending : Pending) : Pending :=
  values.foldl (fun acc v => (v, depth) :: acc) pending

def Pending.weight (pending : Pending) : Nat := Json.weightItems (pending.map Prod.fst)

theorem Pending.weight_push (depth : Nat) (values : List Json) (pending : Pending) :
    (pending.push depth values).weight = Json.weightItems values + pending.weight := by
  unfold Pending.push
  induction values generalizing pending with
  | nil => simp [Json.weightItems]
  | cons v vs ih =>
    rw [List.foldl_cons, ih]
    simp only [Pending.weight, List.map_cons, Json.weightItems]
    omega

/-- The depth of the first value found below the limit. -/
def firstTooDeep (limit : Int) : Pending → Option Nat
  | [] => none
  | (v, depth) :: rest =>
    if limit < depth then some depth
    else firstTooDeep limit (Pending.push (depth + 1) v.members rest)
termination_by pending => pending.weight
decreasing_by
  rw [Pending.weight_push]
  simp only [Pending.weight, List.map_cons, Json.weightItems, Json.weight_eq v]
  omega

def checkDepth (limit : Int) (v : Json) : Except Issue Unit :=
  match firstTooDeep limit [(v, 0)] with
  | some depth => .error (.tooDeep depth limit)
  | none => .ok ()

def checkSize (limit : Int) (name : String) (v : Json) : Except Issue Unit :=
  let size := (v.encodeChars 0).length
  if limit < size then .error (.tooLarge name size limit) else .ok ()

/-- Depth is checked before size. -/
def check (maxSize maxDepth : Int) (name : String) (v : Json) : Except Issue Unit :=
  match checkDepth maxDepth v with
  | .error issue => .error issue
  | .ok () => checkSize maxSize name v

/-- The limits that apply where none are given. -/
def defaultMaxSize : Int := 1024 * 1024
def defaultMaxDepth : Int := 64
def defaultName : String := "Schema"

end Payload

end ViewTree
