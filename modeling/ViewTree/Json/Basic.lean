import ViewTree.Double

/-
  ViewTree.Json.Basic — JSON values.

  Integers are exact and distinct from doubles. The fields of an object keep the order
  in which their keys were first put; a lookup takes the first field of a key, and
  every object the library builds holds each key once. Besides data a value may hold an
  event handler: an opaque leaf that a caller supplied, known by its serial number. Values
  have no identity: one that is not equal to itself, which only a double can be, is found
  unequal wherever it stands. They nest to any depth, and so does all that recurs on them;
  the limits of depth here are those that the library sets.

  - `Fields.get?`, `Fields.put`, `Fields.erase`: the fields as an ordered map.
  - `Json.same`: equality by value, where numbers of both kinds and the truth values
    compare as numbers and the order of fields does not count.
  - `Json.height`: how deep a value nests.
-/

namespace ViewTree

/-- An event handler supplied by a caller, and the ways in which it takes an event. -/
structure Handler where
  /-- Two handlers are the same when their serial numbers are. -/
  serial : Nat
  name : String
  /-- The name of its class, for messages. -/
  typeName : String
  /-- It can be called. -/
  callable : Bool
  /-- It has a `next` method. -/
  next : Bool
  /-- It has an `emit` method. -/
  emit : Bool
  /-- Calling it fails, after it took note of the event. -/
  fails : Bool
deriving DecidableEq, Repr

/-- How a handler shows itself in texts. -/
def Handler.text (h : Handler) : String := "<handler " ++ h.name ++ ">"

inductive Json where
  | null
  | bool (b : Bool)
  | int (n : Int)
  | real (d : Double)
  | str (s : String)
  | arr (items : List Json)
  | obj (fields : List (String × Json))
  | handler (h : Handler)

instance : Inhabited Json := ⟨.null⟩

/-- The fields of an object, in order. -/
abbrev Fields := List (String × Json)

/-! ## Fields as an ordered map -/

namespace Fields

/-- The value of the first field of a key. -/
def get? (key : String) : Fields → Option Json
  | [] => none
  | (k, v) :: rest => if k = key then some v else get? key rest

def has (key : String) (fields : Fields) : Bool := (get? key fields).isSome

/-- Overwrites in place, or appends a new field. -/
def put (key : String) (value : Json) : Fields → Fields
  | [] => [(key, value)]
  | (k, v) :: rest => if k = key then (k, value) :: rest else (k, v) :: put key value rest

/-- Drops the first field of a key. -/
def erase (key : String) : Fields → Fields
  | [] => []
  | (k, v) :: rest => if k = key then rest else (k, v) :: erase key rest

/-- Puts every field of the update into the base, in order. -/
def merge (base update : Fields) : Fields := update.foldl (fun acc f => put f.1 f.2 acc) base

/-- Fields read one after another: the last value of a key stands at its first place. -/
def ofPairs (pairs : Fields) : Fields := merge [] pairs

def keys (fields : Fields) : List String := fields.map Prod.fst

/-- A present value other than null. -/
def given? (key : String) (fields : Fields) : Option Json :=
  match get? key fields with
  | some .null => none
  | found => found

@[simp] theorem get?_nil (key : String) : get? key [] = none := rfl

theorem get?_put_self (key : String) (value : Json) (fields : Fields) :
    get? key (put key value fields) = some value := by
  induction fields with
  | nil => simp [put, get?]
  | cons f rest ih =>
    obtain ⟨k, v⟩ := f
    by_cases h : k = key <;> simp [put, get?, h, ih]

theorem get?_put_of_ne {key other : String} (h : other ≠ key) (value : Json) (fields : Fields) :
    get? other (put key value fields) = get? other fields := by
  induction fields with
  | nil => simp [put, get?, Ne.symm h]
  | cons f rest ih =>
    obtain ⟨k, v⟩ := f
    by_cases hk : k = key
    · subst hk
      simp [put, get?, Ne.symm h]
    · simp [put, get?, hk, ih]

end Fields

namespace Json

/-- The value of a key of an object. -/
def field? (key : String) : Json → Option Json
  | .obj fields => Fields.get? key fields
  | _ => none

def isNull : Json → Bool
  | .null => true
  | _ => false

/-- Zero, the empty text, the empty list, the empty object, false and null are false. -/
def truthy : Json → Bool
  | .null => false
  | .bool b => b
  | .int n => n != 0
  | .real d => !d.isZero
  | .str s => s != ""
  | .arr items => !items.isEmpty
  | .obj fields => !fields.isEmpty
  | .handler _ => true

/-- The name of a value's type in messages about values. -/
def typeName : Json → String
  | .null => "NoneType"
  | .bool _ => "bool"
  | .int _ => "int"
  | .real _ => "float"
  | .str _ => "str"
  | .arr _ => "list"
  | .obj _ => "dict"
  | .handler h => h.typeName

/-- The kinds that a contract can demand of a value. -/
def kind : Json → String
  | .null => "null"
  | .bool _ => "boolean"
  | .int _ => "number"
  | .real _ => "number"
  | .str _ => "string"
  | .arr _ => "array"
  | .obj _ => "object"
  | .handler h => if h.callable then "function" else "object"

/-- The values met when a value is gone through: the items of a list, the keys of an
    object, the characters of a text. Nothing else can be gone through. -/
def iterate? : Json → Option (List Json)
  | .arr items => some items
  | .obj fields => some (fields.map fun f => .str f.1)
  | .str s => some (s.toList.map fun c => .str (String.singleton c))
  | _ => none

/-- What is said of a value that cannot be gone through. -/
def notIterable (v : Json) : String := "'" ++ v.typeName ++ "' object is not iterable"

/-- The number of items, keys or characters of a value that has any. -/
def count? : Json → Option Nat
  | .arr items => some items.length
  | .obj fields => some fields.length
  | .str s => some s.length
  | _ => none

/-! ## Identity: the same constructors, the same order of fields -/

mutual
def identical : Json → Json → Bool
  | .null, .null => true
  | .bool a, .bool b => a == b
  | .int m, .int n => m == n
  | .real d, .real e => d == e
  | .str s, .str t => s == t
  | .arr xs, .arr ys => identicalItems xs ys
  | .obj fs, .obj gs => identicalFields fs gs
  | .handler h, .handler k => h == k
  | _, _ => false

def identicalItems : List Json → List Json → Bool
  | [], [] => true
  | x :: xs, y :: ys => identical x y && identicalItems xs ys
  | _, _ => false

def identicalFields : List (String × Json) → List (String × Json) → Bool
  | [], [] => true
  | (k, v) :: fs, (l, w) :: gs => k == l && identical v w && identicalFields fs gs
  | _, _ => false
end

mutual
theorem identical_iff : ∀ v w : Json, identical v w = true ↔ v = w
  | .arr xs, w => by cases w <;> simp [identical, identicalItems_iff xs]
  | .obj fs, w => by cases w <;> simp [identical, identicalFields_iff fs]
  | .null, w => by cases w <;> simp [identical]
  | .bool _, w => by cases w <;> simp [identical]
  | .int _, w => by cases w <;> simp [identical]
  | .real _, w => by cases w <;> simp [identical]
  | .str _, w => by cases w <;> simp [identical]
  | .handler _, w => by cases w <;> simp [identical]

theorem identicalItems_iff : ∀ xs ys : List Json, identicalItems xs ys = true ↔ xs = ys
  | [], ys => by cases ys <;> simp [identicalItems]
  | x :: xs, ys => by cases ys <;> simp [identicalItems, identical_iff x, identicalItems_iff xs]

theorem identicalFields_iff :
    ∀ fs gs : List (String × Json), identicalFields fs gs = true ↔ fs = gs
  | [], gs => by cases gs <;> simp [identicalFields]
  | (k, v) :: fs, gs => by
    cases gs with
    | nil => simp [identicalFields]
    | cons g gs =>
      simp [identicalFields, identical_iff v, identicalFields_iff fs, Prod.ext_iff]
end

instance : DecidableEq Json := fun v w => decidable_of_iff _ (identical_iff v w)

/-! ## Equality by value -/

/-- The integer a number or truth value equals. -/
def integral? : Json → Option Int
  | .bool b => some (if b then 1 else 0)
  | .int n => some n
  | .real d => d.toInt?
  | _ => none

/-- Equality of scalars. -/
def sameScalar : Json → Json → Bool
  | .null, .null => true
  | .str s, .str t => s == t
  | .handler h, .handler k => h.serial == k.serial
  | .real d, .real e => d.eq e
  | v, w =>
    match v.integral?, w.integral? with
    | some m, some n => m == n
    | _, _ => false

mutual
def same : Json → Json → Bool
  | .arr xs, .arr ys => sameItems xs ys
  | .obj fs, .obj gs => fs.length == gs.length && sameFields fs gs
  | v, w => sameScalar v w

def sameItems : List Json → List Json → Bool
  | [], [] => true
  | x :: xs, y :: ys => same x y && sameItems xs ys
  | _, _ => false

/-- Every field on the left has an equal one on the right. -/
def sameFields : List (String × Json) → Fields → Bool
  | [], _ => true
  | (k, v) :: rest, gs =>
    (match Fields.get? k gs with
      | some w => same v w
      | none => false) && sameFields rest gs
end

/-! ## Depth -/

mutual
/-- Zero for scalars and empty containers, one more than the highest member otherwise. -/
def height : Json → Nat
  | .arr items => heightItems items
  | .obj fields => heightFields fields
  | _ => 0

def heightItems : List Json → Nat
  | [] => 0
  | x :: xs => max (height x + 1) (heightItems xs)

def heightFields : List (String × Json) → Nat
  | [] => 0
  | (_, v) :: rest => max (height v + 1) (heightFields rest)
end

mutual
/-- The number of containers around the innermost one, itself counted. -/
def nesting : Json → Nat
  | .arr items => nestingItems items + 1
  | .obj fields => nestingFields fields + 1
  | _ => 0

def nestingItems : List Json → Nat
  | [] => 0
  | x :: xs => max (nesting x) (nestingItems xs)

def nestingFields : List (String × Json) → Nat
  | [] => 0
  | (_, v) :: rest => max (nesting v) (nestingFields rest)
end

/-! ## Closed traces -/

example : same (.int 1) (.bool true) = true := by decide
example :
    same (.obj [("a", .int 1), ("b", .null)]) (.obj [("b", .null), ("a", .int 1)]) = true := by
  decide
example : height (.arr [.int 1, .obj [("k", .arr [])]]) = 2 := by decide
example : nesting (.arr [.int 1, .obj [("k", .arr [])]]) = 3 := by decide
example :
    Fields.put "a" (.int 2) [("a", .int 1), ("b", .null)] = [("a", .int 2), ("b", .null)] := by
  decide

end Json

end ViewTree
