/-
  ViewTree.Fault — reports on values that do not have the shape a model demands.

  A fault is a cause at a place, the place being the path of keys and positions that
  leads to the offending value; the empty place is the whole value. A rejection names
  the model and lists its faults in the order in which the model declares its fields.
-/

namespace ViewTree

inductive Cause where
  | notText
  | notObject
  | notList
  | notModel (model : String)
  | missing
  | notFlag
  | unreadableFlag
  | notInteger
  | unreadableInteger
  | fractional
  | hugeInteger
  | infinite
  | notOneOf (choices : List String)
  | notAbove (bound : Int)
  | below (bound : Int)
  | above (bound : Int)
  /-- A factory that cannot be called. -/
  | notCallable
  /-- Models nest below the deepest level that is read. -/
  | tooDeep
deriving DecidableEq, Repr

/-- Quoted choices, the last two joined by "or". -/
def choiceList : List String → String
  | [] => ""
  | [a] => "'" ++ a ++ "'"
  | [a, b] => "'" ++ a ++ "' or '" ++ b ++ "'"
  | a :: rest => "'" ++ a ++ "', " ++ choiceList rest

namespace Cause

def message : Cause → String
  | notText => "Input should be a valid string"
  | notObject => "Input should be a valid dictionary"
  | notList => "Input should be a valid list"
  | notModel model => "Input should be a valid dictionary or instance of " ++ model
  | missing => "Field required"
  | notFlag => "Input should be a valid boolean"
  | unreadableFlag => "Input should be a valid boolean, unable to interpret input"
  | notInteger => "Input should be a valid integer"
  | unreadableInteger => "Input should be a valid integer, unable to parse string as an integer"
  | fractional => "Input should be a valid integer, got a number with a fractional part"
  | hugeInteger => "Unable to parse input string as an integer, exceeded maximum size"
  | infinite => "Input should be a finite number"
  | notOneOf choices => "Input should be " ++ choiceList choices
  | notAbove bound => "Input should be greater than " ++ toString bound
  | below bound => "Input should be greater than or equal to " ++ toString bound
  | above bound => "Input should be less than or equal to " ++ toString bound
  | notCallable => "Input should be callable"
  | tooDeep => "Recursion error - maximum validation depth exceeded"

/-- The short name of a cause. -/
def code : Cause → String
  | notText => "string_type"
  | notObject => "dict_type"
  | notList => "list_type"
  | notModel _ => "model_type"
  | missing => "missing"
  | notFlag => "bool_type"
  | unreadableFlag => "bool_parsing"
  | notInteger => "int_type"
  | unreadableInteger => "int_parsing"
  | fractional => "int_from_float"
  | hugeInteger => "int_parsing_size"
  | infinite => "finite_number"
  | notOneOf _ => "enum"
  | notAbove _ => "greater_than"
  | below _ => "greater_than_equal"
  | above _ => "less_than_equal"
  | notCallable => "callable_type"
  | tooDeep => "recursion_depth_exceeded"

end Cause

structure Fault where
  place : List String
  cause : Cause
deriving DecidableEq, Repr

namespace Fault

/-- The same fault seen from one level further out. -/
def under (key : String) (fault : Fault) : Fault := { fault with place := key :: fault.place }

/-- One step of a place; a key that holds a point itself stands between backticks. -/
def step (key : String) : String := if key.toList.contains '.' then "\x60" ++ key ++ "\x60" else key

def text (fault : Fault) : String :=
  let line := "\n  " ++ fault.cause.message ++ " [type=" ++ fault.cause.code ++ "]"
  if fault.place.isEmpty then line
  else "\n" ++ String.intercalate "." (fault.place.map step) ++ line

end Fault

structure Rejection where
  model : String
  faults : List Fault
deriving DecidableEq, Repr

def Rejection.text (r : Rejection) : String :=
  let count := r.faults.length
  toString count ++ (if count = 1 then " validation error for " else " validation errors for ") ++
    r.model ++ String.join (r.faults.map Fault.text)

example : (Rejection.mk "UINode" [⟨["children", "0", "type"], .notText⟩]).text =
    "1 validation error for UINode\nchildren.0.type\n" ++
      "  Input should be a valid string [type=string_type]" := by
  decide +kernel
example : choiceList ["a", "b", "c"] = "'a', 'b' or 'c'" := by decide +kernel

end ViewTree
