import ViewTree.Json.Repair

/-
  ViewTree.Json.Extract — the JSON object inside free-form text.

  A fenced block, if there is one, is taken out of the text first; the candidate is
  everything from the first opening to the last closing brace of what remains. It is
  read exactly, then leniently, then repaired, and the first reading that gives a value
  decides: a value that is no object is refused, never passed on to the next reader. An
  integer with too many digits ends the lenient reading and with it the extraction. Texts in
  which half a surrogate pair is escaped are outside the domain: a character here is a
  scalar value, so neither the lenient reader nor the repair can keep such a half.
-/

namespace ViewTree.Json

/-- Why a text gave no object. -/
inductive ParseFault where
  | noObject
  | invalid
  | notObject (typeName : String)
  /-- An integer with this many digits. -/
  | longInteger (digits : Nat)
deriving DecidableEq, Repr

def ParseFault.message : ParseFault → String
  | .noObject => "No JSON object found in text"
  | .invalid => "Invalid JSON"
  | .notObject t => "Expected object, got " ++ t
  | .longInteger n =>
    "Exceeds the limit (" ++ toString Text.maxDigits ++ " digits) for integer string " ++
      "conversion: value has " ++ toString n ++ " digits; " ++
      "use sys.set_int_max_str_digits() to increase the limit"

/-- The place of the first occurrence of a word, counted from `start`. -/
def find? (word : List Char) (start : Nat) : List Char → Option Nat
  | [] => if word.isEmpty then some start else none
  | c :: r => if word.isPrefixOf (c :: r) then some start else find? word (start + 1) r

/-- What follows the first occurrence of a word. -/
def after? (word cs : List Char) : Option (List Char) :=
  (find? word 0 cs).map fun n => cs.drop (n + word.length)

/-- What precedes the first occurrence of a word; everything without one. -/
def upTo (word cs : List Char) : List Char :=
  match find? word 0 cs with
  | some n => cs.take n
  | none => cs

def fence : List Char := ['\x60', '\x60', '\x60']

/-- A fence tagged as JSON. -/
def jsonFence : List Char := fence ++ "json".toList

/-- The inside of a fenced block, without the blanks around it. A fence tagged as JSON
    is preferred; a block may be left open. -/
def stripFences (cs : List Char) : List Char :=
  match after? fence cs with
  | none => cs
  | some plain => Text.trim (upTo fence ((after? jsonFence cs).getD plain))

/-- The last closing brace and everything before it. -/
def upToLastBrace (cs : List Char) : List Char :=
  (cs.reverse.dropWhile (· != '\x7d')).reverse

/-- The candidate text of an object. -/
def findObject? (cs : List Char) : Option (List Char) :=
  match upToLastBrace ((stripFences (Text.trim cs)).dropWhile (· != '\x7b')) with
  | [] => none
  | candidate => some candidate

def asObject : Json → Except ParseFault Fields
  | .obj fields => .ok fields
  | v => .error (.notObject v.typeName)

/-- The object inside a text; `mend` allows damaged documents. -/
def extract (text : String) (mend : Bool) : Except ParseFault Fields :=
  match findObject? text.toList with
  | none => .error .noObject
  | some candidate =>
    match read? .exact candidate with
    | some v => asObject v
    | none =>
      if !mend then .error .invalid
      else
        match read .lenient candidate with
        | .ok v => asObject v
        | .error (.longInteger n) => .error (.longInteger n)
        | .error .malformed => asObject (Repair.repair candidate)

end ViewTree.Json
