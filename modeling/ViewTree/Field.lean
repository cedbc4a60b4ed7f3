import ViewTree.Fault
import ViewTree.Json.Basic
import ViewTree.Text.Blank
import ViewTree.Text.Digit

/-
  ViewTree.Field — reading the fields of a model from JSON values.

  A reader gives a value or the faults it found. `Field.both` runs two readers and keeps
  the faults of both, the left ones first, so a model reports everything that is wrong
  with it in the order of its fields.
-/

namespace ViewTree

/-- A value, or everything that is wrong with the input. -/
abbrev Checked (α : Type) := Except (List Fault) α

namespace Field

def fail {α : Type} (cause : Cause) : Checked α := .error [⟨[], cause⟩]

/-- Puts a key in front of the places of the faults. -/
def under {α : Type} (key : String) : Checked α → Checked α
  | .ok a => .ok a
  | .error faults => .error (faults.map (Fault.under key))

/-- Both values, or the faults of both sides. -/
def both {α β : Type} : Checked α → Checked β → Checked (α × β)
  | .ok a, .ok b => .ok (a, b)
  | .ok _, .error fs => .error fs
  | .error fs, .ok _ => .error fs
  | .error fs, .error gs => .error (fs ++ gs)

theorem both_eq_ok_iff {α β : Type} {a : Checked α} {b : Checked β} {p : α × β} :
    both a b = .ok p ↔ a = .ok p.1 ∧ b = .ok p.2 := by
  cases a <;> cases b <;> simp [both, Prod.ext_iff]

@[simp] theorem under_eq_ok_iff {α : Type} {key : String} {c : Checked α} {a : α} :
    under key c = .ok a ↔ c = .ok a := by
  cases c <;> simp [under]

/-- A list of readings as one. -/
def all {α : Type} : List (Checked α) → Checked (List α)
  | [] => .ok []
  | c :: rest =>
    match both c (all rest) with
    | .ok (a, as) => .ok (a :: as)
    | .error fs => .error fs

def text : Json → Checked String
  | .str s => .ok s
  | _ => fail .notText

/-- A text or null. -/
def text? : Json → Checked (Option String)
  | .null => .ok none
  | v => (text v).map some

def object : Json → Checked Fields
  | .obj fields => .ok fields
  | _ => fail .notObject

def list : Json → Checked (List Json)
  | .arr items => .ok items
  | _ => fail .notList

/-! ## Truth values -/

def trueWords : List String := ["true", "t", "yes", "y", "on", "1"]
def falseWords : List String := ["false", "f", "no", "n", "off", "0"]

/-- Zero and one; other numbers that fit 64 bits have no reading, and wider ones are not
    looked at. -/
def numberFlag (n : Int) (fits : Bool) : Checked Bool :=
  if !fits then fail .notFlag
  else if n = 0 then .ok false
  else if n = 1 then .ok true
  else fail .unreadableFlag

/-- A truth value, one of its words in any case, or a number equal to zero or one. -/
def flag : Json → Checked Bool
  | .bool b => .ok b
  | .int n => numberFlag n (fitsSigned n)
  | .real d =>
    match d.toInt? with
    | some n => numberFlag n (n.natAbs < twoTo 63)
    | none => fail .notFlag
  | .str s =>
    let word := s.toLower
    if trueWords.contains word then .ok true
    else if falseWords.contains word then .ok false
    else fail .unreadableFlag
  | _ => fail .notFlag

/-! ## Integers -/

/-- What is left of digits once leading zeros are gone: zeros and underscores after a
    first zero are skipped, and of nothing but those the last one stays. A point keeps
    the character before it. -/
def afterZero (last : Char) : List Char → Option (List Char)
  | [] => some [last]
  | c :: r =>
    if c = '0' || c = '_' then afterZero c r
    else if c.isDigit || c = '-' then some (c :: r)
    else if c = '.' then some (last :: c :: r)
    else none

/-- The text of an integer without its leading zeros. -/
def dropLeadingZeros? : List Char → Option (List Char)
  | [] => none
  | c :: r => if c = '0' then afterZero c r else if c.isDigit then some (c :: r) else none

/-- The part before a point that zeros follow, at least one and nothing else;
    everything otherwise. -/
def dropZeroTail (cs : List Char) : List Char :=
  match cs.dropWhile (· != '.') with
  | _ :: '0' :: zeros => if zeros.all (· == '0') then cs.takeWhile (· != '.') else cs
  | _ => cs

/-- Whether underscores stand singly between other characters. -/
def separated : List Char → Bool
  | [] => true
  | '_' :: _ => false
  | [_] => true
  | _ :: '_' :: d :: r => separated (d :: r)
  | _ :: r => separated r

/-- The digits after an optional minus sign; underscores between them are dropped. -/
def signedDigits? (negative : Bool) (cs : List Char) : Option (Bool × List Char) :=
  let plain := if separated cs then cs.filter (· != '_') else cs
  let (negative, digits) := match negative, plain with
    | false, '-' :: r => (true, r)
    | _, r => (negative, r)
  if digits.isEmpty || !digits.all Char.isDigit then none
  else some (negative, digits.dropWhile (· == '0'))

/-- The sign and the significant digits of an integer in a text. Blanks around it, a sign,
    leading zeros with underscores among them, and a tail of zeros after a point are
    allowed; behind leading zeros a minus sign may stand as well. -/
def integerDigits? (s : String) : Option (Bool × List Char) :=
  let unsigned (negative : Bool) (cs : List Char) : Option (Bool × List Char) :=
    (dropLeadingZeros? cs).bind fun r => signedDigits? negative (dropZeroTail r)
  match Text.trimBy Text.isNumberBlank s.toList with
  | '-' :: r => unsigned true r
  | '+' :: r => unsigned false r
  | r => unsigned false r

/-- The integer in a text. -/
def integerText (s : String) : Checked Int :=
  match integerDigits? s with
  | none => fail .unreadableInteger
  | some (negative, ds) =>
    if Text.maxDigits < ds.length then fail .hugeInteger
    else
      let n := Nat.ofDigitChars 10 ds 0
      .ok (if negative then -(n : Int) else n)

/-- An integer, a truth value, a whole double below 2^63 in magnitude, or a text. -/
def integer : Json → Checked Int
  | .int n => .ok n
  | .bool b => .ok (if b then 1 else 0)
  | .real d =>
    if !d.isFinite then fail .infinite
    else
      match d.toInt? with
      | none => fail .fractional
      | some n => if n.natAbs < twoTo 63 then .ok n else fail .hugeInteger
  | .str s => integerText s
  | _ => fail .notInteger

/-- A strictly positive integer. -/
def positive (v : Json) : Checked Nat :=
  match integer v with
  | .ok n => if 0 < n then .ok n.toNat else fail (.notAbove 0)
  | .error fs => .error fs

/-- An integer from zero to a bound. -/
def upTo (bound : Nat) (v : Json) : Checked Nat :=
  match integer v with
  | .ok n =>
    if n < 0 then fail (.below 0)
    else if (bound : Int) < n then fail (.above bound)
    else .ok n.toNat
  | .error fs => .error fs

/-! ## Keys of an object -/

/-- The first key of a list under which an object has a value, with that value. -/
def find? (keys : List String) (fields : Fields) : Option (String × Json) :=
  keys.findSome? fun key => (Fields.get? key fields).map fun v => (key, v)

/-- A field under one of several keys, the first present one; its faults name that key. -/
def optional {α : Type} (keys : List String) (fields : Fields) (default : α)
    (read : Json → Checked α) : Checked α :=
  match find? keys fields with
  | none => .ok default
  | some (key, v) => under key (read v)

/-- A field under a single key. -/
theorem optional_eq_ok_iff {α : Type} {key : String} {fields : Fields} {default a : α}
    {read : Json → Checked α} :
    optional [key] fields default read = .ok a ↔
      (fields.get? key = none ∧ default = a) ∨ ∃ v, fields.get? key = some v ∧ read v = .ok a := by
  cases h : fields.get? key <;> simp [optional, find?, h]

/-- A field that must be there; its absence is reported under the first key. -/
def required {α : Type} (keys : List String) (fields : Fields) (read : Json → Checked α) :
    Checked α :=
  match find? keys fields with
  | none => under (keys.headD "") (fail .missing)
  | some (key, v) => under key (read v)

example : integerDigits? " -01_000.00 " = some (true, ['1', '0', '0', '0']) := by decide +kernel
example : integerDigits? "1__0" = none := by decide +kernel
example : integerDigits? "0__1" = some (false, ['1']) := by decide +kernel
example : integerDigits? "0-5" = some (true, ['5']) := by decide +kernel
example : integerDigits? "5." = none := by decide +kernel

end Field

end ViewTree
