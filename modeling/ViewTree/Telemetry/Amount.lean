import ViewTree.Json.Shown
import ViewTree.Text.Blank
import ViewTree.Text.Digit

/-
  ViewTree.Telemetry.Amount — the numbers that are observed.

  A number or a truth value counts as what it is, unless it is an integer that is too
  large for a double. A gauge is also set by a text that reads as a number: blanks
  around it, a sign, digits of any script with single underscores between them, a point
  with digits on at least one side, an exponent, or a word for infinity or no number. A
  duration is added to a sum, which takes no texts.

  - `Amount.ofNumber?`: the amount of a number.
  - `Amount.toSet`, `Amount.toAdd`: the amount that sets a gauge, and that is added.
-/

namespace ViewTree.Telemetry.Amount

/-- Why a value is no amount. -/
inductive Fault where
  | huge
  | noNumber (typeName : String)
  | unreadable (text : String)
  | noSummand (typeName : String)
deriving DecidableEq, Repr

def Fault.kind : Fault → String
  | huge => "OverflowError"
  | noNumber _ => "TypeError"
  | unreadable _ => "ValueError"
  | noSummand _ => "TypeError"

def Fault.message : Fault → String
  | huge => "int too large to convert to float"
  | noNumber typeName =>
    "float() argument must be a string or a real number, not '" ++ typeName ++ "'"
  | unreadable text =>
    "could not convert string to float: " ++ String.ofList (Text.quoted text.toList [])
  | noSummand typeName => "unsupported operand type(s) for +=: 'float' and '" ++ typeName ++ "'"

/-- The amount of a number or a truth value. -/
def ofNumber? : Json → Option (Except Fault Double)
  | .real d => some (.ok d)
  | .int n =>
    some <| match Double.ofInt? n with
      | some d => .ok d
      | none => .error .huge
  | .bool b => some (.ok (Double.ofInt (if b then 1 else 0)))
  | _ => none

/-! ## Texts -/

/-- Digits of any script as basic ones. -/
def basicDigit (c : Char) : Char :=
  match Text.decimalValue? c with
  | some n => Char.ofNat (48 + n)
  | none => c

/-- A text without its underscores, if each stands between two digits. -/
def joined? (before : Bool) : List Char → Option (List Char)
  | [] => some []
  | c :: r =>
    if c != '_' then (joined? c.isDigit r).map (c :: ·)
    else if before && r.head?.any Char.isDigit then joined? false r
    else none

/-- The exponent that a text ends with, zero without one. -/
def exponent? : List Char → Option Int
  | [] => some 0
  | c :: r =>
    if c != 'e' && c != 'E' then none
    else
      let (negative, ds) := match r with
        | '-' :: r => (true, r)
        | '+' :: r => (false, r)
        | r => (false, r)
      if ds.isEmpty || !ds.all Char.isDigit then none
      else
        let n : Int := Nat.ofDigitChars 10 ds 0
        some (if negative then -n else n)

/-- A decimal behind its sign. -/
def decimal? (negative : Bool) (cs : List Char) : Option Double :=
  let whole := cs.takeWhile Char.isDigit
  let (fraction, r) := match cs.dropWhile Char.isDigit with
    | '.' :: r => (r.takeWhile Char.isDigit, r.dropWhile Char.isDigit)
    | r => ([], r)
  if whole.isEmpty && fraction.isEmpty then none
  else
    (exponent? r).map fun e =>
      Double.ofDecimal negative (Nat.ofDigitChars 10 (whole ++ fraction) 0) (e - fraction.length)

/-- The number in a text behind its sign. -/
def unsigned? (negative : Bool) (cs : List Char) : Option Double :=
  let word := cs.map Char.toLower
  if word = "inf".toList || word = "infinity".toList then some (.infinity negative)
  else if word = "nan".toList then some .nan
  else (joined? false cs).bind (decimal? negative)

/-- The number in a text. -/
def ofText? (s : String) : Option Double :=
  match (Text.trimBy Text.isNumberBlank s.toList).map basicDigit with
  | '-' :: r => unsigned? true r
  | '+' :: r => unsigned? false r
  | r => unsigned? false r

/-! ## Uses -/

/-- The amount that sets a gauge. -/
def toSet (v : Json) : Except Fault Double :=
  match ofNumber? v, v with
  | some amount, _ => amount
  | none, .str s =>
    match ofText? s with
    | some d => .ok d
    | none => .error (.unreadable s)
  | none, v => .error (.noNumber v.typeName)

/-- The amount that is added to a sum. -/
def toAdd (v : Json) : Except Fault Double := (ofNumber? v).getD (.error (.noSummand v.typeName))

example : ofText? " -1_0.5e1 " = some (.ofInt (-105)) := by decide +kernel
example : ofText? "1__0" = none ∧ ofText? "." = none := by decide +kernel

end ViewTree.Telemetry.Amount
