import ViewTree.Text.Blank
import ViewTree.Text.Digit

/-
  ViewTree.Patch.Index — segments that denote positions in a list.

  Two notions are in use. `looksLikeIndex` decides which container a missing parent
  becomes: dashes in front, then digits of any kind. `toIndex?` reads the position in an
  existing list: decimal digits of any script with single underscores between them, a
  sign, and blanks around it; a number of more than `Text.maxDigits` digits is refused.
-/

namespace ViewTree.Patch

/-- Dashes, then at least one digit and nothing else. -/
def looksLikeIndex (segment : String) : Bool :=
  let rest := segment.toList.dropWhile (· == '-')
  !rest.isEmpty && rest.all Text.isDigit

/-- The values of decimal digits with single underscores between them. -/
def digitValues? : List Char → Option (List Nat)
  | [] => none
  | [c] => (Text.decimalValue? c).map ([·])
  | c :: '_' :: r =>
    match Text.decimalValue? c, digitValues? r with
    | some n, some ns => some (n :: ns)
    | _, _ => none
  | c :: r =>
    match Text.decimalValue? c, digitValues? r with
    | some n, some ns => some (n :: ns)
    | _, _ => none

def ofDigitValues (values : List Nat) : Nat := values.foldl (fun acc d => acc * 10 + d) 0

def natIndex? (cs : List Char) : Option Nat :=
  match digitValues? cs with
  | some values => if values.length ≤ Text.maxDigits then some (ofDigitValues values) else none
  | none => none

/-- The position a segment denotes. -/
def toIndex? (segment : String) : Option Int :=
  match Text.trimBy Text.isNumberBlank segment.toList with
  | '-' :: r => (natIndex? r).map fun n => -(n : Int)
  | '+' :: r => (natIndex? r).map fun n => (n : Int)
  | r => (natIndex? r).map fun n => (n : Int)

example : toIndex? " -1_0 " = some (-10) := by decide +kernel
example : toIndex? "²" = none ∧ looksLikeIndex "²" = true := by decide +kernel
example : toIndex? "+1" = some 1 ∧ looksLikeIndex "+1" = false := by decide +kernel

end ViewTree.Patch
