import ViewTree.Decimal.Shortest

/-
  ViewTree.Decimal.Layout — how a double is written.

  A layout says which decimal exponents are written positionally, how an exponent is
  spelled and which words stand for the values that are no numbers. Every written
  finite double holds a point or an exponent mark, so it never reads as an integer.
-/

namespace ViewTree.Decimal

structure Layout where
  /-- The least decimal exponent written without an exponent mark. -/
  positionalFrom : Int
  /-- Positive exponents carry a plus sign. -/
  plus : Bool
  /-- The least number of exponent digits. -/
  exponentWidth : Nat
  nan : List Char
  infinity : List Char
  minusInfinity : List Char

namespace Layout

/-- Exponents of at most 15 are always positional: below 10^16. -/
def positionalTo : Int := 15

/-- Numbers inside texts: positional from 10^-4, exponents of two digits or more. -/
def plain : Layout where
  positionalFrom := -4
  plus := true
  exponentWidth := 2
  nan := "nan".toList
  infinity := "inf".toList
  minusInfinity := "-inf".toList

/-- Numbers of portable documents: as in texts, with words some readers accept. -/
def portable : Layout :=
  { plain with
    nan := "NaN".toList, infinity := "Infinity".toList, minusInfinity := "-Infinity".toList }

/-- Numbers of compact documents: positional from 10^-5, bare exponents, no words. -/
def compact : Layout where
  positionalFrom := -5
  plus := true
  exponentWidth := 1
  nan := "null".toList
  infinity := "null".toList
  minusInfinity := "null".toList

/-- Compact numbers in documents that hold wide integers or deep nesting. -/
def compactWide : Layout := { compact with plus := false }

/-- An exponent: its sign, then its digits padded to the least width. -/
def writeExponent (layout : Layout) (x : Int) : List Char :=
  let digits := Nat.toDigits 10 x.natAbs
  let sign := if x < 0 then ['-'] else if layout.plus then ['+'] else []
  'e' :: sign ++ List.replicate (layout.exponentWidth - digits.length) '0' ++ digits

/-- A positive decimal in this layout. -/
def writeScientific (layout : Layout) (s : Scientific) : List Char :=
  let x := s.exponent
  if x < layout.positionalFrom || positionalTo < x then
    match s.digits with
    | [] => []
    | [d] => d :: writeExponent layout x
    | d :: rest => d :: '.' :: rest ++ writeExponent layout x
  else if x < 0 then
    '0' :: '.' :: List.replicate (-x - 1).toNat '0' ++ s.digits
  else
    let whole := x.toNat + 1
    let left := s.digits.take whole
    let right := s.digits.drop whole
    let fraction := if right.isEmpty then ['0'] else right
    left ++ List.replicate (whole - left.length) '0' ++ '.' :: fraction

def write (layout : Layout) (d : Double) : List Char :=
  if d.isNaN then layout.nan
  else if d.isInfinite then if d.negative then layout.minusInfinity else layout.infinity
  else
    let sign := if d.negative then ['-'] else []
    if d.isZero then sign ++ ['0', '.', '0'] else sign ++ layout.writeScientific (shortest d)

example : plain.writeScientific ⟨['1'], 16⟩ = "1e+16".toList := by decide
example : plain.writeScientific ⟨['1'], -7⟩ = "1e-07".toList := by decide
example : plain.writeScientific ⟨['1'], -4⟩ = "0.0001".toList := by decide
example : plain.writeScientific ⟨['1', '5'], 0⟩ = "1.5".toList := by decide
example : plain.writeScientific ⟨['1', '5'], 3⟩ = "1500.0".toList := by decide
example : compact.writeScientific ⟨['1'], -5⟩ = "0.00001".toList := by decide
example : compactWide.writeScientific ⟨['1', '5'], 300⟩ = "1.5e300".toList := by decide
example : plain.write ⟨true, 0⟩ = "-0.0".toList := by decide

end Layout

end ViewTree.Decimal
