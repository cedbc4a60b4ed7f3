import ViewTree.Power

/-
  ViewTree.Double — IEEE double precision numbers as data.

  A double is a sign and a rank: its position among the non-negative doubles, counted
  from zero. Rank 0 is zero, rank 1 the least subnormal, `infiniteRank` infinity, and
  every rank above it is a NaN. Every finite double is a whole number of units of
  2^-1074, so comparison, addition and conversion are integer arithmetic with one
  rounding at the end: `ofRatio`, to nearest, ties to the even rank.
-/

namespace ViewTree

structure Double where
  negative : Bool
  rank : Nat
deriving DecidableEq, Repr

namespace Double

/-- The number of doubles in a binade, 2^52. -/
def binade : Nat := 4503599627370496

/-- The rank of infinity: 2047 binades lie below it. -/
def infiniteRank : Nat := 2047 * binade

def zero : Double := ⟨false, 0⟩
def infinity (negative : Bool) : Double := ⟨negative, infiniteRank⟩
def nan : Double := ⟨false, infiniteRank + 1⟩

def isNaN (d : Double) : Bool := infiniteRank < d.rank
def isInfinite (d : Double) : Bool := d.rank == infiniteRank
def isFinite (d : Double) : Bool := d.rank < infiniteRank
def isZero (d : Double) : Bool := d.rank == 0

/-- The integer `m` of a finite double `m · 2^q`. -/
def mantissa (d : Double) : Nat :=
  if d.rank / binade = 0 then d.rank % binade else binade + d.rank % binade

/-- The exponent `q` of a finite double `m · 2^q`, plus 1074. -/
def shift (d : Double) : Nat := d.rank / binade - 1

/-- The magnitude of a finite double in units of 2^-1074. -/
def magnitude (d : Double) : Nat := d.mantissa * twoTo d.shift

/-- The value of a finite double in units of 2^-1074. -/
def units (d : Double) : Int := if d.negative then -(d.magnitude : Int) else d.magnitude

/-! ## Rounding -/

/-- The quotient `num / den` to the nearest integer, a tie to the even one. -/
def roundHalfEven (num den : Nat) : Nat :=
  let quotient := num / den
  let rest := 2 * (num % den)
  if rest < den then quotient
  else if den < rest then quotient + 1
  else quotient + quotient % 2

/-- The greatest `k` with `2^k ≤ num / den`, for positive operands. -/
def floorLog2 (num den : Nat) : Int :=
  let k : Int := (num.log2 : Int) - den.log2
  if num * twoTo (-k).toNat < den * twoTo k.toNat then k - 1 else k

/-- The double nearest to `num / den`, a tie to the even rank; too large is infinity. -/
def ofRatio (negative : Bool) (num den : Nat) : Double :=
  if num = 0 then ⟨negative, 0⟩ else
  let e : Int := max (-1074) (floorLog2 num den - 52)
  let m := roundHalfEven (num * twoTo (-e).toNat) (den * twoTo e.toNat)
  ⟨negative, min infiniteRank ((e + 1074).toNat * binade + m)⟩

/-- The double nearest to `m · 10^e`. Exponents that decide the result alone do so
    before any power is computed. -/
def ofDecimal (negative : Bool) (m : Nat) (e : Int) : Double :=
  if m = 0 then ⟨negative, 0⟩
  else if 310 < e then infinity negative
  else if e < -(400 + (m.log2 : Int)) then ⟨negative, 0⟩
  else ofRatio negative (m * tenTo e.toNat) (tenTo (-e).toNat)

def ofInt (n : Int) : Double := ofRatio (decide (n < 0)) n.natAbs 1

/-- The double nearest to an integer, unless that is an infinity. -/
def ofInt? (n : Int) : Option Double :=
  let d := ofInt n
  if d.isFinite then some d else none

/-- The number of units in one. -/
def one : Nat := twoTo 1074

/-- The double nearest to a whole number of units. -/
def ofUnits (n : Int) : Double := ofRatio (decide (n < 0)) n.natAbs one

/-! ## Comparison and addition -/

/-- The integer a finite double equals, if it has no fractional part. -/
def toInt? (d : Double) : Option Int :=
  if d.isFinite && d.magnitude % one == 0 then
    let n : Nat := d.magnitude / one
    some (if d.negative then -(n : Int) else n)
  else none

/-- Numeric equality: both zeros are equal and a NaN equals nothing. -/
def eq (a b : Double) : Bool :=
  !a.isNaN && !b.isNaN && (a == b || (a.isZero && b.isZero))

/-- Numeric order, false beside a NaN. -/
def le (a b : Double) : Bool :=
  if a.isNaN || b.isNaN then false
  else if a.isInfinite then a.negative || (b.isInfinite && !b.negative)
  else if b.isInfinite then !b.negative
  else decide (a.units ≤ b.units)

/-- Correctly rounded sum. -/
def add (a b : Double) : Double :=
  if a.isNaN || b.isNaN then nan
  else if a.isInfinite then
    if b.isInfinite && a.negative != b.negative then nan else a
  else if b.isInfinite then b
  else if a.isZero && b.isZero then ⟨a.negative && b.negative, 0⟩
  else ofUnits (a.units + b.units)

/-! ## Closed traces -/

example : ofRatio false 1 1 = ⟨false, 1023 * binade⟩ := by decide +kernel
example : (ofRatio false 1 10).mantissa = 7205759403792794 := by decide +kernel
example : ofDecimal false 5 (-324) = ⟨false, 1⟩ := by decide +kernel
example : ofDecimal false 1 400 = infinity false := by decide +kernel
example : (ofInt (-3)).toInt? = some (-3) := by decide +kernel
example : eq (ofDecimal true 0 0) zero = true := by decide +kernel

end Double

end ViewTree
