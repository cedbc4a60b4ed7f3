import ViewTree.Double

/-
  ViewTree.Decimal.Shortest — the fewest decimal digits that read back as a double.

  The reals that round to a finite double `m · 2^q` form an interval around it, its
  ends included when `m` is even. For one digit, two digits and so on the two
  neighbours of the double on that decimal grid are tried: the first grid with a
  neighbour inside the interval gives the digits, the nearer of two hits wins and a
  tie goes to the even last digit. Seventeen digits always suffice.
-/

namespace ViewTree.Decimal

/-- A positive decimal `d.ddd · 10^exponent`; the digits start and end with no zero. -/
structure Scientific where
  digits : List Char
  exponent : Int
deriving DecidableEq, Repr

/-- The greatest `k` with `10^k ≤ num / den`, for positive operands. -/
def floorLog10 (num den : Nat) : Int :=
  if den ≤ num then ((Nat.toDigits 10 (num / den)).length : Int) - 1
  else
    let ceiling := (den + num - 1) / num
    Int.neg (Nat.toDigits 10 (ceiling - 1)).length

/-- A double `num / den` with the interval of reals that round to it, all over one
    denominator. -/
structure Neighbourhood where
  value : Nat
  low : Nat
  high : Nat
  den : Nat
  closed : Bool

/-- The interval reaches half way to the next rank and half way to the previous one,
    which is only half as far away at the bottom of a binade. -/
def neighbourhood (d : Double) : Neighbourhood :=
  let m := d.mantissa
  let scale := twoTo d.shift
  let below := if m = Double.binade ∧ 0 < d.shift then 1 else 2
  { value := 4 * m * scale, low := (4 * m - below) * scale, high := (4 * m + 2) * scale,
    den := twoTo 1076, closed := m % 2 == 0 }

/-- Whether `c · 10^k` lies in the interval. -/
def Neighbourhood.covers (n : Neighbourhood) (c : Nat) (k : Int) : Bool :=
  let x := c * tenTo k.toNat * n.den
  let scale := tenTo (-k).toNat
  if n.closed then decide (n.low * scale ≤ x ∧ x ≤ n.high * scale)
  else decide (n.low * scale < x ∧ x < n.high * scale)

/-- The hit on the grid `10^k`, if one of the two neighbours of the value is inside. -/
def Neighbourhood.onGrid (n : Neighbourhood) (k : Int) : Option Nat :=
  let num := n.value * tenTo (-k).toNat
  let den := n.den * tenTo k.toNat
  let c := num / den
  match n.covers c k, n.covers (c + 1) k with
  | true, true =>
    let rest := 2 * (num % den)
    some (if rest < den then c else if den < rest then c + 1 else c + c % 2)
  | true, false => some c
  | false, true => some (c + 1)
  | false, false => none

def dropTrailingZeros (digits : List Char) : List Char :=
  (digits.reverse.dropWhile (· == '0')).reverse

/-- Tries the grids of `digits`, `digits + 1`, … places, `fuel` of them. -/
def searchGrid (n : Neighbourhood) (top : Int) : Nat → Nat → Option (Nat × Int)
  | 0, _ => none
  | fuel + 1, digits =>
    let k := top - digits + 1
    match n.onGrid k with
    | some c => some (c, k)
    | none => searchGrid n top fuel (digits + 1)

/-- The shortest decimal of a positive finite double. -/
def shortest (d : Double) : Scientific :=
  let n := neighbourhood d
  match searchGrid n (floorLog10 n.value n.den) 17 1 with
  | none => ⟨['0'], 0⟩
  | some (c, k) =>
    let ds := Nat.toDigits 10 c
    ⟨dropTrailingZeros ds, k + ds.length - 1⟩

end ViewTree.Decimal
