/-
  ViewTree.Power — powers of two and of ten, and the integers that fit a 64-bit word.
-/

namespace ViewTree

def twoTo (k : Nat) : Nat := Nat.pow 2 k

def tenTo (k : Nat) : Nat := Nat.pow 10 k

theorem twoTo_succ (k : Nat) : twoTo (k + 1) = twoTo k * 2 := rfl

theorem tenTo_succ (k : Nat) : tenTo (k + 1) = tenTo k * 10 := rfl

theorem twoTo_pos (k : Nat) : 0 < twoTo k := by
  induction k with
  | zero => decide
  | succ k ih => rw [twoTo_succ]; omega

theorem tenTo_pos (k : Nat) : 0 < tenTo k := by
  induction k with
  | zero => decide
  | succ k ih => rw [tenTo_succ]; omega

/-! ## Words -/

/-- An integer of a signed 64-bit word. -/
def fitsSigned (n : Int) : Bool :=
  decide (-9223372036854775808 ≤ n ∧ n ≤ 9223372036854775807)

/-- An integer of a signed or of an unsigned 64-bit word. -/
def fitsWord (n : Int) : Bool :=
  decide (-9223372036854775808 ≤ n ∧ n ≤ 18446744073709551615)

example : fitsSigned (twoTo 63) = false ∧ fitsSigned (-twoTo 63) = true := by decide
example : fitsWord (twoTo 64) = false ∧ fitsWord (twoTo 64 - 1) = true := by decide

end ViewTree
