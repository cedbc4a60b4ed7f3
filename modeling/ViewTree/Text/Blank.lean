/-
  ViewTree.Text.Blank — white space.

  `isBlank` is the wide class: controls that act as separators, the no-break and
  typographic spaces, and the line and paragraph separators. Numbers are trimmed by
  the narrower `isNumberBlank`, which leaves the four information separators out.
-/

namespace ViewTree.Text

/-- First and last character of each run of white space. -/
def blanks : List (Nat × Nat) :=
  [(0x9, 0xd), (0x1c, 0x20), (0x85, 0x85), (0xa0, 0xa0), (0x1680, 0x1680), (0x2000, 0x200a),
    (0x2028, 0x2029), (0x202f, 0x202f), (0x205f, 0x205f), (0x3000, 0x3000)]

def isBlank (c : Char) : Bool :=
  blanks.any fun r => r.1 ≤ c.toNat && c.toNat ≤ r.2

/-- White space allowed around a number. -/
def isNumberBlank (c : Char) : Bool :=
  isBlank c && !(0x1c ≤ c.toNat && c.toNat ≤ 0x1f)

/-- The text without the characters of a class at its two ends. -/
def trimBy (p : Char → Bool) (cs : List Char) : List Char :=
  ((cs.dropWhile p).reverse.dropWhile p).reverse

def trim (cs : List Char) : List Char := trimBy isBlank cs

example : trim " \n a b\t".toList = "a b".toList := by decide
example : isBlank '\x1c' = true ∧ isNumberBlank '\x1c' = false := by decide

end ViewTree.Text
