/-
  ViewTree.Text.Fold — letter case, as far as keywords need it.

  Keywords are written in basic Latin letters. Besides the capital letters the Kelvin
  sign has a basic letter, k, as its small form, and besides the small letters the
  dotless i and the long s have basic letters as capital forms. No other character can
  turn a text into a keyword, so all others stay as they are.
-/

namespace ViewTree.Text

def lowerChar (c : Char) : Char := if c.toNat = 0x212a then 'k' else c.toLower

def upperChar (c : Char) : Char :=
  if c.toNat = 0x131 then 'I' else if c.toNat = 0x17f then 'S' else c.toUpper

def lower (s : String) : String := String.ofList (s.toList.map lowerChar)
def upper (s : String) : String := String.ofList (s.toList.map upperChar)

example : lower "CHEC\u212aBox" = "checkbox" := by decide +kernel

end ViewTree.Text
