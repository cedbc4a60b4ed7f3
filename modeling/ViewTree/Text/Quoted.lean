import ViewTree.Text.Printable

/-
  ViewTree.Text.Quoted — a text between quotes, as it is shown inside a list or an
  object.

  The quotes are single unless the text holds a single quote and no double one. A
  backslash and the chosen quote are escaped, tab and line ends have short forms, and
  every other character that is not printable is written by its code point in the
  shortest of three widths.
-/

namespace ViewTree.Text

/-- Lower case hexadecimal, padded with zeros to a width. -/
def hex (width n : Nat) : List Char :=
  let digits := Nat.toDigits 16 n
  List.replicate (width - digits.length) '0' ++ digits

/-- A character outside the printable class. -/
def escapeCode (c : Char) : List Char :=
  if c.toNat < 0x100 then '\\' :: 'x' :: hex 2 c.toNat
  else if c.toNat < 0x10000 then '\\' :: 'u' :: hex 4 c.toNat
  else '\\' :: 'U' :: hex 8 c.toNat

def escapeInQuotes (quote c : Char) : List Char :=
  if c = quote || c = '\\' then ['\\', c]
  else if c = '\n' then ['\\', 'n']
  else if c = '\r' then ['\\', 'r']
  else if c = '\t' then ['\\', 't']
  else if isPrintable c then [c]
  else escapeCode c

/-- Double quotes only spare a text its own single quotes. -/
def quoteFor (cs : List Char) : Char :=
  if cs.contains '\'' && !cs.contains '"' then '"' else '\''

/-- The quoted text, followed by `rest`. -/
def quoted (cs rest : List Char) : List Char :=
  let quote := quoteFor cs
  quote :: cs.foldr (fun c acc => escapeInQuotes quote c ++ acc) (quote :: rest)

example : quoted "a'b".toList [] = "\"a'b\"".toList := by decide
example : quoted "a\n\x01é".toList [] = "'a\\n\\x01é'".toList := by decide +kernel

end ViewTree.Text
