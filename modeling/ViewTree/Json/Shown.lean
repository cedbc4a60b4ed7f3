import ViewTree.Json.Basic
import ViewTree.Decimal.Layout
import ViewTree.Text.Quoted

/-
  ViewTree.Json.Shown — values inside messages.

  A text stands for itself when it is the whole message part and is quoted inside a
  list or an object; the other scalars have one form everywhere. Members are separated
  by a comma and a space. An integer is shown with all its digits. No reader gives one of
  more than `Text.maxDigits` digits, and messages about such integers, which only a caller
  could supply, are outside the domain.
-/

namespace ViewTree.Json

/-- The decimal digits of an integer, a negative one after a minus sign. -/
def intDigits : Int → List Char
  | .ofNat n => Nat.toDigits 10 n
  | .negSucc n => '-' :: Nat.toDigits 10 (n + 1)

mutual
/-- A value as it stands inside a list or an object, followed by `rest`. -/
def quotedForm : Json → List Char → List Char
  | .null, rest => "None".toList ++ rest
  | .bool true, rest => "True".toList ++ rest
  | .bool false, rest => "False".toList ++ rest
  | .int n, rest => intDigits n ++ rest
  | .real d, rest => Decimal.Layout.plain.write d ++ rest
  | .str s, rest => Text.quoted s.toList rest
  | .arr [], rest => '[' :: ']' :: rest
  | .arr (x :: xs), rest => '[' :: quotedForm x (quotedItems xs (']' :: rest))
  | .obj [], rest => '\x7b' :: '\x7d' :: rest
  | .obj ((k, v) :: fs), rest =>
    '\x7b' :: Text.quoted k.toList (':' :: ' ' :: quotedForm v (quotedFields fs ('\x7d' :: rest)))
  | .handler h, rest => h.text.toList ++ rest

def quotedItems : List Json → List Char → List Char
  | [], rest => rest
  | x :: xs, rest => ',' :: ' ' :: quotedForm x (quotedItems xs rest)

def quotedFields : List (String × Json) → List Char → List Char
  | [], rest => rest
  | (k, v) :: fs, rest =>
    ',' :: ' ' :: Text.quoted k.toList (':' :: ' ' :: quotedForm v (quotedFields fs rest))
end

/-- A value as it stands inside a list or an object, on its own. -/
def quotedText (v : Json) : String := String.ofList (quotedForm v [])

/-- A value as a part of a message. -/
def shown : Json → String
  | .str s => s
  | v => v.quotedText

example : quotedForm (.arr [.str "a", .null, .obj [("k", .bool true)]]) [] =
    "['a', None, \x7b'k': True\x7d]".toList := by decide

end ViewTree.Json
