import ViewTree.Json.Shown

/-
  ViewTree.Json.Write — JSON text of a value.

  Three styles share one writer. `compact` has no blanks and escapes only what JSON
  demands; `compactWide` differs from it in the spelling of exponents; `portable` is
  pure ASCII, separates with blanks, may indent, and writes a handler as the text it
  shows. `encode` chooses: compact unless an indentation is asked for or the value holds a
  handler, wide when an integer leaves the 64-bit range or the nesting exceeds
  `compactNesting`. The domain is that of the readers: a value with an integer of more than
  `Text.maxDigits` digits is written as any other, though no reader would take it back.
-/

namespace ViewTree.Json

structure Style where
  itemSeparator : List Char
  keySeparator : List Char
  /-- Everything outside printable ASCII is escaped. -/
  asciiOnly : Bool
  /-- The number of blanks per level, when members stand on lines of their own. -/
  indent : Option Nat
  numbers : Decimal.Layout

namespace Style

def compact : Style := ⟨[','], [':'], false, none, .compact⟩
def compactWide : Style := ⟨[','], [':'], false, none, .compactWide⟩
def portable : Style := ⟨[',', ' '], [':', ' '], true, none, .portable⟩
def indented (width : Nat) : Style := ⟨[','], [':', ' '], true, some width, .portable⟩

/-- The line break before a member or a closing bracket of a level. -/
def line (style : Style) (level : Nat) : List Char :=
  match style.indent with
  | none => []
  | some width => '\n' :: List.replicate (width * level) ' '

end Style

/-- A 16-bit unit as an escape. -/
def escapeUnit (n : Nat) : List Char := '\\' :: 'u' :: Text.hex 4 n

/-- A character beyond the basic plane takes two units. -/
def escapeUnits (c : Char) : List Char :=
  if c.toNat < 0x10000 then escapeUnit c.toNat
  else
    let n := c.toNat - 0x10000
    escapeUnit (0xd800 + n / 0x400) ++ escapeUnit (0xdc00 + n % 0x400)

def escapeChar (asciiOnly : Bool) (c : Char) : List Char :=
  if c = '"' then ['\\', '"']
  else if c = '\\' then ['\\', '\\']
  else if c = '\n' then ['\\', 'n']
  else if c = '\r' then ['\\', 'r']
  else if c = '\t' then ['\\', 't']
  else if c = '\x08' then ['\\', 'b']
  else if c = '\x0c' then ['\\', 'f']
  else if c.toNat < 0x20 || (asciiOnly && 0x7f ≤ c.toNat) then escapeUnits c
  else [c]

/-- A JSON string, followed by `rest`. -/
def writeText (asciiOnly : Bool) (cs rest : List Char) : List Char :=
  '"' :: cs.foldr (fun c acc => escapeChar asciiOnly c ++ acc) ('"' :: rest)

mutual
/-- The text of a value at a nesting level, followed by `rest`. -/
def write (style : Style) (level : Nat) : Json → List Char → List Char
  | .null, rest => "null".toList ++ rest
  | .bool true, rest => "true".toList ++ rest
  | .bool false, rest => "false".toList ++ rest
  | .int n, rest => intDigits n ++ rest
  | .real d, rest => style.numbers.write d ++ rest
  | .str s, rest => writeText style.asciiOnly s.toList rest
  | .handler h, rest => writeText style.asciiOnly h.text.toList rest
  | .arr [], rest => '[' :: ']' :: rest
  | .arr (x :: xs), rest =>
    '[' :: style.line (level + 1) ++
      write style (level + 1) x
        (writeItems style (level + 1) xs (style.line level ++ ']' :: rest))
  | .obj [], rest => '\x7b' :: '\x7d' :: rest
  | .obj ((k, v) :: fs), rest =>
    '\x7b' :: style.line (level + 1) ++
      writeText style.asciiOnly k.toList (style.keySeparator ++
        write style (level + 1) v
          (writeFields style (level + 1) fs (style.line level ++ '\x7d' :: rest)))

def writeItems (style : Style) (level : Nat) : List Json → List Char → List Char
  | [], rest => rest
  | x :: xs, rest =>
    style.itemSeparator ++ (style.line level ++
      write style level x (writeItems style level xs rest))

def writeFields (style : Style) (level : Nat) : List (String × Json) → List Char → List Char
  | [], rest => rest
  | (k, v) :: fs, rest =>
    style.itemSeparator ++ (style.line level ++
      writeText style.asciiOnly k.toList (style.keySeparator ++
        write style level v (writeFields style level fs rest)))
end

/-! ## Which style -/

mutual
/-- Whether some scalar of a value satisfies `p`. -/
def anyLeaf (p : Json → Bool) : Json → Bool
  | .arr items => anyLeafItems p items
  | .obj fields => anyLeafFields p fields
  | v => p v

def anyLeafItems (p : Json → Bool) : List Json → Bool
  | [] => false
  | x :: xs => anyLeaf p x || anyLeafItems p xs

def anyLeafFields (p : Json → Bool) : List (String × Json) → Bool
  | [] => false
  | (_, v) :: rest => anyLeaf p v || anyLeafFields p rest
end

def isHandler : Json → Bool
  | .handler _ => true
  | _ => false

/-- An integer outside both the signed and the unsigned 64-bit range. -/
def isWide : Json → Bool
  | .int n => !fitsWord n
  | _ => false

/-- The deepest nesting written in the plain compact style. -/
def compactNesting : Nat := 254

def styleFor (indent : Int) (v : Json) : Style :=
  if 0 < indent then .indented indent.toNat
  else if indent < 0 || v.anyLeaf isHandler then .portable
  else if v.anyLeaf isWide || compactNesting < v.nesting then .compactWide
  else .compact

def encodeChars (v : Json) (indent : Int) : List Char := write (styleFor indent v) 0 v []

/-- The JSON text of a value. -/
def encode (v : Json) (indent : Int) : String := String.ofList (encodeChars v indent)

/-- The length of the compact text; nothing for null and empty scalars. -/
def serializedSize (v : Json) : Nat :=
  match v with
  | .arr _ => (encodeChars v 0).length
  | .obj _ => (encodeChars v 0).length
  | _ => if v.truthy then (encodeChars v 0).length else 0

example : encodeChars (.obj [("a", .arr [.int 1, .str "\n"]), ("b", .obj [])]) 0 =
    "\x7b\"a\":[1,\"\\n\"],\"b\":\x7b\x7d\x7d".toList := by decide
example : encodeChars (.arr [.int 1, .arr []]) 2 = "[\n  1,\n  []\n]".toList := by decide
example : encodeChars (.str "é") (-1) = "\"\\u00e9\"".toList := by decide +kernel

end ViewTree.Json
