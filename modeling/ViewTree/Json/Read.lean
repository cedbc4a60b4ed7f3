import ViewTree.Json.Basic
import ViewTree.Text.Digit

/-
  ViewTree.Json.Read — JSON values from text.

  One reader serves three dialects, which differ in what a number may be:
  - `strict`: an integer outside the 64-bit range becomes a double;
  - `exact`: every integer keeps its value, and none has more than `Text.maxDigits` digits;
  - `lenient`: as `exact`, and there are infinities and NaN, as words or by overflow. An
    integer with too many digits is a flaw of its own here, found where the reader
    meets it.
  In all of them a raw control character ends a string with an error, a lone surrogate
  escape is an error (a text that holds one is outside the domain of the lenient reader),
  and of two fields with one key the later value stands at the first place. Every step
  consumes a character, so the length of the text is enough fuel for the whole of it.
-/

namespace ViewTree.Json

structure Dialect where
  /-- Integers outside the 64-bit range become doubles. -/
  wideAsDouble : Bool
  /-- Infinities and NaN are numbers. -/
  nonFinite : Bool

namespace Dialect
def strict : Dialect := ⟨true, false⟩
def exact : Dialect := ⟨false, false⟩
def lenient : Dialect := ⟨false, true⟩
end Dialect

/-- Why a text could not be read. -/
inductive Flaw where
  | malformed
  /-- An integer with this many digits. -/
  | longInteger (digits : Nat)
deriving DecidableEq, Repr

/-- What a reader gives: a value and the rest of the text. -/
abbrev Reading (α : Type) := Except Flaw (α × List Char)

/-- A reading with its value changed. -/
def Reading.map {α β : Type} (f : α → β) : Reading α → Reading β
  | .ok (a, r) => .ok (f a, r)
  | .error flaw => .error flaw

def isSpace (c : Char) : Bool := c = ' ' || c = '\n' || c = '\t' || c = '\r'

def skipSpace (cs : List Char) : List Char := cs.dropWhile isSpace

/-! ## Numbers -/

def spanDigits (cs : List Char) : List Char × List Char :=
  (cs.takeWhile Char.isDigit, cs.dropWhile Char.isDigit)

/-- A sign in front of digits. -/
def readSign : List Char → Bool × List Char
  | '-' :: r => (true, r)
  | '+' :: r => (false, r)
  | r => (false, r)

/-- The digits after a point, if there is a point. -/
def readFraction : List Char → Option (Option (List Char) × List Char)
  | '.' :: r =>
    match spanDigits r with
    | ([], _) => none
    | (ds, r') => some (some ds, r')
  | r => some (none, r)

/-- The value after an exponent mark, if there is a mark. -/
def readExponent (cs : List Char) : Option (Option Int × List Char) :=
  match cs with
  | [] => some (none, [])
  | c :: r =>
    if c = 'e' || c = 'E' then
      let (negative, r) := readSign r
      match spanDigits r with
      | ([], _) => none
      | (ds, r') =>
        let n : Int := Nat.ofDigitChars 10 ds 0
        some (some (if negative then -n else n), r')
    else some (none, cs)

/-- The value of an integer literal. -/
def integer (d : Dialect) (negative : Bool) (digits : List Char) : Except Flaw Json :=
  let n := Nat.ofDigitChars 10 digits 0
  let value : Int := if negative then -(n : Int) else n
  if d.wideAsDouble then
    if fitsWord value then .ok (.int value)
    else if (Double.ofInt value).isFinite then .ok (.real (Double.ofInt value))
    else .error .malformed
  else if digits.length ≤ Text.maxDigits then .ok (.int value)
  else .error (if d.nonFinite then .longInteger digits.length else .malformed)

/-- The value of a decimal literal. -/
def decimal (d : Dialect) (negative : Bool) (digits : List Char) (exponent : Int) :
    Except Flaw Json :=
  let x := Double.ofDecimal negative (Nat.ofDigitChars 10 digits 0) exponent
  if x.isFinite || d.nonFinite then .ok (.real x) else .error .malformed

/-- A value with the rest of the text behind it. -/
def before (r : List Char) : Except Flaw Json → Reading Json
  | .ok v => .ok (v, r)
  | .error flaw => .error flaw

/-- A number whose sign is read. -/
def readUnsigned (d : Dialect) (negative : Bool) (cs : List Char) : Reading Json :=
  match spanDigits cs with
  | ([], _) => .error .malformed
  | (whole, r) =>
    if whole.head? = some '0' && 1 < whole.length then .error .malformed
    else
      match readFraction r with
      | none => .error .malformed
      | some (fraction, r) =>
        match readExponent r with
        | none => .error .malformed
        | some (none, r) =>
          match fraction with
          | none => before r (integer d negative whole)
          | some ds => before r (decimal d negative (whole ++ ds) (-(ds.length : Int)))
        | some (some e, r) =>
          let ds := fraction.getD []
          before r (decimal d negative (whole ++ ds) (e - ds.length))

/-- The rest of a text after a word it starts with. -/
def dropWord (word cs : List Char) : Option (List Char) :=
  if word.isPrefixOf cs then some (cs.drop word.length) else none

/-- A value that is spelled as a word. -/
def readWord (word : String) (value : Json) (cs : List Char) : Reading Json :=
  match dropWord word.toList cs with
  | some r => .ok (value, r)
  | none => .error .malformed

def readNumber (d : Dialect) : List Char → Reading Json
  | '-' :: r =>
    match d.nonFinite, dropWord "Infinity".toList r with
    | true, some r' => .ok (.real (Double.infinity true), r')
    | _, _ => readUnsigned d true r
  | r => readUnsigned d false r

/-! ## Strings -/

def hexDigit? (c : Char) : Option Nat :=
  if c.isDigit then some (c.toNat - '0'.toNat)
  else if 'a' ≤ c && c ≤ 'f' then some (c.toNat - 'a'.toNat + 10)
  else if 'A' ≤ c && c ≤ 'F' then some (c.toNat - 'A'.toNat + 10)
  else none

/-- The 16-bit unit of four hexadecimal digits. -/
def unit? (a b c d : Char) : Option Nat :=
  match hexDigit? a, hexDigit? b, hexDigit? c, hexDigit? d with
  | some a, some b, some c, some d => some (((a * 16 + b) * 16 + c) * 16 + d)
  | _, _, _, _ => none

def isHighUnit (n : Nat) : Bool := 0xd800 ≤ n && n < 0xdc00
def isLowUnit (n : Nat) : Bool := 0xdc00 ≤ n && n < 0xe000

/-- The character of a high and a low unit. -/
def joinUnits (high low : Nat) : Char :=
  Char.ofNat (0x10000 + (high - 0xd800) * 0x400 + (low - 0xdc00))

/-- The character of a one letter escape. -/
def shortEscape? (c : Char) : Option Char :=
  if c = '"' then some '"'
  else if c = '\\' then some '\\'
  else if c = '/' then some '/'
  else if c = 'n' then some '\n'
  else if c = 'r' then some '\r'
  else if c = 't' then some '\t'
  else if c = 'b' then some '\x08'
  else if c = 'f' then some '\x0c'
  else none

/-- The characters up to the closing quote, collected in reverse. -/
def readText (acc : List Char) : List Char → Reading (List Char)
  | [] => .error .malformed
  | '"' :: r => .ok (acc.reverse, r)
  | '\\' :: 'u' :: a :: b :: c :: d :: r =>
    match unit? a b c d with
    | none => .error .malformed
    | some n =>
      if isHighUnit n then
        match r with
        | '\\' :: 'u' :: a' :: b' :: c' :: d' :: r' =>
          match unit? a' b' c' d' with
          | none => .error .malformed
          | some m => 
            if isLowUnit m then readText (joinUnits n m :: acc) r' else .error .malformed
        | _ => .error .malformed
      else if isLowUnit n then .error .malformed
      else readText (Char.ofNat n :: acc) r
  | '\\' :: c :: r =>
    match shortEscape? c with
    | none => .error .malformed
    | some e => readText (e :: acc) r
  | c :: r => if c.toNat < 0x20 || c = '\\' then .error .malformed else readText (c :: acc) r

/-! ## Values -/

mutual
def readValue (d : Dialect) : Nat → List Char → Reading Json
  | 0, _ => .error .malformed
  | fuel + 1, cs =>
    match skipSpace cs with
    | [] => .error .malformed
    | '\x7b' :: r =>
      match skipSpace r with
      | '\x7d' :: r => .ok (.obj [], r)
      | r => (readFields d fuel r).map fun fs => .obj (Fields.ofPairs fs)
    | '[' :: r =>
      match skipSpace r with
      | ']' :: r => .ok (.arr [], r)
      | r => (readItems d fuel r).map Json.arr
    | '"' :: r => (readText [] r).map fun s => .str (String.ofList s)
    | 't' :: r => readWord "rue" (.bool true) r
    | 'f' :: r => readWord "alse" (.bool false) r
    | 'n' :: r => readWord "ull" .null r
    | 'N' :: r =>
      if d.nonFinite then readWord "aN" (.real Double.nan) r else .error .malformed
    | 'I' :: r =>
      if d.nonFinite then readWord "nfinity" (.real (Double.infinity false)) r
      else .error .malformed
    | r => readNumber d r

/-- Items up to the closing bracket; at least one. -/
def readItems (d : Dialect) : Nat → List Char → Reading (List Json)
  | 0, _ => .error .malformed
  | fuel + 1, cs =>
    match readValue d fuel cs with
    | .error flaw => .error flaw
    | .ok (v, r) =>
      match skipSpace r with
      | ',' :: r => (readItems d fuel r).map fun vs => v :: vs
      | ']' :: r => .ok ([v], r)
      | _ => .error .malformed

/-- Fields up to the closing brace; at least one. -/
def readFields (d : Dialect) : Nat → List Char → Reading (List (String × Json))
  | 0, _ => .error .malformed
  | fuel + 1, cs =>
    match skipSpace cs with
    | '"' :: r =>
      match readText [] r with
      | .error flaw => .error flaw
      | .ok (k, r) =>
        match skipSpace r with
        | ':' :: r =>
          match readValue d fuel r with
          | .error flaw => .error flaw
          | .ok (v, r) =>
            match skipSpace r with
            | ',' :: r => (readFields d fuel r).map fun fs => (String.ofList k, v) :: fs
            | '\x7d' :: r => .ok ([(String.ofList k, v)], r)
            | _ => .error .malformed
        | _ => .error .malformed
    | _ => .error .malformed
end

/-- The value of a text that holds one value and nothing else, or why it has none. -/
def read (d : Dialect) (cs : List Char) : Except Flaw Json :=
  match readValue d (cs.length + 1) cs with
  | .ok (v, r) => if (skipSpace r).isEmpty then .ok v else .error .malformed
  | .error flaw => .error flaw

/-- The value of a text that holds one value and nothing else. -/
def read? (d : Dialect) (cs : List Char) : Option Json := (read d cs).toOption

/-- The deepest nesting a strict document may have. -/
def strictNesting : Nat := 1024

/-- A document in the strict dialect. -/
def decode? (cs : List Char) : Option Json :=
  match read? .strict cs with
  | some v => if v.nesting ≤ strictNesting then some v else none
  | none => none

/-- A strict document in bytes, which must be well-formed UTF-8. -/
def decodeBytes? (bytes : ByteArray) : Option Json :=
  (String.fromUTF8? bytes).bind fun text => decode? text.toList

example : read? .strict "[1, \"a\\u00e9\", \x7b\"k\": null, \"k\": true\x7d]".toList =
    some (.arr [.int 1, .str "aé", .obj [("k", .bool true)]]) := by decide +kernel
example : read? .strict "18446744073709551615".toList = some (.int 18446744073709551615) := by
  decide +kernel
example : read? .exact "01".toList = none := by decide
example : read? .lenient "-Infinity".toList = some (.real (Double.infinity true)) := by
  decide +kernel

end ViewTree.Json
