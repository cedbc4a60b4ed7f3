import ViewTree.Json.Repair.Text

/-
  ViewTree.Json.Repair.Scalar — bare words, numbers and comments in damaged documents.

  A word for true, false or null counts in any case, unless a letter, a digit or a quote
  follows it: then it starts a text. A number is the longest run of characters that
  numbers are written with; a run that is no number stays a text, and one that runs into
  a letter is the start of a text. Outside a list a comma belongs to such a run, unless it
  ends it.
-/

namespace ViewTree.Json.Repair

/-- What a bare word stands for at its start. -/
def words : List (List Char × Json) :=
  [("true".toList, .bool true), ("false".toList, .bool false), ("null".toList, .null),
    ("none".toList, .null)]

/-- Whether a word can end before these characters. -/
def endsWord (rest : List Char) : Bool :=
  !rest.head?.any fun c => isLetterOrDigit c || isQuote c || c = '_'

/-- The value of a word that a text starts with, and what follows the word. -/
def word? (cs : List Char) : Option (Json × List Char) :=
  words.findSome? fun (word, value) =>
    let rest := cs.drop word.length
    if (cs.take word.length).map Char.toLower = word && endsWord rest then some (value, rest)
    else none

/-- A text, or the word it starts with where it has no quotes and is no key. -/
def looseTextOrWord (path : Path) (fuel : Nat) (cs : List Char) : Json × List Char :=
  let start := cs.dropWhile fun c => !isQuote c && !isLetterOrDigit c
  match if path.isAt .key then none else word? start with
  | some found => found
  | none =>
    let (text, rest) := looseText path fuel start
    (.str (String.ofList text), rest)

/-! ## Numbers -/

def inNumber (c : Char) : Bool :=
  c.isDigit || c = '-' || c = '+' || c = '.' || c = 'e' || c = 'E' || c = '/' || c = ',' ||
    c = '_'

/-- What no number ends with. -/
def endsNoNumber (c : Char) : Bool :=
  c = '-' || c = '+' || c = 'e' || c = 'E' || c = '/' || c = ','

/-- The digits of a whole number, leading zeros allowed. -/
def wholeNumber? (negative : Bool) (digits : List Char) : Option Json :=
  if digits.isEmpty || !digits.all Char.isDigit || Text.maxDigits < digits.length then none
  else
    let n : Int := Nat.ofDigitChars 10 digits 0
    some (.int (if negative then -n else n))

/-- A decimal, digits allowed to be missing on one side of the point. -/
def decimalNumber? (negative : Bool) (cs : List Char) : Option Json :=
  let (whole, r) := spanDigits cs
  let (fraction, r) := match r with
    | '.' :: r => spanDigits r
    | r => ([], r)
  if whole.isEmpty && fraction.isEmpty then none
  else
    match readExponent r with
    | some (e, []) =>
      (decimal .lenient negative (whole ++ fraction) (e.getD 0 - fraction.length)).toOption
    | _ => none

/-- The number a run of characters stands for. -/
def number? (run : List Char) : Option Json :=
  let (negative, digits) := match run with
    | '-' :: r => (true, r)
    | r => (false, r)
  if run.contains ',' then none
  else if run.any fun c => c = '.' || c = 'e' || c = 'E' then decimalNumber? negative digits
  else wholeNumber? negative digits

/-- A number, or the text that stands in its place. -/
def looseNumber (path : Path) (fuel : Nat) (cs : List Char) : Json × List Char :=
  let counts (c : Char) : Bool := inNumber c && !(path.isAt .item && c = ',')
  let run := cs.takeWhile counts
  let rest := cs.dropWhile counts
  if rest.head?.any isLetter then looseTextOrWord path fuel cs
  else
    let (run, rest) := match run.getLast? with
      | some c => if endsNoNumber c then (run.dropLast, c :: rest) else (run, rest)
      | none => (run, rest)
    let plain := run.filter (· != '_')
    ((number? plain).getD (.str (String.ofList plain)), rest)

/-! ## Comments -/

/-- Behind the end of a block comment; the star that opens it may also close it. -/
def afterBlock : List Char → List Char
  | '*' :: '/' :: r => r
  | _ :: r => afterBlock r
  | [] => []

/-- Behind a comment: to the end of its line, or to what ends the place it stands in. -/
def skipComment (path : Path) (cs : List Char) : List Char :=
  let ends (c : Char) : Bool :=
    c = '\n' || c = '\r' || (path.contains .item && c = ']') ||
      (path.contains .value && c = '\x7d') || (path.contains .key && c = ':')
  match cs with
  | '#' :: r => r.dropWhile (!ends ·)
  | '/' :: '/' :: r => r.dropWhile (!ends ·)
  | '/' :: '*' :: r => afterBlock ('*' :: r)
  | _ :: r => r
  | [] => []

def startsComment (c : Char) : Bool := c = '#' || c = '/'

example : looseNumber [.value] 9 "1,b:2\x7d".toList = (.str "1", ",b:2\x7d".toList) := by
  decide +kernel
example : looseTextOrWord [.item] 9 "true]".toList = (.bool true, [']']) := by decide +kernel
example : looseTextOrWord [.item] 9 "truly]".toList = (.str "truly", [']']) := by
  decide +kernel
example : looseNumber [.value] 9 ".5\x7d".toList =
    (.real (.ofDecimal false 5 (-1)), ['\x7d']) := by decide +kernel

end ViewTree.Json.Repair
