import ViewTree.Json.Repair.Scalar

/-
  ViewTree.Json.Repair — a forgiving reader for damaged documents.

  It never fails. What it mends:
  - commas too many or too few between members, and a missing colon: the character in
    its place is dropped, and a missing value is the empty text;
  - brackets left open at the end, a list closed by a brace or by the next key of the
    object around it, and an object in a list closed by the bracket of the list;
  - texts without quotes or with a quote too few, and quotes inside a text;
  - keys and words without quotes, numbers in loose notation, comments.
  An object that turns out to hold no field is read as a list, unless it is blank. In a
  list, a key that comes again starts another object where no comma separates it from the
  field before. A list where a key should be continues the list before it. Behind the
  outermost object a comma and a quote bring further fields of it. Of several documents in
  a row a later one takes the place of the one before it if that was empty or has the same
  form; what remains becomes a list. Documents that escape half a surrogate pair are outside
  the domain, since no text holds one.
-/

namespace ViewTree.Json

/-! ## Form -/

mutual
/-- Whether two values have the same constructors throughout, with the same keys. -/
def sameForm : Json → Json → Bool
  | .null, .null => true
  | .bool _, .bool _ => true
  | .int _, .int _ => true
  | .real _, .real _ => true
  | .str _, .str _ => true
  | .arr xs, .arr ys => sameForms xs ys
  | .obj fs, .obj gs => fs.length == gs.length && sameFieldForms fs gs
  | .handler _, .handler _ => true
  | _, _ => false

def sameForms : List Json → List Json → Bool
  | [], [] => true
  | x :: xs, y :: ys => sameForm x y && sameForms xs ys
  | _, _ => false

def sameFieldForms : List (String × Json) → Fields → Bool
  | [], _ => true
  | (k, v) :: rest, gs =>
    (match Fields.get? k gs with
      | some w => sameForm v w
      | none => false) && sameFieldForms rest gs
end

/-- The empty text, list or object. -/
def isHollow : Json → Bool
  | .str s => s == ""
  | .arr items => items.isEmpty
  | .obj fields => fields.isEmpty
  | _ => false

namespace Repair

/-- What was read, the places that are open behind it, and what follows it. A key that
    has no value leaves its place open, and the next end of a place closes that one. -/
structure Mended (α : Type) where
  value : α
  path : Path
  rest : List Char

def Mended.map {α β : Type} (f : α → β) (m : Mended α) : Mended β :=
  ⟨f m.value, m.path, m.rest⟩

/-- A key, the fields before it, and the text from its start on. -/
structure KeyFound where
  fields : Fields
  key : String
  start : List Char

/-! ## Keys -/

/-- A key, which may be empty, or a comment in its place. -/
def looseKey (path : Path) (fuel : Nat) (cs : List Char) : List Char × List Char :=
  let (key, rest) :=
    if cs.head?.any startsComment then ([], skipComment path cs) else looseText path fuel cs
  (key, if key.isEmpty then skipBlank rest else rest)

/-- Blanks, and a colon that comes too early. -/
def beforeKey (cs : List Char) : List Char :=
  match skipBlank cs with
  | ':' :: r => r
  | r => r

/-- A comma or a stray quote behind a value. -/
def afterValue : List Char → List Char
  | c :: r => if c = ',' || c = '\'' || c = '"' then r else c :: r
  | [] => []

/-- Blanks and commas behind an item. -/
def afterItem (cs : List Char) : List Char :=
  cs.dropWhile fun c => Text.isBlank c || c = ','

/-- Blanks and one comma behind a further list. -/
def afterMore (cs : List Char) : List Char :=
  match skipBlank cs with
  | ',' :: r => skipBlank r
  | r => r

/-- The last field, where that holds a list. -/
def lastList? (fields : Fields) : Option (String × List Json) :=
  match fields.getLast? with
  | some (key, .arr items) => if key = "" then none else some (key, items)
  | _ => none

/-- Whether a key that comes again still belongs to its object: a comma stands before it,
    by itself or as the last of `skipped`, and a quoted key with its colon follows. -/
def isSeparate (comma : Bool) (skipped start afterKey : List Char) : Bool :=
  start.head?.any isQuote && afterKey.head? = some ':' &&
    match trimEnd skipped.reverse with
    | c :: _ => c = ','
    | [] => comma

/-! ## Lists -/

/-- The items that a further list brings: those of its only item, if that is a list. -/
def flattened : List Json → List Json
  | [.arr items] => items
  | items => items

def isList : Json → Bool
  | .arr _ => true
  | _ => false

def isObject : Json → Bool
  | .obj _ => true
  | _ => false

/-- The length of the rows in a list, where it holds some and all have the same. -/
def width? (items : List Json) : Option Nat :=
  let widths := items.filterMap fun
    | .arr row => some row.length
    | _ => none
  match widths with
  | n :: rest => if n != 0 && rest.all (· == n) then some n else none
  | [] => none

/-- Cells in rows of one length, if that divides their number. -/
def inRows (n : Nat) (cells : List Json) : List Json :=
  if cells.length % n == 0 then
    (List.range (cells.length / n)).map fun i => .arr ((cells.drop (i * n)).take n)
  else cells

/-- A list with a further one behind it. In a table the cells at the end make rows, and the
    further list is a row or holds rows; otherwise it brings its items. -/
def continued (items more : List Json) : List Json :=
  match width? items with
  | none => items ++ flattened more
  | some n =>
    let cells := (items.reverse.takeWhile (!isList ·)).reverse
    let rows := items.take (items.length - cells.length) ++ inRows n cells
    if more.all isList then rows ++ more else rows ++ [.arr more]

/-- Whether a text in a list is a key. -/
def startsField (quote : Char) (cs : List Char) : Bool :=
  (skipBlank ((seek quote cs).drop 1)).head? = some ':'

/-- Whether a key in a list belongs to the object around it: the list has items, none of
    them an object. Otherwise the key starts an object without its brace. -/
def endsList (path : Path) (found : List Json) : Bool :=
  !found.isEmpty && Path.isAt (path.drop 1) .value && !found.any isObject

/-- An empty value counts as an item only before a comma or the end of its list. -/
def isItem (value : Json) (rest : List Char) : Bool :=
  !value.isHollow || (skipBlank rest).head?.any fun c => c = ',' || c = ']'

/-- Behind an object in a list one brace too many is dropped. -/
def afterObject (path : Path) : List Char → List Char
  | c :: r => if c = '\x7d' && path.isAt .item then r else c :: r
  | [] => []

/-- Three points without quotes, which stand for items left out. -/
def isEllipsis (v : Json) (cs rest : List Char) : Bool :=
  v == .str "..." && (cs.take (cs.length - rest.length)).getLast? == some '.'

/-! ## Values -/

mutual
/-- The next value. Inside an object or a list anything counts, outside only those. -/
def mendValue : Nat → Path → List Char → Mended Json
  | 0, path, cs => ⟨.str "", path, cs⟩
  | _, path, [] => ⟨.str "", path, []⟩
  | fuel + 1, path, c :: r =>
    if c = '\x7b' then mendObject fuel path r
    else if c = '[' then (mendList fuel path r).map .arr
    else if !path.isEmpty && (isQuote c || isLetter c) then
      let (value, rest) := looseTextOrWord path fuel (c :: r)
      ⟨value, path, rest⟩
    else if !path.isEmpty && (c.isDigit || c = '-' || c = '.') then
      let (value, rest) := looseNumber path fuel (c :: r)
      ⟨value, path, rest⟩
    else if startsComment c then
      if path.isEmpty then mendValue fuel path (skipComment path (c :: r))
      else ⟨.str "", path, skipComment path (c :: r)⟩
    else mendValue fuel path r

/-- What follows an opening brace. -/
def mendObject : Nat → Path → List Char → Mended Json
  | 0, path, cs => ⟨.obj [], path, cs⟩
  | fuel + 1, path, cs =>
    let body := skipBlank cs
    let ⟨fields, path, rest⟩ := mendFields fuel path false [] body
    if fields.isEmpty && rest.length < body.length && rest.length + 2 ≤ cs.length then
      (mendList fuel path cs).map .arr
    else if !path.isEmpty then ⟨.obj fields, path, afterObject path (rest.drop 1)⟩
    else
      match skipBlank (rest.drop 1) with
      | ',' :: r =>
        if (skipBlank r).head?.any isQuote then
          match mendObject fuel path (skipBlank r) with
          | ⟨.obj more, path, rest⟩ => ⟨.obj (Fields.merge fields more), path, rest⟩
          | ⟨_, path, rest⟩ => ⟨.obj fields, path, rest⟩
        else ⟨.obj fields, path, skipBlank r⟩
      | r => ⟨.obj fields, path, r⟩

/-- Fields up to the closing brace, which is left; `comma` tells whether one stands before
    them. -/
def mendFields : Nat → Path → Bool → Fields → List Char → Mended Fields
  | 0, path, _, fields, cs => ⟨fields, path, cs⟩
  | _, path, _, fields, [] => ⟨fields, path, []⟩
  | fuel + 1, path, comma, fields, c :: r =>
    if c = '\x7d' then ⟨fields, path, c :: r⟩
    else
      let ⟨⟨fields, key, start⟩, path, rest⟩ :=
        mendKey fuel (.key :: path) fields (beforeKey (c :: r))
      let rest := skipBlank rest
      let skipped := (c :: r).take (r.length + 1 - start.length)
      if path.contains .item && fields.has key && !isSeparate comma skipped start rest then
        ⟨fields, path, '\x7d' :: '\x7b' :: start⟩
      else if rest.isEmpty || rest.head? = some '\x7d' then ⟨fields, path, rest⟩
      else
        let path := .value :: path.drop 1
        let rest := skipBlank (rest.drop 1)
        let ⟨value, path, rest⟩ :=
          if rest.head? = some ',' || rest.head? = some '\x7d' then ⟨.str "", path, rest⟩
          else mendValue fuel path rest
        let path := path.drop 1
        let fields := Fields.put key value fields
        let comma := rest.head? = some ','
        let rest := afterValue rest
        if path.contains .item && rest.head? = some ']' then ⟨fields, path, '\x7d' :: rest⟩
        else mendFields fuel path comma fields (skipBlank rest)

/-- The next key; an empty one counts before a colon or a brace. A list in its place
    continues the list in the field before. -/
def mendKey : Nat → Path → Fields → List Char → Mended KeyFound
  | 0, path, fields, cs => ⟨⟨fields, "", cs⟩, path, cs⟩
  | _, path, fields, [] => ⟨⟨fields, "", []⟩, path, []⟩
  | fuel + 1, path, fields, c :: r =>
    match if c = '[' then lastList? fields else none with
    | some (key, items) =>
      let ⟨more, path, rest⟩ := mendList fuel path r
      mendKey fuel path (Fields.put key (.arr (continued items more)) fields) (afterMore rest)
    | none =>
      let (key, rest) := looseKey path fuel (c :: r)
      if !key.isEmpty || rest.head?.any (fun d => d = ':' || d = '\x7d') then
        ⟨⟨fields, String.ofList key, c :: r⟩, path, rest⟩
      else mendKey fuel path fields rest

/-- What follows an opening bracket. -/
def mendList : Nat → Path → List Char → Mended (List Json)
  | 0, path, cs => ⟨[], path, cs⟩
  | fuel + 1, path, cs =>
    let ⟨items, path, rest⟩ := mendItems fuel (.item :: path) [] cs
    ⟨items, path.drop 1, rest.drop 1⟩

/-- Items up to the closing bracket or what stands in its place, which is left; those
    found before come in reverse. -/
def mendItems : Nat → Path → List Json → List Char → Mended (List Json)
  | 0, path, found, cs => ⟨found.reverse, path, cs⟩
  | _, path, found, [] => ⟨found.reverse, path, []⟩
  | fuel + 1, path, found, c :: r =>
    if c = ']' || c = '\x7d' then ⟨found.reverse, path, c :: r⟩
    else if isQuote c && startsField c r && endsList path found then
      ⟨found.reverse, path, ']' :: c :: r⟩
    else
      let ⟨value, path, rest⟩ :=
        if !isQuote c then mendValue fuel path (skipBlank (c :: r))
        else if startsField c r then mendObject fuel path (c :: r)
        else
          let (value, rest) := looseTextOrWord path fuel (c :: r)
          ⟨value, path, rest⟩
      if !isItem value rest then mendItems fuel path found (afterItem (rest.drop 1))
      else if isEllipsis value (c :: r) rest then mendItems fuel path found (afterItem rest)
      else mendItems fuel path (value :: found) (afterItem rest)
end

/-! ## Documents -/

/-- Enough steps for a text: each reads a character or goes one level down. -/
def steps (cs : List Char) : Nat := 4 * cs.length + 8

/-- The documents that follow others, the last one first. -/
def mendNext : Nat → Path → List Json → List Char → List Json
  | 0, _, found, _ => found
  | _, _, found, [] => found
  | fuel + 1, path, found, c :: r =>
    let ⟨value, path, rest⟩ := mendValue (steps (c :: r)) (path.drop 1) (c :: r)
    let kept := match found with
      | last :: before => if sameForm last value || !last.truthy then before else found
      | [] => []
    if value.truthy then mendNext fuel path (value :: kept) rest
    else mendNext fuel path found (rest.drop 1)

/-- The value of a damaged document. -/
def repair (cs : List Char) : Json :=
  let ⟨value, path, rest⟩ := mendValue (steps cs) [] cs
  match mendNext (cs.length + 1) path [value] rest with
  | [v] => v
  | vs => .arr vs.reverse

end Repair

end ViewTree.Json
