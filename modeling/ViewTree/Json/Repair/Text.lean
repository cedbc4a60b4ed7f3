import ViewTree.Json.Read
import ViewTree.Text.Blank

/-
  ViewTree.Json.Repair.Text — texts in damaged documents.

  A text may lack either quote, and quotes may stand inside it that were never escaped.
  Where it ends is therefore a guess, made by looking ahead from each character that
  could end it. What is a plausible end depends on the place of the text: a key ends
  before a colon, a value before a comma or a brace, an item before a comma or a
  bracket. Braces that open inside a value also close inside it.

  - `endsAtComma`, `endsAtBrace`: the character ends a value, because no quote that closes
    it follows or because the next member does.
  - `Met`: what the text has met so far, which tells whether a quote or a comma in it counts.
  - `atQuote`: what a quote inside a text means.
  - `looseText`: the text itself.
-/

namespace ViewTree.Json.Repair

/-- What is read inside an object or a list. -/
inductive Place where
  | key
  | value
  | item
deriving DecidableEq, Repr

/-- The places around a text, the innermost first. -/
abbrev Path := List Place

def Path.isAt (path : Path) (p : Place) : Bool := path.head? = some p

/-! ## Characters -/

def isQuote (c : Char) : Bool := c = '"' || c = '\'' || c = '“' || c = '”'

/-- Outside ASCII, everything but blanks and general punctuation counts as a letter. -/
def isLetter (c : Char) : Bool :=
  c.isAlpha ||
    (0x80 ≤ c.toNat && !Text.isBlank c && !(0x2000 ≤ c.toNat && c.toNat < 0x2070))

def isLetterOrDigit (c : Char) : Bool := isLetter c || c.isDigit

/-- The quotes around a text. -/
structure Quotes where
  opening : Char
  closing : Char

/-- The quotes that go with the first character of a text. -/
def Quotes.of (c : Char) : Quotes :=
  if c = '\'' then ⟨'\'', '\''⟩ else if c = '“' then ⟨'“', '”'⟩ else ⟨'"', '"'⟩

def skipBlank (cs : List Char) : List Char := cs.dropWhile Text.isBlank

/-- A text without the blanks at its end, both reversed. -/
def trimEnd (reversed : List Char) : List Char := reversed.dropWhile Text.isBlank

/-- From the first wanted character on that no backslash stands before. -/
def seekWhere (wanted : Char → Bool) (escaped : Bool) : List Char → List Char
  | [] => []
  | c :: r => if wanted c && !escaped then c :: r else seekWhere wanted (c = '\\') r

def seek (c : Char) (cs : List Char) : List Char := seekWhere (· = c) false cs

/-! ## Ends without a quote -/

/-- A key without quotes, and its colon. -/
def startsBareKey (cs : List Char) : Bool :=
  let inWord (c : Char) : Bool := isLetterOrDigit c || c = '_' || c = '-'
  let cs := skipBlank cs
  !(cs.takeWhile inWord).isEmpty && (skipBlank (cs.dropWhile inWord)).head? = some ':'

/-- A key in quotes of any kind, and its colon. -/
def startsQuotedKey (cs : List Char) : Bool :=
  match skipBlank cs with
  | c :: r =>
    isQuote c && (skipBlank ((seek (if c = '“' then '”' else c) r).drop 1)).head? = some ':'
  | [] => false

def startsMember (cs : List Char) : Bool := startsBareKey cs || startsQuotedKey cs

/-- Whether the next two quotes stand around a key. -/
def keyAhead (q : Quotes) (cs : List Char) : Bool :=
  (skipBlank ((seek q.closing ((seek q.opening cs).drop 1)).drop 1)).head? = some ':'

/-- Whether a quote, given what follows it, can only close a value. -/
def closesHere (afterQuote : List Char) : Bool :=
  match skipBlank afterQuote with
  | [] => true
  | c :: _ => c = ',' || c = '\x7d'

/-- Whether the quote that comes next, given what follows it, closes the text rather than
    opening the next key. -/
def closesLater (q : Quotes) (afterQuote : List Char) : Bool :=
  closesHere afterQuote ||
    match seek q.opening (skipBlank afterQuote) with
    | [] => true
    | _ :: r =>
      match skipBlank r with
      | [] => false
      | c :: _ => c != ':'

/-- Without a quote or a colon ahead: the text goes on unless the object closes right
    away. -/
def endsLast (reversed rest : List Char) : Bool :=
  let rest := skipBlank rest
  let brace := seek '\x7d' rest
  if brace.length + 1 < rest.length then false
  else brace.isEmpty || !reversed.contains '\x7b'

/-- Whether a comma ends a value. Where a quote follows that closes the text it does not,
    otherwise it does before a further member; a comma right behind a comma never does. -/
def endsAtComma (q : Quotes) (loose : Bool) (reversed rest : List Char) : Bool :=
  reversed.head? != some ',' &&
    match seek q.closing rest with
    | _ :: afterQuote =>
      (startsBareKey rest && (loose || !closesHere afterQuote)) ||
      (rest.head? != some '\\' &&
        ((reversed.head? = some q.closing && keyAhead q rest) || !closesLater q afterQuote))
    | [] =>
      startsMember rest ||
      ((seek ':' rest).isEmpty && rest.head? != some '\\' && rest.head? != some ',' &&
        endsLast reversed rest)

/-- Whether a brace ends a value. -/
def endsAtBrace (q : Quotes) (reversed rest : List Char) : Bool :=
  match seek q.closing rest with
  | _ :: afterQuote => rest.head? != some '\\' && !closesLater q afterQuote
  | [] => !(seek ':' rest).isEmpty || (rest.head? != some '\\' && endsLast reversed rest)

/-! ## What a text has met -/

/-- What a text has met so far. -/
structure Met where
  /-- A quotation is open, whose own end belongs to the text. -/
  quotation : Bool := false
  /-- A quotation was opened. -/
  strayed : Bool := false
  /-- The braces that are open in a value. -/
  braces : Nat := 0
deriving DecidableEq, Repr

/-- What a text has met once a character joins it. -/
def Met.push (met : Met) (path : Path) (c : Char) : Met :=
  if !path.isAt .value then met
  else if c = '\x7b' then { met with braces := met.braces + 1 }
  else if c = '\x7d' then { met with braces := met.braces - 1 }
  else met

/-- Whether commas and quotes belong to a text: between its braces they do, if it has no
    quotes itself or a quotation was opened in it. -/
def Met.isNested (met : Met) (bare : Bool) : Bool := met.braces != 0 && (bare || met.strayed)

/-- Whether a text ends before a character that is no quote. -/
def endsAt (q : Quotes) (bare : Bool) (path : Path) (met : Met) (reversed : List Char)
    (c : Char) (rest : List Char) : Bool :=
  (bare && path.isAt .key && (c = ':' || Text.isBlank c)) ||
  (bare && path.isAt .item && (c = ']' || c = ',')) ||
  (path.isAt .value && c = ',' && !met.isNested bare &&
    endsAtComma q (bare || met.strayed) reversed rest) ||
  (path.isAt .value && c = '\x7d' && met.braces = 0 && endsAtBrace q reversed rest) ||
  (path.isAt .value && c = '\x7d' && (skipBlank rest).isEmpty) ||
  (c = ']' && path.contains .item && reversed.head? != some q.closing &&
    (seek q.closing rest).isEmpty)

/-! ## Quotes inside a text -/

inductive Verdict where
  /-- The quote closes the text. -/
  | close
  /-- The quote belongs to the text; it may open a quotation, whose own end belongs to the
      text as well. -/
  | keep (opens : Bool)
  /-- The quote opens the next key. -/
  | nextKey
  /-- The quote and its double close the text. -/
  | double
deriving DecidableEq, Repr

/-- From the next quote on, or from the next character that a closing quote may stand
    before in these places. A comma counts until a letter was met. -/
def boundary (q : Quotes) (path : Path) (comma : Bool) : List Char → List Char
  | [] => []
  | c :: r =>
    let comma := comma && !isLetter c
    if c = q.closing || c = q.opening then c :: r
    else if path.contains .key && (c = ':' || c = '\x7d') then c :: r
    else if path.contains .value && c = '\x7d' then c :: r
    else if path.contains .item && (c = ']' || c = ',') then c :: r
    else if comma && path.isAt .value && c = ',' then c :: r
    else boundary q path comma r

/-- From the next colon on, unless a comma, a bracket or a quote comes first. -/
def colonAhead (q : Quotes) (escaped : Bool) : List Char → Bool
  | [] => false
  | c :: r =>
    if c = ':' then true
    else if c = ',' || c = ']' || c = '\x7d' then false
    else if c = q.closing && !escaped then false
    else colonAhead q (c = '\\') r

/-- Whether the quotes up to the end of a list come in pairs, from one of them on. -/
def paired (q : Quotes) : Nat → List Char → Bool
  | 0, _ => false
  | fuel + 1, rest =>
    let next (cs : List Char) : List Char :=
      seekWhere (fun c => c = q.closing || c = ']') false (cs.drop 1)
    if rest.head? != some q.closing then true
    else if (next rest).head? != some q.closing then false
    else paired q fuel (next (next rest))

/-- A quote inside a value, when another one follows at `other`. -/
def insideValue (q : Quotes) (other : List Char) : Verdict :=
  let after := skipBlank (other.drop 1)
  let key := skipBlank ((seek q.closing (((seek q.opening (after.drop 1)).drop 1).drop 1)).drop 1)
  if after.head? = some ',' && key.head? = some ':' then .keep false
  else if colonAhead q false ((seek q.closing (after.drop 1)).drop 1) then .close
  else .keep true

/-- A quote inside a value, when a comma follows it, then `rest`. Once the text holds a
    quotation, only a member behind the comma lets it end here. -/
def beforeComma (q : Quotes) (strayed : Bool) (rest : List Char) : Verdict :=
  if startsBareKey rest then .close
  else if strayed && !startsQuotedKey rest then .keep false
  else
    let after := skipBlank ((seek q.closing rest).drop 1)
    if after.head? = some '\x7d' || after.head? = some ',' then .keep false else .close

/-- A quote inside a text, when another one follows at `other` behind some characters. -/
def insideText (q : Quotes) (path : Path) (between other : List Char) : Verdict :=
  if between.getLast? = some '\\' || between.all Text.isBlank then .close
  else if path.isAt .value then insideValue q other
  else if path.isAt .item then
    if paired q (other.length + 1) other then .keep true else .close
  else .keep false

/-- What a closing quote inside a text means, given what follows it. -/
def atQuote (q : Quotes) (bare doubled strayed : Bool) (path : Path) (rest : List Char) :
    Verdict :=
  if doubled && rest.head? = some q.closing then .double
  else if bare && path.isAt .value then
    match rest.dropWhile fun c => c != q.closing && c != q.opening with
    | _ :: r => if (skipBlank r).head? = some ':' then .nextKey else .close
    | [] => .close
  else
    let next := boundary q path true rest
    if next.head? = some ',' && path.isAt .value then beforeComma q strayed (next.drop 1)
    else if next.head? = some q.closing then
      insideText q path (rest.take (rest.length - next.length)) next
    else .close

/-! ## The text -/

/-- The character of an escape by letter. -/
def looseEscape? (q : Quotes) (c : Char) : Option Char :=
  if c = q.closing || c = '\\' then some c
  else if c = 't' then some '\t'
  else if c = 'n' then some '\n'
  else if c = 'r' then some '\r'
  else if c = 'b' then some '\x08'
  else none

/-- After a backslash made of an escape, quotes and backslashes take its place in turn. -/
def settleEscape (q : Quotes) : List Char → List Char → List Char × List Char
  | '\\' :: acc, c :: r =>
    if c = q.closing || c = '\\' then settleEscape q (c :: acc) r else ('\\' :: acc, c :: r)
  | acc, r => (acc, r)

/-- The low unit of an escape, and what follows it. -/
def lowUnit? : List Char → Option (Nat × List Char)
  | '\\' :: 'u' :: a :: b :: c :: d :: r =>
    ((unit? a b c d).filter isLowUnit).map fun n => (n, r)
  | _ => none

/-- The character of an escape by number, and what follows it: a high unit takes a low one
    behind it along. A unit that remains alone is no character, and outside the domain. -/
def codeEscape? : List Char → Option (Char × List Char)
  | 'u' :: a :: b :: c :: d :: r =>
    (unit? a b c d).map fun n =>
      match if isHighUnit n then lowUnit? r else none with
      | some (low, r) => (joinUnits n low, r)
      | none => (Char.ofNat n, r)
  | 'x' :: a :: b :: r => (unit? '0' '0' a b).map fun n => (Char.ofNat n, r)
  | _ => none

/-- The escape that starts after a backslash. -/
def escape? (q : Quotes) (acc : List Char) : List Char → Option (List Char × List Char)
  | [] => none
  | c :: r =>
    match looseEscape? q c with
    | some e => some (settleEscape q (e :: acc) r)
    | none =>
      match codeEscape? (c :: r) with
      | some (e, r) => some (e :: acc, r)
      | none => if isQuote c then some (c :: acc, r) else none

/-- A colon ends a key whose closing quote is missing. -/
def endsKey (q : Quotes) (rest : List Char) : Bool :=
  match seek q.opening rest with
  | [] => true
  | _ :: r =>
    match seek q.closing r with
    | [] => false
    | _ :: r =>
      match skipBlank r with
      | c :: _ => c = ',' || c = '\x7d'
      | [] => false

/-- The characters of a text, reversed, and the rest from where it ends. -/
def scanText (q : Quotes) (bare doubled : Bool) (path : Path) :
    Nat → Met → List Char → List Char → List Char × List Char
  | 0, _, acc, rest => (acc, rest)
  | _, _, acc, [] => (acc, [])
  | fuel + 1, met, acc, c :: r =>
    if (c = q.closing && !met.isNested bare) || endsAt q bare path met acc c r then
      (acc, c :: r)
    else
      match if c = '\\' then escape? q acc r else none with
      | some (acc, r) => scanText q bare doubled path fuel met acc r
      | none =>
        let met := met.push path c
        match r with
        | [] => (c :: acc, [])
        | d :: r' =>
          if d = ':' && !bare && path.isAt .key && endsKey q r' then (c :: acc, d :: r')
          else if d = q.closing && c != '\\' then
            if met.isNested bare then
              scanText q bare doubled path fuel { met with quotation := !met.quotation }
                (c :: acc) (d :: r')
            else
              let verdict := if met.quotation && !(doubled && r'.head? = some q.closing) &&
                  !(bare && path.isAt .value) then .keep true
                else atQuote q bare doubled met.strayed path r'
              match verdict with
              | .close => (c :: acc, d :: r')
              | .double => (c :: acc, r')
              | .nextKey => (c :: acc, c :: d :: r')
              | .keep opens =>
                let met := { met with
                  quotation := met.quotation != opens
                  strayed := met.strayed || opens }
                scanText q bare doubled path fuel met (d :: c :: acc) r'
          else scanText q bare doubled path fuel met (c :: acc) (d :: r')

/-- A text behind its opening quote, or without one. -/
def textBody (q : Quotes) (bare doubled : Bool) (path : Path) (fuel : Nat) (cs : List Char) :
    List Char × List Char :=
  let (acc, rest) := scanText q bare doubled path fuel {} [] cs
  let stripped := trimEnd acc
  match rest with
  | [] => (stripped.reverse, [])
  | c :: r =>
    if c = q.closing then
      ((if bare || acc.head? = some '\n' then stripped else acc).reverse, r)
    else if bare && path.isAt .key && Text.isBlank c then
      let next := skipBlank r
      if next.head? = some ':' || next.head? = some ',' then (stripped.reverse, next)
      else ([], next)
    else (stripped.reverse, c :: r)

/-- A text behind its opening quote. A second quote may make it empty, or may be one too
    many. -/
def quotedBody (q : Quotes) (path : Path) (fuel : Nat) (cs : List Char) :
    List Char × List Char :=
  match cs with
  | [] => ([], [])
  | c :: r =>
    if c != q.opening then textBody q false false path fuel cs
    else if path.isAt .key && r.head? = some ':' then ([], r)
    else if path.isAt .value && (r.head? = some ',' || r.head? = some '\x7d') then ([], r)
    else if path.isAt .item && (r.head? = some ',' || r.head? = some ']') then ([], r)
    else if r.head? = some q.opening then ([], cs)
    else if ((seek q.closing r).drop 1).head? = some q.closing then
      textBody q false true path fuel r
    else
      match skipBlank r with
      | [] => textBody q false false path fuel r
      | d :: _ =>
        if isQuote d || d = '\x7b' || d = '[' then ([], r)
        else if d = ',' || d = ']' || d = '\x7d' then textBody q false false path fuel cs
        else textBody q false false path fuel r

/-- The text that starts at the next quote, letter or digit, with at least as much fuel
    as there are characters. -/
def looseText (path : Path) (fuel : Nat) (cs : List Char) : List Char × List Char :=
  match cs.dropWhile fun c => !isQuote c && !isLetterOrDigit c with
  | [] => ([], [])
  | c :: r =>
    if isQuote c then quotedBody (Quotes.of c) path fuel r
    else textBody (Quotes.of '"') true false path fuel (c :: r)

example : looseText [.value] 9 "'it\\'s'\x7d".toList = ("it's".toList, ['\x7d']) := by
  decide +kernel
example : looseText [.value] 9 "\"b ,\x7d".toList = (['b'], [',', '\x7d']) := by decide +kernel
example : looseText [.value] 9 "\"\x7bb\x7d,\"c\":1".toList =
    ("\x7bb\x7d".toList, ",\"c\":1".toList) := by decide +kernel
example : looseText [.value] 9 "\"b,c:1\x7d".toList = (['b'], ",c:1\x7d".toList) := by
  decide +kernel
example : looseText [.item] 9 "\"b\x7d".toList = (['b', '\x7d'], []) := by decide +kernel

end ViewTree.Json.Repair
