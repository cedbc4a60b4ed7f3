import ViewTree.Json.Shown
import ViewTree.Text.Fold

/-
  ViewTree.Telemetry.Record — log records and the levels that admit them.

  A record names the component it comes from, the event and the event's fields. A log is
  read from a level on. Level names are taken in any case, three of them have a second
  name, and a name that is none stands for the information level.

  - `Record.written`: a record as a log line shows it.
  - `Record.mentions`: what its line for a reader holds.
  - `Record.clash?`: a field that bears the name of a part of the line keeps the record
    from being written.
-/

namespace ViewTree.Telemetry

inductive Level where
  | debug
  | info
  | warning
  | error
  | critical
deriving DecidableEq, Repr

namespace Level

def rank : Level → Nat
  | debug => 10
  | info => 20
  | warning => 30
  | error => 40
  | critical => 50

def name : Level → String
  | debug => "DEBUG"
  | info => "INFO"
  | warning => "WARNING"
  | error => "ERROR"
  | critical => "CRITICAL"

/-- Whether a log read from `threshold` on shows a record of level `l`. -/
def admits (threshold l : Level) : Bool := threshold.rank ≤ l.rank

/-- The level of a name. -/
def ofName (s : String) : Level :=
  let word := Text.upper s
  if word = "DEBUG" then debug
  else if word = "WARNING" || word = "WARN" || word = "NOTSET" then warning
  else if word = "ERROR" then error
  else if word = "CRITICAL" || word = "FATAL" then critical
  else info

/-- The one name that is set aside for the form of a line. -/
def formName : String := "BASIC_FORMAT"

/-- What that name stands for. -/
def form : String := "%(levelname)s:%(name)s:%(message)s"

/-- The level a log is read from, by name; a name that stands for a text names none. -/
def ofSetting (s : String) : Except String Level :=
  if Text.upper s = formName then .error form else .ok (ofName s)

/-- What is said about a text that is no level. -/
def unknownMessage (text : String) : String :=
  "Unknown level: " ++ String.ofList (Text.quoted text.toList [])

end Level

structure Record where
  level : Level
  source : String
  event : String
  fields : Fields
deriving DecidableEq

/-! ## Lines -/

mutual
/-- A value with its handlers written as texts. -/
def lineValue : Json → Json
  | .handler h => .str h.text
  | .arr items => .arr (lineItems items)
  | .obj fields => .obj (lineFields fields)
  | v => v

def lineItems : List Json → List Json
  | [] => []
  | v :: rest => lineValue v :: lineItems rest

def lineFields : List (String × Json) → List (String × Json)
  | [] => []
  | (k, v) :: rest => (k, lineValue v) :: lineFields rest
end

namespace Record

/-- Fields that a line fills itself or that only say how it is written. -/
def ownFields : List String :=
  ["event", "level", "logger", "timestamp", "duration_ms", "exc_info", "stack_info", "stacklevel",
    "positional_args"]

/-- Fields with a leading underscore are private. -/
def isPrivate (name : String) : Bool := name.toList.head? = some '_'

/-- The parts of a line, whose names no field may bear. -/
def parts : List String :=
  ["name", "msg", "args", "levelname", "levelno", "pathname", "filename", "module", "exc_text",
    "lineno", "funcName", "created", "msecs", "relativeCreated", "thread", "threadName",
    "processName", "process", "message", "asctime"]

/-- The first field that bears the name of a part of the line. -/
def clash? (r : Record) : Option String := r.fields.keys.find? fun k => parts.contains k

/-- What is said about such a field, as a quoted text. -/
def clashMessage (field : String) : String :=
  String.ofList (Text.quoted ("Attempt to overwrite '" ++ field ++ "' in LogRecord").toList [])

/-- The record as its line shows it. -/
def written (r : Record) : Record :=
  let shown := r.fields.filter fun f => !ownFields.contains f.1 && !isPrivate f.1
  { r with fields := lineFields shown }

/-! ## Lines for a reader -/

/-- A word occurs somewhere in a text. -/
def occurs (word : List Char) : List Char → Bool
  | [] => word.isEmpty
  | c :: r => word.isPrefixOf (c :: r) || occurs word r

/-- The texts that the line of a record for a reader is made of. -/
def pieces (r : Record) : List String :=
  [r.source, r.level.name, Text.lower r.level.name, r.event] ++
    r.fields.flatMap fun f => [f.1, f.2.shown]

/-- Whether a word occurs in the line of a record for a reader. -/
def mentions (r : Record) (word : String) : Bool :=
  r.pieces.any fun piece => occurs word.toList piece.toList

/-- The line of a record for a reader, broken where its event is. -/
def lineCount (r : Record) : Nat := 1 + r.event.toList.count '\n'

end Record

/-- Whether a word occurs in what a reader is shown. -/
def mentioned (rs : List Record) (word : String) : Bool :=
  word = "" || rs.any fun r => r.mentions word

end ViewTree.Telemetry
