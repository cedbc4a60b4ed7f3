import ViewTree.Field

/-
  ViewTree.Settings — the engine's settings and where they come from.

  A setting is given by argument or by an environment variable whose name is the
  setting's with `environmentMark` in front, both in any case; an argument replaces the
  variable before either is read. What is given by neither has its default.
-/

namespace ViewTree

structure Settings where
  logLevel : String
  jsonLogs : Bool
  /-- The greatest size of a serialized schema. -/
  maxSchemaSize : Nat
  /-- The deepest nesting of a schema. -/
  maxSchemaDepth : Nat
  /-- The serialized size that counts as a full stream. -/
  progressByteBudget : Nat
  /-- The progress of a stream never exceeds this before it completes. -/
  progressCap : Nat
  /-- Chunks whose sequence number does not increase are dropped. -/
  enforceSequenceOrder : Bool
  /-- The number of schemas kept in the history. -/
  historyLimit : Nat
  rendererVersion : String
  /-- Every child node is validated before it is rendered. -/
  validateChildren : Bool
deriving DecidableEq, Repr

namespace Settings

def default : Settings where
  logLevel := "INFO"
  jsonLogs := false
  maxSchemaSize := 1024 * 1024
  maxSchemaDepth := 64
  progressByteBudget := 10000
  progressCap := 90
  enforceSequenceOrder := true
  historyLimit := 50
  rendererVersion := "0.1.0"
  validateChildren := false

def model : String := "Settings"

def environmentMark : String := "genui_"

def names : List String :=
  ["log_level", "json_logs", "max_schema_size", "max_schema_depth", "progress_byte_budget",
    "progress_cap", "enforce_sequence_order", "history_limit", "renderer_version",
    "validate_children"]

/-- The value of a setting in an environment, the last one of several spellings. -/
def inEnvironment? (name : String) (environment : List (String × String)) : Option Json :=
  (environment.reverse.find? fun v => v.1.toLower = environmentMark ++ name).map fun v => .str v.2

/-- The argument for a setting, the first one of several spellings. -/
def argument? (name : String) (arguments : Fields) : Option Json :=
  (arguments.find? fun f => f.1.toLower = name).map Prod.snd

/-- What is given for each setting. -/
def given (environment : List (String × String)) (arguments : Fields) : Fields :=
  names.filterMap fun name =>
    ((argument? name arguments).or (inEnvironment? name environment)).map fun v => (name, v)

def read (environment : List (String × String)) (arguments : Fields) :
    Except Rejection Settings :=
  let f := given environment arguments
  let d := default
  let field {α : Type} (name : String) (value : α) (reader : Json → Checked α) : Checked α :=
    Field.optional [name] f value reader
  let checked :=
    Field.both (field "log_level" d.logLevel Field.text) <|
    Field.both (field "json_logs" d.jsonLogs Field.flag) <|
    Field.both (field "max_schema_size" d.maxSchemaSize Field.positive) <|
    Field.both (field "max_schema_depth" d.maxSchemaDepth Field.positive) <|
    Field.both (field "progress_byte_budget" d.progressByteBudget Field.positive) <|
    Field.both (field "progress_cap" d.progressCap (Field.upTo 100)) <|
    Field.both (field "enforce_sequence_order" d.enforceSequenceOrder Field.flag) <|
    Field.both (field "history_limit" d.historyLimit Field.positive) <|
    Field.both (field "renderer_version" d.rendererVersion Field.text)
      (field "validate_children" d.validateChildren Field.flag)
  match checked with
  | .ok (logLevel, jsonLogs, maxSchemaSize, maxSchemaDepth, progressByteBudget, progressCap,
      enforceSequenceOrder, historyLimit, rendererVersion, validateChildren) =>
    .ok { logLevel, jsonLogs, maxSchemaSize, maxSchemaDepth, progressByteBudget, progressCap,
          enforceSequenceOrder, historyLimit, rendererVersion, validateChildren }
  | .error faults => .error ⟨model, faults⟩

end Settings

end ViewTree
