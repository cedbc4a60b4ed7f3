import ViewTree.Telemetry.Journal

/-
  ViewTree.Telemetry.Span — the records around a traced operation.

  A span opens with a record of the operation and its context. It closes with one that
  also carries the fields collected inside, which win over the context; a failed
  operation closes with its error instead. The fields that a span fills itself are given
  once: a context or a collected field that names one of them again ends the span, and
  so does a record that cannot be written.
-/

namespace ViewTree.Telemetry.Span

def source : String := "genui.core.tracing"

def opened (operation : String) (context : Fields) : Entry :=
  .debug source "operation_start" (Fields.merge [("operation", .str operation)] context)

def closed (operation : String) (context collected : Fields) : Entry :=
  .debug source "operation_end"
    (Fields.merge (Fields.merge [("operation", .str operation)] context) collected)

def failed (operation error : String) (context collected : Fields) : Entry :=
  .error source "operation_error"
    (Fields.merge (Fields.merge [("operation", .str operation), ("error", .str error)] context)
      collected)

/-! ## Spans with any fields -/

/-- Why a span has no answer. -/
inductive Fault where
  /-- The traced operation failed. -/
  | raised (message : String)
  /-- A field was given again, to something that takes it by its place. -/
  | argumentTwice (callee field : String)
  /-- A field was given again, to something that takes it by name. -/
  | keywordTwice (callee field : String)
  /-- A field bears the name of a part of the line. -/
  | clash (field : String)
deriving DecidableEq, Repr

def Fault.kind : Fault → String
  | raised _ => "ValueError"
  | argumentTwice _ _ => "TypeError"
  | keywordTwice _ _ => "TypeError"
  | clash _ => "KeyError"

def Fault.message : Fault → String
  | raised message => message
  | argumentTwice callee field =>
    callee ++ "() got multiple values for argument '" ++ field ++ "'"
  | keywordTwice callee field =>
    callee ++ "() got multiple values for keyword argument '" ++ field ++ "'"
  | clash field => Record.clashMessage field

/-- What every record takes by its place. -/
def placed : List String := ["self", "event"]

/-- The first field that names one of those a record of a level is given anyway. -/
def repeated? (level : Level) (own : List String) (fields : Fields) : Option Fault :=
  let callee := "BoundLogger." ++ Text.lower level.name
  match fields.keys.find? own.contains with
  | some field => some (.keywordTwice ("structlog.stdlib." ++ callee) field)
  | none => (fields.keys.find? placed.contains).map (.argumentTwice callee)

/-- Writes an entry where a log is read from a level on. -/
def write (threshold : Option Level) (entry : Entry) : Journal × Option Fault :=
  match threshold with
  | none => ([entry], none)
  | some level =>
    let (written, clash) := Journal.upToClash level [entry]
    (written, clash.map .clash)

/-- One step of a span: refused, or written. -/
def step (threshold : Option Level) (refused : Option Fault) (entry : Entry) :
    Journal × Option Fault :=
  match refused with
  | some fault => ([], some fault)
  | none => write threshold entry

/-- Opens a span with any context. -/
def begin (threshold : Option Level) (operation : String) (context : Fields) :
    Journal × Option Fault :=
  let refused := if context.has "operation" then some (.argumentTwice "trace_operation" "operation")
    else repeated? .debug [] context
  step threshold refused (opened operation context)

/-- Closes a span with any fields, after a failure with its message. -/
def finish (threshold : Option Level) (operation : String) (context collected : Fields)
    (failure : Option String) : Journal × Option Fault :=
  let fields := Fields.merge context collected
  match failure with
  | none =>
    step threshold (repeated? .debug ["operation", "duration_ms"] fields)
      (closed operation context collected)
  | some message =>
    let refused := repeated? .error ["operation", "error", "duration_ms"] fields
    match step threshold refused (failed operation message context collected) with
    | (written, some fault) => (written, some fault)
    | (written, none) => (written, some (.raised message))

/-- A whole span: what it leaves in the journal, and why it has no answer. -/
def trace (threshold : Option Level) (operation : String) (context collected : Fields)
    (failure : Option String) : Journal × Option Fault :=
  match begin threshold operation context with
  | (written, some fault) => (written, some fault)
  | (written, none) =>
    let (more, fault) := finish threshold operation context collected failure
    (written ++ more, fault)

end ViewTree.Telemetry.Span
