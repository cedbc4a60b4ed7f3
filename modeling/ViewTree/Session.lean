import ViewTree.Patch.Engine
import ViewTree.Payload
import ViewTree.Render
import ViewTree.Stream
import ViewTree.Wire

/-
  ViewTree.Session — the schema on display and its history.

  A session loads complete schemas, patches the current one, takes streamed ones, goes
  back to earlier ones and renders. A schema becomes current only after it passed the
  payload limits, was normalized and was found valid; a failed update records its error
  and leaves the current schema and the history alone. The history keeps the latest
  schemas up to a limit.

  - `load`, `loadText`, `applyPatches`, `handleChunk`: updates; the answer tells whether a
    schema became current.
  - `revert`: back to the previous schema of the history.
  - `renderCurrent`: the current schema as live instances.
-/

namespace ViewTree

open Live Telemetry

structure Session where
  context : Render.Context
  current : Option Node
  loading : Bool
  error : Option String
  /-- The schemas that were current, oldest first. -/
  history : List Node
  stream : Stream
  lastRender : Option RenderResult
  world : World

namespace Session

def source : String := "genui.handlers.ui"

def settings (s : Session) : Settings := s.context.settings
def registry (s : Session) : Registry := s.context.registry

/-- A session that displays nothing. -/
def fresh (registry : Registry) (settings : Settings) (world : World) : Session :=
  ⟨⟨registry, settings⟩, none, false, none, [], .idle, none, world⟩

/-! ## Bookkeeping -/

def note (entries : Journal) (s : Session) : Session := { s with world := s.world.note entries }

/-- Records an error; nothing is loading any more. -/
def setError (error : String) (s : Session) : Session :=
  { s with error := some error, loading := false }.note
    [.warning source "ui_error" [("error", .str error)]]

/-- The measure of a history of some length. -/
def historyMeasure (length : Nat) : Entry := .measure (.historySize (Double.ofInt length))

/-- A history with one more schema, without the oldest ones beyond the limit. -/
def extend (limit : Nat) (history : List Node) (node : Node) : List Node :=
  (history ++ [node]).drop (history.length + 1 - limit)

/-- Makes a schema current. -/
def commit (node : Node) (s : Session) : Session :=
  let history := extend s.settings.historyLimit s.history node
  { s with history := history, current := some node, error := none }.note
    [historyMeasure history.length]

/-! ## Loading -/

/-- What stops an update without an answer. -/
inductive Escape where
  | notIterable (patches : Json)
  | hugeIndex
  /-- A node with more levels than are written. -/
  | tooDeep
deriving DecidableEq

def Escape.message : Escape → String
  | .notIterable patches => patches.notIterable
  | .hugeIndex => Patch.hugeIndexMessage
  | .tooDeep => Node.tooDeepMessage

/-- What can be loaded: a value, or a node that was read before. -/
inductive Input where
  | value (v : Json)
  | node (n : Node)

namespace Input

/-- The value whose size and depth count. -/
def payload? : Input → Option Json
  | value v => some v
  | node n => n.dump?

def normalize : Input → Except Rejection Node
  | value v => Wire.normalize v
  | node n => .ok n

def journal : Input → Journal
  | value v => Wire.journal v
  | node _ => []

end Input

def loadMeasure (status : String) : Entry := .measure (.schemaLoad status)

/-- Loads a normalized schema if it is valid. -/
def loadNode (node : Node) (s : Session) : Bool × Session :=
  let problems := Check.validate s.registry node
  let s := s.note (Check.journal s.registry node)
  if problems.isEmpty then
    (true, (s.commit node).note [loadMeasure "success",
      .info source "schema_loaded"
        [("type", Render.typeJson node.type), ("children", .int node.children.length)]])
  else
    (false, (s.note [loadMeasure "invalid", .measure (.failedNode node.type)]).setError
      ("Schema validation failed: " ++ Check.summary problems))

/-- Loads an input if its payload is within the limits. -/
def loadWithin (payload : Json) (input : Input) (s : Session) : Bool × Session :=
  match Payload.check s.settings.maxSchemaSize s.settings.maxSchemaDepth Payload.defaultName
      payload with
  | .error issue =>
    (false, (s.note [loadMeasure "rejected"]).setError ("Schema rejected: " ++ issue.message))
  | .ok () =>
    let s := s.note input.journal
    match input.normalize with
    | .error rejection =>
      (false, (s.note [loadMeasure "invalid"]).setError
        ("Failed to load schema: " ++ rejection.text))
    | .ok node => s.loadNode node

/-- Loads a complete schema that is a value. -/
def loadValue (v : Json) (s : Session) : Bool × Session := s.loadWithin v (.value v)

/-- Loads a complete schema. A node that is not written has no payload, which stops it
    without an answer. -/
def load (input : Input) (s : Session) : Except Escape Bool × Session :=
  match input.payload? with
  | none => (.error .tooDeep, s)
  | some payload =>
    let (done, s) := s.loadWithin payload input
    (.ok done, s)

/-- Loads the schema in a text. An integer with too many digits stops it without an
    answer. -/
def loadText (text : String) (s : Session) : Except Json.ParseFault Bool × Session :=
  match Json.extract text true with
  | .error (.longInteger n) => (.error (.longInteger n), s)
  | .error fault =>
    let s := (s.note [loadMeasure "unparseable"]).setError
      ("Failed to parse schema: " ++ fault.message)
    (.ok false, s)
  | .ok fields =>
    let (done, s) := s.loadValue (.obj fields)
    (.ok done, s)

/-! ## Patching -/

/-- Makes a patched tree current if it is a valid schema. -/
def commitPatched (outcome : Patch.Outcome) (s : Session) : Bool × Session :=
  let s := s.note (Wire.journal outcome.tree)
  match Wire.normalize outcome.tree with
  | .error rejection =>
    (false, s.setError ("Patched schema is not a valid tree: " ++ rejection.text))
  | .ok node =>
    let problems := Check.validate s.registry node
    let s := s.note (Check.journal s.registry node)
    if problems.isEmpty then
      (true, (s.commit node).note [.info source "patches_applied"
        [("applied", .int outcome.applied), ("skipped", .int outcome.skipped.length)]])
    else
      (false, (s.note [.measure (.failedNode node.type)]).setError
        ("Patched schema validation failed: " ++ Check.summary problems))

/-- Patches the current schema. -/
def applyPatches (patches : Json) (s : Session) : Except Escape Bool × Session :=
  match s.current with
  | none => (.ok false, s.setError "No current schema to patch")
  | some node =>
    match patches.iterate? with
    | none => (.error (.notIterable patches), s)
    | some list =>
      let context : Fields := [("patches", .int list.length)]
      let s := s.note [Span.opened "apply_patch" context]
      match node.dump? with
      | none =>
        (.error .tooDeep, s.note [Span.failed "apply_patch" Node.tooDeepMessage context []])
      | some doc =>
        match Patch.run doc list with
        | .error stopped =>
          (.error .hugeIndex, s.note (stopped.journal ++
            [Span.failed "apply_patch" Patch.hugeIndexMessage context []]))
        | .ok outcome =>
          let s := s.note (outcome.journal ++ [Span.closed "apply_patch" context
            [("skipped", .int outcome.skipped.length)]])
          let (done, s) := s.commitPatched outcome
          (.ok done, s)

/-! ## History -/

def clearSchema (s : Session) : Session := { s with current := none, error := none }

def setLoading (loading : Bool) (s : Session) : Session := { s with loading := loading }

/-- Makes the previous schema current again; there must be two in the history. -/
def revert (s : Session) : Bool × Session :=
  match s.history.dropLast.getLast? with
  | none => (false, s)
  | some previous =>
    let history := s.history.dropLast
    (true, { s with history := history, current := some previous }.note
      [historyMeasure history.length,
        .info source "schema_reverted" [("history", .int history.length)]])

/-! ## Streaming -/

def startStream (s : Session) : Session :=
  let (stream, journal) := s.stream.start
  { s with stream := stream, loading := true }.note journal

/-- One chunk. A completed stream is loaded like any schema, a failed one is recorded; a
    chunk that is stopped changes nothing more. -/
def handleChunk (v : Json) (s : Session) : Except Json.ParseFault Bool × Session :=
  match Chunk.ofJson v with
  | .error rejection => (.ok false, s.note [Stream.invalid source rejection])
  | .ok chunk =>
    let (outcome, stream, journal) := s.stream.addChunk s.settings chunk
    let s := { s with stream := stream }.note journal
    match outcome with
    | .error fault => (.error fault, s)
    | .ok accepted =>
      if !accepted || chunk.type = .partialData then (.ok false, s)
      else
        let s := { s with loading := false }
        match stream.error with
        | some error => (.ok false, s.setError ("Stream failed: " ++ error))
        | none =>
          let (done, s) := s.loadValue stream.schema
          (.ok done, s)

/-! ## Rendering -/

/-- The fields bound while a schema is rendered: its identifier, or its type. -/
def renderScope (node : Node) : Fields :=
  [("schema_id", match node.id.filter (· ≠ "") with
    | some id => .str id
    | none => Render.typeJson node.type)]

/-- Mounts a node with the fields of its scope bound. -/
def mountScoped (node : Node) (host : HostId) (s : Session) :
    Except Failure RenderResult × Session :=
  let scope := renderScope node
  let entered := { s.world with bound := s.world.bound.enter scope }
  let (outcome, world) := (Render.mount s.context node (some host)).run entered
  (outcome, { s with world := { world with bound := world.bound.leave scope } })

/-- The current schema as live instances in a host; answers with the root instance. A
    host that cannot be cleared stops it without a result. -/
def renderCurrent (host : Option HostId) (s : Session) :
    Except Failure (Option InstanceId) × Session :=
  match host with
  | none => (.ok none, s.setError "Missing mount target for rendering")
  | some h =>
    match s.current with
    | none => (.ok none, s.setError "No schema loaded to render")
    | some node =>
      match s.mountScoped node h with
      | (.error failure, s) => (.error failure, s)
      | (.ok result, s) =>
        let s := { s with lastRender := some result }
        match result.error with
        | some error => (.ok none, s.setError error)
        | none => (.ok result.component, s)

end Session

end ViewTree
