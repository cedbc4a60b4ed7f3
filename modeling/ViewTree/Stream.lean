import ViewTree.Field
import ViewTree.Json.Extract
import ViewTree.Json.Write
import ViewTree.Settings
import ViewTree.Telemetry.Journal

/-
  ViewTree.Stream — a schema that arrives in chunks.

  A stream is idle, streaming, complete or failed. Partial chunks are collected and their
  serialized size drives the progress, which stays at or below a cap until the stream
  completes. A completing chunk carries the schema, or text to find it in, or nothing;
  then the text of the partial chunks is searched. Where order is enforced, a chunk whose
  sequence number does not exceed the last accepted one is dropped. A text whose search
  has no answer stops the chunk, which counts as accepted, and nothing else changes.

  - `start`, `clear`: a new stream, or none.
  - `addChunk`, `addValue`: one chunk; the answer tells whether it was accepted.
  - `complete`, `fail`: the end of a stream.
  - `consume`: a list of chunks up to the one that ends the stream.
-/

namespace ViewTree

open Telemetry

inductive StreamState where
  | idle
  | streaming
  | complete
  | error
deriving DecidableEq, Repr

def StreamState.name : StreamState → String
  | idle => "idle"
  | streaming => "streaming"
  | complete => "complete"
  | error => "error"

inductive ChunkType where
  | partialData
  | complete
  | error
deriving DecidableEq, Repr

namespace ChunkType

def name : ChunkType → String
  | partialData => "partial"
  | complete => "complete"
  | error => "error"

def all : List ChunkType := [partialData, complete, error]

def read : Json → Checked ChunkType
  | .str s =>
    match all.find? fun t => t.name = s with
    | some t => .ok t
    | none => Field.fail (.notOneOf (all.map name))
  | _ => Field.fail (.notOneOf (all.map name))

end ChunkType

structure Chunk where
  type : ChunkType
  data : Json
  sequence : Option Int
deriving DecidableEq

namespace Chunk

def model : String := "StreamChunk"

def readSequence : Json → Checked (Option Int)
  | .null => .ok none
  | v => (Field.integer v).map some

def read : Json → Checked Chunk
  | .obj fields =>
    let checked :=
      Field.both (Field.required ["type"] fields ChunkType.read) <|
      Field.both (Field.optional ["data"] fields .null .ok)
        (Field.optional ["sequenceId", "sequence_id"] fields none readSequence)
    match checked with
    | .ok (type, data, sequence) => .ok { type, data, sequence }
    | .error faults => .error faults
  | _ => Field.fail (.notModel model)

/-- The chunk in a value, or the report of why there is none. -/
def ofJson (v : Json) : Except Rejection Chunk :=
  match read v with
  | .ok chunk => .ok chunk
  | .error faults => .error ⟨model, faults⟩

/-- The text a chunk carries. -/
def text (chunk : Chunk) : String :=
  match chunk.data with
  | .str s => s
  | _ => ""

end Chunk

structure Stream where
  state : StreamState
  /-- The completed schema, null before. -/
  schema : Json
  error : Option String
  /-- Progress in percent. -/
  percent : Nat
  /-- A stream has started or completed since the stream was last cleared. -/
  stamped : Bool
  /-- The partial chunks accepted so far. -/
  chunks : List Chunk
  /-- Their serialized size. -/
  total : Nat
  /-- The last accepted sequence number. -/
  last : Option Int
deriving DecidableEq

namespace Stream

def source : String := "genui.streaming.controller"

def idle : Stream := ⟨.idle, .null, none, 0, false, [], 0, none⟩

def isStreaming (s : Stream) : Bool := s.state = .streaming

/-- Begins a new stream and forgets the previous one. -/
def start (s : Stream) : Stream × Journal :=
  ({ idle with state := .streaming, stamped := true },
    if s.isStreaming then
      [.info source "stream_restarted" [("discarded_chunks", .int s.chunks.length)]]
    else [])

def clear (_ : Stream) : Stream := idle

/-- The text of the partial chunks, one after the other. -/
def text (s : Stream) : String := String.join (s.chunks.map Chunk.text)

/-- Records the completed schema. -/
def complete (s : Stream) (schema : Json) : Stream × Journal :=
  ({ s with schema := schema, state := .complete, percent := 100, error := none, stamped := true },
    [.info source "stream_complete" [("chunks", .int s.chunks.length)]])

/-- Records a failure; the schema stays as it is. -/
def fail (s : Stream) (error : String) : Stream × Journal :=
  ({ s with error := some error, state := .error },
    [.warning source "stream_error" [("error", .str error)]])

/-! ## Chunks -/

/-- Whether a sequence number comes too late. -/
def outOfOrder (settings : Settings) (s : Stream) (sequence : Option Int) : Bool :=
  match sequence, s.last with
  | some n, some last => settings.enforceSequenceOrder && decide (n ≤ last)
  | _, _ => false

theorem outOfOrder_iff {settings : Settings} {s : Stream} {sequence : Option Int} :
    outOfOrder settings s sequence = true ↔
      ∃ n last, sequence = some n ∧ s.last = some last ∧
        settings.enforceSequenceOrder = true ∧ n ≤ last := by
  cases sequence <;> cases h : s.last <;> simp [outOfOrder, h]

/-- The progress that a serialized size amounts to. -/
def progress (settings : Settings) (total : Nat) : Nat :=
  min settings.progressCap (total * 100 / settings.progressByteBudget)

def addPartial (settings : Settings) (s : Stream) (chunk : Chunk) : Stream :=
  let total := s.total + chunk.data.serializedSize
  { s with chunks := s.chunks ++ [chunk], total := total, percent := progress settings total }

/-- Completes the stream with the object in a text. -/
def completeFrom (s : Stream) (text : String) : Except Json.ParseFault Unit × Stream × Journal :=
  match Json.extract text true with
  | .ok fields => (.ok (), s.complete (.obj fields))
  | .error (.longInteger n) => (.error (.longInteger n), s, [])
  | .error fault =>
    let (s', journal) := s.fail ("Failed to parse streamed schema: " ++ fault.message)
    (.ok (), s', .warning source "stream_schema_unparseable"
      [("error", .str fault.message), ("chunks", .int s.chunks.length)] :: journal)

/-- Completes the stream with the data of a chunk, with the object in its text, or with
    the object in the text of the partial chunks. -/
def completeWith (s : Stream) (data : Json) : Except Json.ParseFault Unit × Stream × Journal :=
  match data with
  | .null => s.completeFrom s.text
  | .str text => s.completeFrom text
  | data => (.ok (), s.complete data)

/-- The message of an error chunk. -/
def errorMessage (data : Json) : String :=
  match (data.field? "message").filter Json.truthy with
  | some message => message.shown
  | none => if data.truthy then data.shown else "Stream failed"

/-- Processes a chunk that is in order. -/
def accept (settings : Settings) (s : Stream) (chunk : Chunk) :
    Except Json.ParseFault Unit × Stream × Journal :=
  let s := match chunk.sequence with
    | none => s
    | some n => { s with last := some n }
  let counted : Entry := .measure (.streamChunk chunk.type.name)
  match chunk.type with
  | .partialData => (.ok (), s.addPartial settings chunk, [counted])
  | .complete =>
    let (outcome, s, journal) := s.completeWith chunk.data
    (outcome, s, counted :: journal)
  | .error =>
    let (s, journal) := s.fail (errorMessage chunk.data)
    (.ok (), s, counted :: journal)

/-- What a dropped chunk leaves in the journal. -/
def dropped (s : Stream) (chunk : Chunk) : Journal :=
  let number (n : Option Int) : Json := (n.map Json.int).getD .null
  [.warning source "stream_chunk_out_of_order"
      [("sequence_id", number chunk.sequence), ("last_sequence_id", number s.last)],
    .measure .chunkDropped]

/-- One chunk; tells whether it was accepted. -/
def addChunk (settings : Settings) (s : Stream) (chunk : Chunk) :
    Except Json.ParseFault Bool × Stream × Journal :=
  if outOfOrder settings s chunk.sequence then (.ok false, s, s.dropped chunk)
  else
    let (outcome, s, journal) := s.accept settings chunk
    (outcome.map fun _ => true, s, journal)

/-- What a value that is no chunk leaves in the journal. -/
def invalid (source : String) (rejection : Rejection) : Entry :=
  .warning source "stream_chunk_invalid" [("error", .str rejection.text)]

/-- The chunk in a value; one that is no chunk is dropped. -/
def addValue (settings : Settings) (s : Stream) (v : Json) :
    Except Json.ParseFault Bool × Stream × Journal :=
  match Chunk.ofJson v with
  | .error rejection => (.ok false, s, [invalid source rejection])
  | .ok chunk => s.addChunk settings chunk

/-- Values up to the one that ends the stream, or that is stopped. -/
def consumeAll (settings : Settings) (s : Stream) :
    List Json → Except Json.ParseFault Unit × Stream × Journal
  | [] => (.ok (), s, [])
  | v :: rest =>
    match s.addValue settings v with
    | (.error fault, s, journal) => (.error fault, s, journal)
    | (.ok _, s, journal) =>
      if s.isStreaming then
        let (outcome, s, more) := consumeAll settings s rest
        (outcome, s, journal ++ more)
      else (.ok (), s, journal)

/-- Consumes values, in a new stream unless one is in progress. -/
def consume (settings : Settings) (s : Stream) (values : List Json) :
    Except Json.ParseFault Unit × Stream × Journal :=
  let (s, journal) := if s.isStreaming then (s, []) else s.start
  let (outcome, s, more) := s.consumeAll settings values
  (outcome, s, journal ++ more)

end Stream

end ViewTree
