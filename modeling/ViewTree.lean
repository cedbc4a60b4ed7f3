import ViewTree.Capability
import ViewTree.Catalog
import ViewTree.Check
import ViewTree.Decimal.Layout
import ViewTree.Decimal.Shortest
import ViewTree.Document
import ViewTree.Double
import ViewTree.Fault
import ViewTree.Field
import ViewTree.Json.Basic
import ViewTree.Json.Extract
import ViewTree.Json.Read
import ViewTree.Json.Repair
import ViewTree.Json.Repair.Scalar
import ViewTree.Json.Repair.Text
import ViewTree.Json.Shown
import ViewTree.Json.Write
import ViewTree.Live.Blueprint
import ViewTree.Live.Event
import ViewTree.Live.Failure
import ViewTree.Live.Instance
import ViewTree.Live.Member
import ViewTree.Live.Refresh
import ViewTree.Live.Shown
import ViewTree.Live.Store
import ViewTree.Live.World
import ViewTree.Node
import ViewTree.Patch.Edit
import ViewTree.Patch.Engine
import ViewTree.Patch.Index
import ViewTree.Patch.Path
import ViewTree.Payload
import ViewTree.Power
import ViewTree.Registry
import ViewTree.Render
import ViewTree.Session
import ViewTree.Settings
import ViewTree.Stream
import ViewTree.Telemetry.Amount
import ViewTree.Telemetry.Journal
import ViewTree.Telemetry.Metrics
import ViewTree.Telemetry.Record
import ViewTree.Telemetry.Scope
import ViewTree.Telemetry.Span
import ViewTree.Text.Blank
import ViewTree.Text.Digit
import ViewTree.Text.Fold
import ViewTree.Text.Printable
import ViewTree.Text.Quoted
import ViewTree.Wire
import ViewTree.Proofs.Patch.Replay
import ViewTree.Proofs.Patch.Overflow
import ViewTree.Proofs.Session.Display
import ViewTree.Proofs.Session.Streaming
import ViewTree.Proofs.Json.Extraction
import ViewTree.Proofs.Session.Requests
import ViewTree.Proofs.Live.Growth
import ViewTree.Proofs.Session.Invariant
import ViewTree.Proofs.Session.Undo
import ViewTree.Proofs.Render.Upkeep
import ViewTree.Proofs.Live.Action
import ViewTree.Proofs.Live.Forest
import ViewTree.Proofs.Live.Wiring
import ViewTree.Proofs.Live.Sound
import ViewTree.Proofs.Live.Destruction
import ViewTree.Proofs.Render.Acts
import ViewTree.Proofs.Render.Lifecycle
import ViewTree.Proofs.Live.Additions
import ViewTree.Proofs.Render.Handlers
import ViewTree.Proofs.Render.Prepare
import ViewTree.Proofs.Render.Image
import ViewTree.Proofs.Render.Trees
import ViewTree.Proofs.Json.Fields
import ViewTree.Proofs.Json.Kept
import ViewTree.Proofs.Json.Extent
import ViewTree.Proofs.Json.Consumed
import ViewTree.Proofs.Json.Escapes
import ViewTree.Proofs.Json.Roundtrip
import ViewTree.Proofs.Json.Search
import ViewTree.Proofs.Json.Written
import ViewTree.Proofs.Json.Bytes
import ViewTree.Proofs.Json.Recovery
import ViewTree.Proofs.Wire.Expansion
import ViewTree.Proofs.Wire.Components
import ViewTree.Proofs.Wire.Rendering
import ViewTree.Proofs.Stream.Ending
import ViewTree.Proofs.Stream.Machine
import ViewTree.Proofs.Session.Redelivery
import ViewTree.Proofs.Json.Yielded
import ViewTree.Proofs.Node.Reading
import ViewTree.Proofs.Node.Documents
import ViewTree.Proofs.Wire.Canonical
import ViewTree.Proofs.Settings
import ViewTree.Proofs.Stream.Books
import ViewTree.Proofs.Stream.Progress
import ViewTree.Proofs.Json.Height
import ViewTree.Proofs.Node.Height
import ViewTree.Proofs.Wire.Height
import ViewTree.Proofs.Patch.Applied
import ViewTree.Proofs.Patch.Untouched
import ViewTree.Proofs.Patch.Growth
import ViewTree.Proofs.Session.Patching
import ViewTree.Proofs.Json.Equality
import ViewTree.Proofs.Registry.Built
import ViewTree.Proofs.Check.Contract
import ViewTree.Proofs.Session.Limits
import ViewTree.Proofs.Patch.Graft
import ViewTree.Proofs.Patch.Lens
import ViewTree.Proofs.Patch.Inverse
import ViewTree.Proofs.Patch.Arrival
import ViewTree.Proofs.Patch.Diverging
import ViewTree.Proofs.Patch.Relocation
import ViewTree.Proofs.Patch.Numerals
import ViewTree.Proofs.Patch.Pointer
import ViewTree.Proofs.Payload.Walk
import ViewTree.Proofs.Payload.Size
import ViewTree.Proofs.Live.Single
import ViewTree.Proofs.Live.Spread
import ViewTree.Proofs.Live.Ties
import ViewTree.Proofs.Live.Abreast
import ViewTree.Proofs.Render.Joint
import ViewTree.Proofs.Render.Landing
import ViewTree.Proofs.Render.Alike
import ViewTree.Proofs.Render.Positions
import ViewTree.Proofs.Render.Isolation
import ViewTree.Proofs.Render.Twins
import ViewTree.Proofs.Render.Pruning
import ViewTree.Proofs.Session.Loading
import ViewTree.Proofs.Live.Listeners
import ViewTree.Proofs.Telemetry.Nesting
import ViewTree.Proofs.Session.Scopes
import ViewTree.Proofs.Registry.Tally
import ViewTree.Proofs.Registry.Runs
