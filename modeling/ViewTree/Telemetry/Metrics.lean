import ViewTree.Decimal.Layout
import ViewTree.Telemetry.Record

/-
  ViewTree.Telemetry.Metrics — counters of what the engine did.

  A measure is one observation. The samples of a list of measures are the totals it
  amounts to: counters by label, a histogram of render durations, and a gauge. Counters
  with labels have a sample only once they were counted; those without always have one.
  `exposition` is the text form, one family after another.
-/

namespace ViewTree.Telemetry

inductive Measure where
  | schemaLoad (status : String)
  | validationFailure (nodeType : String)
  | patchOperation (op status : String)
  /-- A render pass, and how long it took where a clock was running. -/
  | render (status : String) (seconds : Option Double)
  | streamChunk (type : String)
  | chunkDropped
  | historySize (size : Double)
deriving DecidableEq, Repr

/-- The failure of a node; one without a type counts as unknown. -/
def Measure.failedNode (nodeType : Option String) : Measure :=
  match nodeType with
  | none => .validationFailure "unknown"
  | some t => .validationFailure (if t = "" then "unknown" else t)

structure Sample where
  name : String
  labels : List (String × String)
  value : Double
deriving DecidableEq, Repr

/-- A family of samples in the text form. -/
structure Family where
  name : String
  help : String
  kind : String
  samples : List Sample

namespace Metrics

/-! ## Totals -/

/-- Labelled totals in the order in which the labels first occurred. -/
abbrev Totals := List (List (String × String) × Nat)

def Totals.count (labels : List (String × String)) : Totals → Totals
  | [] => [(labels, 1)]
  | (l, n) :: rest => if l = labels then (l, n + 1) :: rest else (l, n) :: Totals.count labels rest

/-- The totals of the measures that `labels?` gives labels to. -/
def totals (labels? : Measure → Option (List (String × String))) (measures : List Measure) :
    Totals :=
  measures.foldl (fun acc m => match labels? m with
    | some labels => Totals.count labels acc
    | none => acc) []

def loadLabels : Measure → Option (List (String × String))
  | .schemaLoad s => some [("status", s)]
  | _ => none

def failureLabels : Measure → Option (List (String × String))
  | .validationFailure t => some [("type", t)]
  | _ => none

def patchLabels : Measure → Option (List (String × String))
  | .patchOperation op s => some [("op", op), ("status", s)]
  | _ => none

def renderLabels : Measure → Option (List (String × String))
  | .render s _ => some [("status", s)]
  | _ => none

def chunkLabels : Measure → Option (List (String × String))
  | .streamChunk t => some [("type", t)]
  | _ => none

def isDropped : Measure → Bool
  | .chunkDropped => true
  | _ => false

def duration? : Measure → Option Double
  | .render _ seconds => some (seconds.getD Double.zero)
  | _ => none

/-- The last recorded history size. -/
def historySize (measures : List Measure) : Double :=
  measures.foldl (fun acc m => match m with
    | .historySize n => n
    | _ => acc) Double.zero

/-! ## Samples -/

def natValue (n : Nat) : Double := Double.ofInt n

def counterSamples (name : String) (t : Totals) : List Sample :=
  t.map fun (labels, n) => ⟨name ++ "_total", labels, natValue n⟩

/-- Upper bounds of the duration buckets, as spelled and as numbers. -/
def bucketBounds : List (String × Double) :=
  [("0.001", .ofDecimal false 1 (-3)), ("0.005", .ofDecimal false 5 (-3)),
    ("0.01", .ofDecimal false 1 (-2)), ("0.05", .ofDecimal false 5 (-2)),
    ("0.1", .ofDecimal false 1 (-1)), ("0.5", .ofDecimal false 5 (-1)),
    ("1.0", .ofDecimal false 1 0), ("+Inf", .infinity false)]

def durationName : String := "genui_render_duration_seconds"

/-- Every bucket counts the durations up to its bound. -/
def durationSamples (durations : List Double) : List Sample :=
  bucketBounds.map (fun (text, bound) =>
    ⟨durationName ++ "_bucket", [("le", text)], natValue (durations.countP (Double.le · bound))⟩) ++
  [⟨durationName ++ "_count", [], natValue durations.length⟩,
    ⟨durationName ++ "_sum", [], durations.foldl Double.add Double.zero⟩]

def families (ms : List Measure) : List Family :=
  let counter (name help : String) (labels? : Measure → Option (List (String × String))) : Family :=
    ⟨name ++ "_total", help, "counter", counterSamples name (totals labels? ms)⟩
  [counter "genui_schema_loads" "Total number of schema loads" loadLabels,
    counter "genui_validation_failures" "Total number of nodes that failed validation"
      failureLabels,
    counter "genui_patch_operations" "Total number of patch operations" patchLabels,
    counter "genui_renders" "Total number of render passes" renderLabels,
    ⟨durationName, "Render pass duration in seconds", "histogram",
      durationSamples (ms.filterMap duration?)⟩,
    counter "genui_stream_chunks" "Total number of stream chunks" chunkLabels,
    ⟨"genui_stream_chunks_dropped_total", "Chunks dropped for arriving out of sequence", "counter",
      [⟨"genui_stream_chunks_dropped_total", [], natValue (ms.countP isDropped)⟩]⟩,
    ⟨"genui_schema_history_size", "Schemas currently held in history", "gauge",
      [⟨"genui_schema_history_size", [], historySize ms⟩]⟩]

def samples (ms : List Measure) : List Sample := (families ms).flatMap Family.samples

/-! ## Text form -/

/-- Numbers of the text form: those of a million and more with an exponent. -/
def numberText (d : Double) : String :=
  if d.isNaN then "NaN"
  else if d.isInfinite then if d.negative then "-Inf" else "+Inf"
  else
    let text := Decimal.Layout.plain.write d
    let whole := text.takeWhile (· != '.')
    if d.negative || text.length = whole.length || whole.length ≤ 6 then String.ofList text
    else
      let digits := whole.drop 1 ++ text.drop (whole.length + 1)
      let mantissa := (whole.take 1 ++ '.' :: digits).reverse.dropWhile fun c => c = '0' || c = '.'
      let exponent := whole.length - 1
      String.ofList mantissa.reverse ++ (if exponent < 10 then "e+0" else "e+") ++ toString exponent

def escapeLabel (s : String) : String :=
  String.ofList (s.toList.flatMap fun c =>
    if c = '\\' then ['\\', '\\'] else if c = '\n' then ['\\', 'n']
    else if c = '"' then ['\\', '"'] else [c])

/-- Labels in braces, each value passed through `quote`; nothing without labels. -/
def labelText (quote : String → String) (labels : List (String × String)) : String :=
  "\x7b" ++ String.intercalate "," (labels.map fun (k, v) => k ++ "=" ++ quote v) ++ "\x7d"

def sampleLine (s : Sample) : String :=
  let labels := if s.labels.isEmpty then "" else
    labelText (fun v => "\"" ++ escapeLabel v ++ "\"") s.labels
  s.name ++ labels ++ " " ++ numberText s.value

def familyLines (f : Family) : List String :=
  ("# HELP " ++ f.name ++ " " ++ f.help) :: ("# TYPE " ++ f.name ++ " " ++ f.kind) ::
    f.samples.map sampleLine

def exposition (ms : List Measure) : List String := (families ms).flatMap familyLines

end Metrics

end ViewTree.Telemetry
