import ViewTree.Telemetry.Metrics
import ViewTree.Telemetry.Scope

/-
  ViewTree.Telemetry.Journal — what an operation reports besides its answer.

  A journal is the list of records and measures in the order in which they arose.
-/

namespace ViewTree.Telemetry

inductive Entry where
  | record (r : Record)
  | measure (m : Measure)
deriving DecidableEq

abbrev Journal := List Entry

namespace Entry

def record? : Entry → Option Record
  | record r => some r
  | measure _ => none

def measure? : Entry → Option Measure
  | record _ => none
  | measure m => some m

/-- The entry as it is kept under bound fields. -/
def stamp (bound : Bound) : Entry → Entry
  | record r => record (bound.stamp r)
  | measure m => measure m

def debug (source event : String) (fields : Fields) : Entry :=
  record ⟨.debug, source, event, fields⟩

def info (source event : String) (fields : Fields) : Entry :=
  record ⟨.info, source, event, fields⟩

def warning (source event : String) (fields : Fields) : Entry :=
  record ⟨.warning, source, event, fields⟩

def error (source event : String) (fields : Fields) : Entry :=
  record ⟨.error, source, event, fields⟩

end Entry

namespace Journal

def measures (j : Journal) : List Measure := j.filterMap Entry.measure?

/-- The root of the engine's own sources. -/
def engine : String := "genui"

/-- Whether a source stands below the engine, both read backwards. The last segment is
    given up, and so on; the character before a point is passed over, so that of two
    points in a row only one counts. -/
def isBelow (engine : List Char) : List Char → Bool
  | '.' :: c :: r => c :: r == engine || isBelow engine r
  | _ :: r => isBelow engine r
  | [] => false

/-- The engine itself and everything below it. -/
def isEngine (source : String) : Bool :=
  source == engine || isBelow engine.toList.reverse source.toList.reverse

/-- Whether a log of the engine that is read from a level on shows a record. -/
def shows (threshold : Level) (r : Record) : Bool := threshold.admits r.level && isEngine r.source

/-- The engine's records that a log read from a level on shows. -/
def recordsFrom (threshold : Level) (j : Journal) : List Record :=
  (j.filterMap Entry.record?).filter (shows threshold)

/-- The part of a journal before the first shown record that cannot be written, and the
    field that keeps it from being written. -/
def upToClash (threshold : Level) : Journal → Journal × Option String
  | [] => ([], none)
  | e :: rest =>
    match (e.record?.filter (shows threshold)).bind Record.clash? with
    | some field => ([], some field)
    | none =>
      let (more, clash) := upToClash threshold rest
      (e :: more, clash)

example : isEngine "genui.x" = true ∧ isEngine "genui..x" = false := by decide +kernel

end Journal

end ViewTree.Telemetry
