import ViewTree.Telemetry.Record

/-
  ViewTree.Telemetry.Scope — fields bound to every record logged in a scope.

  The bound fields are one flat map. Entering a scope sets its keys, leaving it deletes
  them, whatever they were bound to before. What a record has itself wins over bound
  fields: its own fields, and its event.
-/

namespace ViewTree.Telemetry

/-- The fields bound at some moment. -/
abbrev Bound := Fields

namespace Bound

def enter (scope : Fields) (bound : Bound) : Bound := Fields.merge bound scope

def leave (scope : Fields) (bound : Bound) : Bound :=
  scope.foldl (fun acc f => Fields.erase f.1 acc) bound

/-- The key that a record's event stands under beside its fields. -/
def eventKey : String := "event"

/-- A record as it is logged under the bound fields. -/
def stamp (bound : Bound) (record : Record) : Record :=
  { record with fields := Fields.merge (Fields.erase eventKey bound) record.fields }

end Bound

end ViewTree.Telemetry
