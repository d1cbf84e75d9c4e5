import RecordLog.Record
import RecordLog.Json.Object
import RecordLog.Json.Printer

/-! # Records as JSON

A record is the JSON object of its fields.  Reading one does not ask whether its names may be
written to a log.
-/

namespace RecordLog.Record

/-- A record as JSON on one line. -/
def toJson (r : Record) : String :=
  String.ofList (Json.object r.toList)

/-- A record as indented JSON. -/
def toPrettyJson (r : Record) : String :=
  String.ofList (Json.prettyObject 0 r.toList)

/-- Records as an indented JSON array. -/
def toPrettyJsonArray (rs : List Record) : String :=
  String.ofList (Json.prettyArray (rs.map toList))

/-- The record that a JSON text is. -/
def ofJson? (text : String) : Option Record :=
  (Json.object? text.toList).map ofList

end RecordLog.Record
