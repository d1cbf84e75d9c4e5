import RecordLog.Cursor

/-! # Scanning a buffer for records

A scan goes through all records of a buffer and keeps those that pass a test.  It also counts the
records it saw, so that a buffer without records and a test that no record passes can be told
apart.
-/

namespace RecordLog

/-- The records that passed a test, and how many there were in all. -/
structure ScanReport where
  records : List Record := []
  scanned : Nat := 0

namespace ScanReport

/-- The records of a buffer that pass a test, in the order they stand in. -/
def ofBuffer (keep : Record → Bool) (buffer : Bytes) : ScanReport :=
  let found := (RecordLog.records buffer).map Located.record
  { records := found.filter keep, scanned := found.length }

/-- The number of records that passed. -/
def size (report : ScanReport) : Nat :=
  report.records.length

/-- No record passed. -/
def isEmpty (report : ScanReport) : Bool :=
  report.records.isEmpty

/-- There was no record at all. -/
def sawNone (report : ScanReport) : Bool :=
  report.scanned == 0

/-- There were records, and none passed. -/
def keptNone (report : ScanReport) : Bool :=
  0 < report.scanned && report.isEmpty

end ScanReport

end RecordLog
