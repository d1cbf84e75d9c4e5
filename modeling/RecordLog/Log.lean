import RecordLog.Format.Object
import RecordLog.Log.Report
import RecordLog.Log.Statistics

/-! # Logs

A log is a place where bytes are kept, to which bytes can only be added.  Where that is does not
matter to what a log does with records.

* `Log`: what such a place must offer, namely to add bytes at the end and to fetch them all.
* `Log.memory`: the log whose bytes are a state.
* `Log.boxed`: a log that hands on what is asked of it.
* `Log.write`: writes a record and a line end behind what is there.
* `Log.scan`, `Log.statistics`: what the bytes there hold.
-/

namespace RecordLog

/-- A place where bytes are kept, reached by actions of `m`. -/
structure Log (m : Type → Type) where
  /-- Adds bytes at the end, all or none. -/
  extend : Bytes → ExceptT Error m Unit
  /-- Fetches all bytes. -/
  contents : ExceptT Error m Bytes

namespace Log

/-- The log whose bytes are a state; nothing goes wrong there. -/
def memory : Log (StateM Bytes) where
  extend bytes := modify (· ++ bytes)
  contents := get

/-- The log behind a pointer; it hands on what is asked of it. -/
def boxed {m : Type → Type} (log : Log m) : Log m where
  extend bytes := log.extend bytes
  contents := log.contents

variable {m : Type → Type} [Monad m]

/-- Writes a record and a line end, and yields the bytes written.  A record that may not be written
leaves the log untouched. -/
def write (log : Log m) (r : Record) : ExceptT Error m Bytes := do
  let object ← r.encode
  let line := object ++ [Format.newline]
  log.extend line
  return line

/-- Writes a record and a line end. -/
def append (log : Log m) (r : Record) : ExceptT Error m Unit :=
  discard (log.write r)

/-- The records that pass a test. -/
def scan (log : Log m) (keep : Record → Bool) : ExceptT Error m ScanReport :=
  ScanReport.ofBuffer keep <$> log.contents

/-- Every record. -/
def allRecords (log : Log m) : ExceptT Error m (List Record) :=
  ScanReport.records <$> log.scan fun _ => true

/-- The records with exactly this value in a field. -/
def scanField (log : Log m) (name value : String) : ExceptT Error m ScanReport :=
  log.scan (·.hasField name value)

/-- What the log is made of. -/
def statistics (log : Log m) : ExceptT Error m Statistics :=
  Statistics.ofBuffer <$> log.contents

end Log

end RecordLog
