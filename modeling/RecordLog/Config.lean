import RecordLog.Disk.Basic

/-! # Settings

Where a log is kept and how safely, and the version of the program.
-/

namespace RecordLog

/-- The version of the program. -/
def version : String := "0.1.0"

/-- Where a log is kept, and when its bytes must have reached the disk. -/
structure Config where
  logPath : Path := { text := "./posts/posts.txt" }
  sync : SyncPolicy := .deferred
  deriving DecidableEq, Repr

end RecordLog
