import RecordLog.Disk.Basic
import RecordLog.Log

/-! # The log in a file

The file is opened anew for every operation and closed after it, so nothing but its path has to be
remembered and several users of one path see one log.

* `LogFile.open`: makes the file and the directories above it where they are missing.
* `LogFile.log`: the log that the file holds.
-/

namespace RecordLog

/-- A file that holds a log. -/
structure LogFile where
  path : Path
  sync : SyncPolicy
  deriving DecidableEq, Repr

namespace LogFile

variable {m : Type → Type} [Monad m] [Disk m]

/-- Opens the file, making it where it is missing, so that a fresh log reads as empty. -/
def «open» (path : Path) (sync : SyncPolicy) : ExceptT Error m LogFile := do
  ExceptT.adapt .io (Disk.openForAppending (m := m) path)
  return { path, sync }

/-- The log that the file holds. -/
def log (file : LogFile) : Log m where
  extend bytes := ExceptT.adapt .io (Disk.append (m := m) file.path file.sync bytes)
  contents := ExceptT.adapt .io (Disk.read (m := m) file.path)

end LogFile

end RecordLog
