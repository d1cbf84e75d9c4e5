import RecordLog.Disk.Path
import RecordLog.Error
import RecordLog.Text.Utf8

/-! # Files

* `Disk m`: the file operations that a log in a file needs, as actions of `m`.
* `Disk.makeDirectories`: makes a directory and those above it.
* `Disk.openForAppending`: makes sure that a file is there to append to.
-/

namespace RecordLog

/-- When bytes added to a file must have reached the disk. -/
inductive SyncPolicy where
  /-- Before the operation that added them ends: safest and slowest. -/
  | eachAppend
  /-- Whenever the operating system writes them out. -/
  | deferred
  deriving DecidableEq, Repr

/-- File operations as actions of `m`. -/
class Disk (m : Type → Type) where
  /-- Makes one directory. -/
  makeDirectory : Path → ExceptT IoError m Unit
  /-- Whether a path leads to a directory. -/
  isDirectory : Path → m Bool
  /-- Makes an empty file, or leaves alone the one that is there. -/
  create : Path → ExceptT IoError m Unit
  /-- Adds bytes at the end of a file that is there. -/
  append : Path → SyncPolicy → Bytes → ExceptT IoError m Unit
  /-- The bytes of a file. -/
  read : Path → ExceptT IoError m Bytes

namespace Disk

variable {m : Type → Type} [Monad m]

/-- The same operations under a further state. -/
instance {σ : Type} [Disk m] : Disk (StateT σ m) where
  makeDirectory p := ExceptT.mk (liftM (makeDirectory (m := m) p).run)
  isDirectory p := liftM (isDirectory (m := m) p)
  create p := ExceptT.mk (liftM (create (m := m) p).run)
  append p sync bytes := ExceptT.mk (liftM (append (m := m) p sync bytes).run)
  read p := ExceptT.mk (liftM (read (m := m) p).run)

variable [Disk m]

/-- Takes an error as no error where the directory is there already. -/
def orDirectory (p : Path) (e : IoError) : ExceptT IoError m Unit := do
  if ← isDirectory (m := m) p then return
  throw e

/-- Makes the first of these directories; the ones after it, each above the one before, are made
where they are missing. -/
def makeDirectories : List Path → ExceptT IoError m Unit
  | [] => return
  | p :: above =>
    tryCatch (makeDirectory p) fun
      | .notFound => do
        makeDirectories above
        tryCatch (makeDirectory p) (orDirectory p)
      | e => orDirectory p e

/-- Makes the directories that a path leads through, and an empty file if there is none. -/
def openForAppending (p : Path) : ExceptT IoError m Unit := do
  makeDirectories p.ancestors
  create p

end Disk

end RecordLog
