import Std.Data.ExtTreeMap
import RecordLog.Disk.Basic

/-! # A file system as a value

Files and directories by their place: the names that lead to them from the root, which is always a
directory.  An operation either fails, with the file system as it was, or yields the file system
after it.

* `FileSystem.walk`: the place that the pieces of a path lead to.
* `FileSystem.makeDirectory`, `create`, `append`, `read`: the operations of `Disk`.
-/

namespace RecordLog

/-- The names that lead to a file or directory from the root. -/
abbrev Place := List String

/-- What stands at a place. -/
inductive Node where
  | file (content : Bytes)
  | directory
  deriving DecidableEq, Repr

/-- The files and directories below the root. -/
structure FileSystem where
  nodes : Std.ExtTreeMap Place Node := ∅

namespace FileSystem

instance : EmptyCollection FileSystem := ⟨{}⟩

instance : Inhabited FileSystem := ⟨∅⟩

/-! ## Places -/

/-- What stands at a place. -/
def node? (fs : FileSystem) (place : Place) : Option Node :=
  if place = [] then some .directory else fs.nodes[place]?

/-- Puts something at a place. -/
def put (fs : FileSystem) (place : Place) (node : Node) : FileSystem :=
  { nodes := fs.nodes.insert place node }

/-- The place that pieces lead to.  A piece can only be followed from a directory; the last one may
lead to a place where nothing stands. -/
def walk (fs : FileSystem) (place : Place) : List String → Except IoError Place
  | [] => .ok place
  | piece :: rest =>
    match fs.node? place with
    | none => .error .notFound
    | some (.file _) => .error .notADirectory
    | some .directory =>
      if Path.isIdle piece then fs.walk place rest
      else if piece = ".." then fs.walk place.dropLast rest
      else if Path.nameLimit < piece.utf8ByteSize then .error .nameTooLong
      else fs.walk (place ++ [piece]) rest

/-- The place of something that should be there. -/
def locate (fs : FileSystem) (p : Path) : Except IoError Place := do
  p.check
  fs.walk [] p.pieces

/-- The place of something that may be made there. -/
def locateEntry (fs : FileSystem) (p : Path) : Except IoError Place := do
  p.check
  fs.walk [] p.trimmed

/-- The place of the directory that something may be made in. -/
def locateParent (fs : FileSystem) (p : Path) : Except IoError Place := do
  p.check
  fs.walk [] (p.trimmed.dropLast ++ ["."])

/-- What a path leads to. -/
def lookup? (fs : FileSystem) (p : Path) : Option Node :=
  match fs.locate p with
  | .ok place => fs.node? place
  | .error _ => none

/-! ## Operations -/

/-- Whether a path leads to a directory. -/
def isDirectory (fs : FileSystem) (p : Path) : Bool :=
  fs.lookup? p == some .directory

/-- Makes a directory where nothing stands. -/
def makeDirectory (fs : FileSystem) (p : Path) : Except IoError FileSystem := do
  let place ← fs.locateEntry p
  match fs.node? place with
  | some _ => throw .alreadyExists
  | none => return fs.put place .directory

/-- Makes an empty file where nothing stands, and leaves alone a file that is there.  A path that
asks for a directory is refused before its last name is looked at. -/
def create (fs : FileSystem) (p : Path) : Except IoError FileSystem := do
  if p.endsInSlash then
    let _ ← fs.locateParent p
    throw .isADirectory
  let place ← fs.locateEntry p
  match fs.node? place with
  | some .directory => throw .isADirectory
  | some (.file _) => return fs
  | none => return fs.put place (.file [])

/-- The place and the bytes of a file. -/
def openFile (fs : FileSystem) (p : Path) : Except IoError (Place × Bytes) := do
  let place ← fs.locate p
  match fs.node? place with
  | none => throw .notFound
  | some .directory => throw .isADirectory
  | some (.file content) => return (place, content)

/-- Adds bytes at the end of a file. -/
def append (fs : FileSystem) (p : Path) (bytes : Bytes) : Except IoError FileSystem := do
  let (place, content) ← fs.openFile p
  return fs.put place (.file (content ++ bytes))

/-- The bytes of a file. -/
def read (fs : FileSystem) (p : Path) : Except IoError Bytes :=
  Prod.snd <$> fs.openFile p

/-- Goes on from the file system after an operation, or from the same one if it failed. -/
def update (operation : FileSystem → Except IoError FileSystem) :
    ExceptT IoError (StateM FileSystem) Unit := do
  set (← operation (← get))

instance : Disk (StateM FileSystem) where
  makeDirectory p := update (·.makeDirectory p)
  isDirectory p := return (← get).isDirectory p
  create p := update (·.create p)
  append p _ bytes := update (·.append p bytes)
  read p := do (← get).read p

/-! ## Building by hand -/

/-- The file system with a directory at a path, and directories on the way there. -/
def withDirectory (fs : FileSystem) (p : Path) : FileSystem :=
  ((Disk.makeDirectories (m := StateM FileSystem) (p :: p.ancestors)).run fs).2

/-- The file system with a file at a path, and directories on the way there. -/
def withFile (fs : FileSystem) (p : Path) (content : Bytes) : FileSystem :=
  let fs := ((Disk.openForAppending (m := StateM FileSystem) p).run fs).2
  match fs.openFile p with
  | .ok (place, _) => fs.put place (.file content)
  | .error _ => fs

/-- The file system without what stands at a path and below it. -/
def without (fs : FileSystem) (p : Path) : FileSystem :=
  match fs.locate p with
  | .ok place => { nodes := fs.nodes.filter fun other _ => !place.isPrefixOf other }
  | .error _ => fs

end FileSystem

end RecordLog
