import RecordLog.Error

/-! # Paths

A path is a text that a slash divides into pieces.  An empty piece and the piece `.` lead nowhere,
`..` leads to the directory above, and any other piece is a name.

* `Path.check`: what makes a text no path at all, whatever files there are.
* `Path.ancestors`: the directories that a path leads through.
-/

namespace RecordLog

/-- The text that names a file or directory. -/
structure Path where
  text : String
  deriving DecidableEq, Repr

namespace Path

/-- The parts of a text before, between and after its slashes. -/
def splitAtSlashes : List Char → List (List Char)
  | [] => [[]]
  | c :: rest =>
    if c = '/' then [] :: splitAtSlashes rest
    else
      match splitAtSlashes rest with
      | [] => [[c]]
      | piece :: more => (c :: piece) :: more

/-- The pieces of a path, empty ones included. -/
def pieces (p : Path) : List String :=
  (splitAtSlashes p.text.toList).map String.ofList

/-- A piece that leads nowhere. -/
def isIdle (piece : String) : Bool :=
  piece == "" || piece == "."

/-- Something is asked for that must be a directory. -/
def endsInSlash (p : Path) : Bool :=
  p.text.toList.getLast? == some '/'

/-- The pieces without the empty ones at the end. -/
def trimmed (p : Path) : List String :=
  (p.pieces.reverse.dropWhile (· == "")).reverse

/-- The most bytes that one name may have. -/
def nameLimit : Nat := 255

/-- The most bytes that a whole path may have. -/
def textLimit : Nat := 4095

/-- Refuses a text that can lead nowhere: one with a NUL, the empty one, and one that is too
long. -/
def check (p : Path) : Except IoError Unit :=
  if '\x00' ∈ p.text.toList then .error .nulInName
  else if p.text = "" then .error .notFound
  else if textLimit < p.text.utf8ByteSize then .error .nameTooLong
  else .ok ()

/-- The ways along some pieces, given last first, that end in a piece that leads somewhere; the
longest first. -/
def stops : List String → List (List String)
  | [] => []
  | piece :: before =>
    if isIdle piece then stops before else (piece :: before).reverse :: stops before

/-- The directories that a path leads through, the nearest first.  Each is the beginning of the
path's own text, so idle pieces on the way to it count towards its length. -/
def ancestors (p : Path) : List Path :=
  (stops p.pieces.reverse).tail.map fun pieces => { text := "/".intercalate pieces }

end Path

end RecordLog
