import RecordLog.Text.Quoted

/-! # What can go wrong

Ill-formed bytes in a log are no error: reading passes over them.  Errors come from names that may
not be written, from the place where the bytes are kept, and from what the user asked for.

* `IoError`: why a file operation failed.
* `Error`: why an operation on a log or a command failed; `Error.message` is its wording.
-/

namespace RecordLog

/-- Why a file operation failed. -/
inductive IoError where
  | notFound
  | alreadyExists
  | notADirectory
  | isADirectory
  /-- A name or a path has more bytes than the system takes. -/
  | nameTooLong
  /-- The system takes no path with a NUL in it. -/
  | nulInName
  | other (text : String)
  deriving DecidableEq, Repr

/-- The wording of a file error, with the system's number where it has one. -/
def IoError.message : IoError → String
  | notFound => "No such file or directory (os error 2)"
  | alreadyExists => "File exists (os error 17)"
  | notADirectory => "Not a directory (os error 20)"
  | isADirectory => "Is a directory (os error 21)"
  | nameTooLong => "File name too long (os error 36)"
  | nulInName => "file name contained an unexpected NUL byte"
  | other text => text

/-- Why an operation on a log or a command failed. -/
inductive Error where
  /-- A field name that is empty or carries the reserved mark. -/
  | invalidFieldName (name : String)
  /-- The bytes could not be kept or fetched. -/
  | io (cause : IoError)
  /-- A value could not be written in another format. -/
  | serialization (text : String)
  /-- A setting or argument makes no sense. -/
  | config (text : String)
  deriving DecidableEq, Repr

/-- The wording of an error. -/
def Error.message : Error → String
  | invalidFieldName name => "Invalid field name: " ++ Text.quoted name
  | io cause => "IO error: " ++ cause.message
  | serialization text => "Serialization error: " ++ text
  | config text => "Configuration error: " ++ text

end RecordLog
