import RecordLog.Record
import RecordLog.Format.Symbol

/-! # How a record is written

A record is written as one object: its fields in the order of their names, name and value in
double quotes, a colon between the two, a comma between fields, and no blanks.

* `Format.escape`: a backslash before each quote and backslash, all other bytes as they are.
* `Format.object`: the object of a list of fields.
* `Record.encode`: the object of a record, if all its names may be written.
-/

namespace RecordLog

namespace Format

/-- A byte of a name or value as it stands between the quotes. -/
def escapeByte (b : UInt8) : Bytes :=
  if b = quote ∨ b = backslash then [backslash, b] else [b]

/-- Bytes of a name or value as they stand between the quotes. -/
def escape (bytes : Bytes) : Bytes :=
  bytes.flatMap escapeByte

/-- Writes a text, as it stands between the quotes, behind what was written before. -/
def appendEscaped (written : Bytes) (text : String) : Bytes :=
  written ++ escape (Utf8.encode text)

/-- A text between quotes. -/
def quoted (text : String) : Bytes :=
  appendEscaped [quote] text ++ [quote]

/-- A field: its name, a colon, its value. -/
def member (field : String × String) : Bytes :=
  quoted field.1 ++ colon :: quoted field.2

/-- Fields with a comma between each two. -/
def members : List (String × String) → Bytes
  | [] => []
  | field :: rest => member field ++ rest.flatMap fun f => comma :: member f

/-- The object of these fields. -/
def object (fields : List (String × String)) : Bytes :=
  openBrace :: members fields ++ [closeBrace]

end Format

namespace Record

/-- The bytes of a record, whether or not its names may be written. -/
def toObject (r : Record) : Bytes :=
  Format.object r.toList

/-- The bytes of a record; nothing is written when one of its names is not valid. -/
def encode (r : Record) : Except Error Bytes := do
  r.validate
  return r.toObject

end Record

end RecordLog
