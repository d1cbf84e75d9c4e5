import RecordLog.Json.Token

/-! # Reading JSON objects

`Json.object?` reads strict JSON that is one object with texts for values.  A name may occur more
than once; all members are yielded in the order they are written.
-/

namespace RecordLog.Json

/-- The members up to the closing brace: at least one, with a comma between each two. -/
def members? : List Token → Option (List (String × String))
  | [.text name, .colon, .text value, .closeBrace] => some [(name, value)]
  | .text name :: .colon :: .text value :: .comma :: rest =>
    (members? rest).map ((name, value) :: ·)
  | _ => none

/-- The members of the object that a text is. -/
def object? (text : List Char) : Option (List (String × String)) :=
  match tokens? text with
  | some [.openBrace, .closeBrace] => some []
  | some (.openBrace :: rest) => members? rest
  | _ => none

end RecordLog.Json
