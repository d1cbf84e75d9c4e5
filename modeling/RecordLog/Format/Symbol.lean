import RecordLog.Text.Utf8

/-! # The bytes that give an object its shape

An object is written in braces, with its names and values in double quotes.  Everything here is
one ASCII byte, so no byte of a longer character is ever taken for one of them.
-/

namespace RecordLog.Format

/-- The byte `"`, before and after a name or value. -/
abbrev quote : UInt8 := 34

/-- The byte `,`, between two members. -/
abbrev comma : UInt8 := 44

/-- The byte `:`, between a name and its value. -/
abbrev colon : UInt8 := 58

/-- The byte `\`, before a byte that is meant as itself. -/
abbrev backslash : UInt8 := 92

/-- The byte that begins an object. -/
abbrev openBrace : UInt8 := 123

/-- The byte that ends an object. -/
abbrev closeBrace : UInt8 := 125

/-- The byte that ends a line of a log. -/
abbrev newline : UInt8 := 10

/-- Blank bytes may stand between the parts of an object: tab, line feed, form feed, carriage
return and space. -/
def isBlank (b : UInt8) : Bool :=
  b == 9 || b == 10 || b == 12 || b == 13 || b == 32

theorem isBlank_quote : isBlank quote = false := rfl
theorem isBlank_colon : isBlank colon = false := rfl
theorem isBlank_closeBrace : isBlank closeBrace = false := rfl

end RecordLog.Format
