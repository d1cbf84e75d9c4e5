/-! # Writing JSON

Objects whose values are all texts, written on one line or indented by two spaces a level.

* `Json.quoted`: a text in quotes.  The quote, the backslash and the characters below U+0020 are
  escaped, the latter by a letter where JSON has one; all others stand as they are.
* `Json.object`: an object on one line.
* `Json.prettyObject`, `Json.prettyArray`: an object and an array of objects, indented.
-/

namespace RecordLog.Json

/-- A character as it stands between the quotes. -/
def escapeChar (c : Char) : List Char :=
  match c with
  | '"' => ['\\', '"']
  | '\\' => ['\\', '\\']
  | '\x08' => ['\\', 'b']
  | '\x0c' => ['\\', 'f']
  | '\n' => ['\\', 'n']
  | '\r' => ['\\', 'r']
  | '\t' => ['\\', 't']
  | c =>
    if c.toNat < 0x20 then
      ['\\', 'u', '0', '0', Nat.digitChar (c.toNat / 16), Nat.digitChar (c.toNat % 16)]
    else [c]

/-- A text in quotes. -/
def quoted (text : String) : List Char :=
  '"' :: text.toList.flatMap escapeChar ++ ['"']

/-- Items with a separator between each two. -/
def separated (separator : List Char) : List (List Char) → List Char
  | [] => []
  | item :: rest => item ++ rest.flatMap (separator ++ ·)

/-! ## On one line -/

/-- A name and its value. -/
def member (field : String × String) : List Char :=
  quoted field.1 ++ ':' :: quoted field.2

/-- An object on one line, without blanks. -/
def object (fields : List (String × String)) : List Char :=
  '{' :: separated [','] (fields.map member) ++ ['}']

/-! ## Indented -/

/-- A new line at a level. -/
def newLine (level : Nat) : List Char :=
  '\n' :: List.replicate (2 * level) ' '

/-- Items between brackets at a level, each on lines of its own one level further in. -/
def block (level : Nat) (opening closing : Char) (items : List (List Char)) : List Char :=
  match items with
  | [] => [opening, closing]
  | items =>
    opening :: newLine (level + 1) ++ separated (',' :: newLine (level + 1)) items ++
      newLine level ++ [closing]

/-- A name and its value, with a space between them. -/
def prettyMember (field : String × String) : List Char :=
  quoted field.1 ++ ':' :: ' ' :: quoted field.2

/-- An object at a level, a field on a line. -/
def prettyObject (level : Nat) (fields : List (String × String)) : List Char :=
  block level '{' '}' (fields.map prettyMember)

/-- An array of objects. -/
def prettyArray (objects : List (List (String × String))) : List Char :=
  block 0 '[' ']' (objects.map (prettyObject 1))

end RecordLog.Json
