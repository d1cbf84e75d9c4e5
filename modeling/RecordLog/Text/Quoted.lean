import RecordLog.Text.Hidden

/-! # Text in double quotes, for messages

`Text.quoted` shows a text so that a reader of a message sees every character of it: the quote
and the backslash behind a backslash, four controls by a letter, and hidden characters by their
number.
-/

namespace RecordLog.Text

/-- A character shown by its number: `\u`, then lower-case hexadecimal digits in braces. -/
def numbered (c : Char) : List Char :=
  ['\\', 'u', '{'] ++ Nat.toDigits 16 c.toNat ++ ['}']

/-- What a character looks like between the quotes. -/
def quotedChar (c : Char) : List Char :=
  match c with
  | '"' => ['\\', '"']
  | '\\' => ['\\', '\\']
  | '\x00' => ['\\', '0']
  | '\t' => ['\\', 't']
  | '\n' => ['\\', 'n']
  | '\r' => ['\\', 'r']
  | c => if isHidden c then numbered c else [c]

/-- A text in double quotes. -/
def quoted (text : String) : String :=
  String.ofList ('"' :: text.toList.flatMap quotedChar ++ ['"'])

end RecordLog.Text
