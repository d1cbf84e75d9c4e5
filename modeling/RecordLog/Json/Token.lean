/-! # The tokens of JSON

JSON text is read character by character into tokens, of those kinds that an object of texts can
hold.  Any other character between tokens is an error, and so is text that ends within a token.

* `Lexer.step`: what one character does.
* `tokens?`: all tokens of a text.
* `joinUnits`: pairs of surrogates, which only `\u` escapes can spell, become one character.
-/

namespace RecordLog.Json

/-- A token of an object of texts. -/
inductive Token where
  | openBrace
  | closeBrace
  | colon
  | comma
  | text (text : String)
  deriving DecidableEq, Repr

/-! ## Characters of a text -/

/-- The first half of a pair. -/
def isHighSurrogate (code : Nat) : Bool :=
  0xD800 ≤ code && code ≤ 0xDBFF

/-- The second half of a pair. -/
def isLowSurrogate (code : Nat) : Bool :=
  0xDC00 ≤ code && code ≤ 0xDFFF

/-- The characters of codes that are given last first, before those already joined.  A surrogate
without the other half of its pair is an error. -/
def joinUnits (joined : List Char) : List Nat → Option (List Char)
  | [] => some joined
  | code :: rest =>
    if isLowSurrogate code then
      match rest with
      | high :: rest =>
        if isHighSurrogate high then
          joinUnits
            (Char.ofNat (0x10000 + (high - 0xD800) * 0x400 + (code - 0xDC00)) :: joined) rest
        else none
      | [] => none
    else if isHighSurrogate code then none
    else joinUnits (Char.ofNat code :: joined) rest

/-- The value of a hexadecimal digit. -/
def hexDigit? (c : Char) : Option Nat :=
  if '0' ≤ c ∧ c ≤ '9' then some (c.toNat - '0'.toNat)
  else if 'a' ≤ c ∧ c ≤ 'f' then some (c.toNat - 'a'.toNat + 10)
  else if 'A' ≤ c ∧ c ≤ 'F' then some (c.toNat - 'A'.toNat + 10)
  else none

/-- The code that a letter behind a backslash stands for. -/
def escapedCode? (c : Char) : Option Nat :=
  match c with
  | '"' | '\\' | '/' => some c.toNat
  | 'b' => some 0x08
  | 'f' => some 0x0C
  | 'n' => some 0x0A
  | 'r' => some 0x0D
  | 't' => some 0x09
  | _ => none

/-! ## The lexer -/

/-- Where between two characters a lexer stands.  Codes of a text are kept last first. -/
inductive Mode where
  /-- Between tokens. -/
  | between
  /-- Inside a text. -/
  | text (codes : List Nat)
  /-- Inside a text, past a backslash. -/
  | escape (codes : List Nat)
  /-- Inside a text, past a `\u` and some digits: how many are due, and their value so far. -/
  | number (codes : List Nat) (due value : Nat)
  deriving DecidableEq, Repr

/-- The tokens read, last first, and where the lexer stands. -/
structure Lexer where
  tokens : List Token := []
  mode : Mode := .between
  deriving DecidableEq, Repr

namespace Lexer

/-- The lexer past one more token. -/
def push (l : Lexer) (token : Token) : Lexer :=
  { tokens := token :: l.tokens }

/-- Reads one character. -/
def step (l : Lexer) (c : Char) : Option Lexer :=
  match l.mode with
  | .between =>
    match c with
    | ' ' | '\t' | '\n' | '\r' => some l
    | '{' => some (l.push .openBrace)
    | '}' => some (l.push .closeBrace)
    | ':' => some (l.push .colon)
    | ',' => some (l.push .comma)
    | '"' => some { l with mode := .text [] }
    | _ => none
  | .text codes =>
    if c = '"' then (joinUnits [] codes).map fun text => l.push (.text (String.ofList text))
    else if c = '\\' then some { l with mode := .escape codes }
    else if c.toNat < 0x20 then none
    else some { l with mode := .text (c.toNat :: codes) }
  | .escape codes =>
    if c = 'u' then some { l with mode := .number codes 4 0 }
    else (escapedCode? c).map fun code => { l with mode := .text (code :: codes) }
  | .number codes due value =>
    (hexDigit? c).map fun digit =>
      let value := value * 16 + digit
      { l with mode := if due ≤ 1 then .text (value :: codes) else .number codes (due - 1) value }

end Lexer

/-- All tokens of a text. -/
def tokens? (text : List Char) : Option (List Token) :=
  match text.foldlM Lexer.step {} with
  | some { tokens, mode := .between } => some tokens.reverse
  | _ => none

end RecordLog.Json
