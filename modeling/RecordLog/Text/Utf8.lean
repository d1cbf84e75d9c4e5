/-! # Text as UTF-8 bytes

A log is a string of bytes, and the names and values in it are texts.

* `Utf8.encode` gives the bytes of a text.
* `Utf8.decodeLossy` reads any bytes as a text.  Each longest stretch that begins a character
  without finishing it, and each byte that begins none, becomes one U+FFFD.
-/

namespace RecordLog

/-- A string of bytes. -/
abbrev Bytes := List UInt8

namespace Utf8

/-- The bytes of a text. -/
def encode (text : String) : Bytes :=
  text.toList.flatMap String.utf8EncodeChar

/-- What stands for bytes that spell no character. -/
abbrev replacement : Char := '\uFFFD'

/-! ## Characters begun -/

/-- A character of which some bytes were read: the bits so far, how many bytes are still due, and
the range the next one must lie in. -/
structure Begun where
  bits : Nat
  due : Nat
  low : Nat
  high : Nat
  deriving DecidableEq, Repr

/-- The character that a first byte above the ASCII range begins.  The narrowed ranges leave out
the overlong forms, the surrogates and the numbers above U+10FFFF. -/
def Begun.ofLead? (b : Nat) : Option Begun :=
  if 0xC2 ≤ b ∧ b ≤ 0xDF then some ⟨b % 32, 1, 0x80, 0xBF⟩
  else if b = 0xE0 then some ⟨0, 2, 0xA0, 0xBF⟩
  else if b = 0xED then some ⟨13, 2, 0x80, 0x9F⟩
  else if 0xE1 ≤ b ∧ b ≤ 0xEF then some ⟨b % 16, 2, 0x80, 0xBF⟩
  else if b = 0xF0 then some ⟨0, 3, 0x90, 0xBF⟩
  else if 0xF1 ≤ b ∧ b ≤ 0xF3 then some ⟨b % 8, 3, 0x80, 0xBF⟩
  else if b = 0xF4 then some ⟨4, 3, 0x80, 0x8F⟩
  else none

/-! ## Decoding -/

/-- A decoder between two bytes: the characters written, last first, and the one begun. -/
structure Decoder where
  written : List Char := []
  begun : Option Begun := none
  deriving DecidableEq, Repr

namespace Decoder

/-- Reads a byte that no begun character claims. -/
def lead (written : List Char) (b : UInt8) : Decoder :=
  if b.toNat < 0x80 then { written := Char.ofNat b.toNat :: written }
  else
    match Begun.ofLead? b.toNat with
    | some c => { written, begun := some c }
    | none => { written := replacement :: written }

/-- Reads one byte.  A byte that cannot go on the begun character ends it as ill-formed and is
then read as a first byte itself. -/
def step (d : Decoder) (b : UInt8) : Decoder :=
  match d.begun with
  | none => lead d.written b
  | some c =>
    if c.low ≤ b.toNat ∧ b.toNat ≤ c.high then
      let bits := c.bits * 64 + b.toNat % 64
      if c.due ≤ 1 then { written := Char.ofNat bits :: d.written }
      else { d with begun := some ⟨bits, c.due - 1, 0x80, 0xBF⟩ }
    else lead (replacement :: d.written) b

/-- The characters read; one begun and not finished is ill-formed. -/
def finish (d : Decoder) : List Char :=
  match d.begun with
  | none => d.written.reverse
  | some _ => (replacement :: d.written).reverse

end Decoder

/-- The text that bytes spell, with U+FFFD for what spells no character. -/
def decodeLossy (bytes : Bytes) : String :=
  String.ofList (bytes.foldl Decoder.step {}).finish

end Utf8

end RecordLog
