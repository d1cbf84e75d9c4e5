import RecordLog.Format.Symbol

/-! # What an object is

The grammar that `Format.read` decides, as relations between the bytes of a thing and what they
mean.  Blanks may stand around names, values, colons and commas, and nowhere else.

* `Spells written meant`: what stands between two quotes, and the bytes it is for.
* `IsMember written m`: a name and its value.
* `IsObject written ms`: an object and its members from left to right.
-/

namespace RecordLog.Format

/-- The bytes of a name and of its value, escapes removed. -/
abbrev RawMember := Bytes × Bytes

/-- Only blank bytes. -/
def Blank (gap : Bytes) : Prop :=
  ∀ b ∈ gap, isBlank b

theorem blank_nil : Blank [] := fun _ h => absurd h List.not_mem_nil

theorem blank_cons {b : UInt8} {gap : Bytes} : Blank (b :: gap) ↔ isBlank b = true ∧ Blank gap :=
  List.forall_mem_cons

/-- What stands between two quotes, and the bytes it is for: a byte behind a backslash is meant as
itself, whatever it is. -/
inductive Spells : Bytes → Bytes → Prop
  | nil : Spells [] []
  | plain {b : UInt8} {written meant : Bytes} :
      b ≠ quote → b ≠ backslash → Spells written meant → Spells (b :: written) (b :: meant)
  | escaped (b : UInt8) {written meant : Bytes} :
      Spells written meant → Spells (backslash :: b :: written) (b :: meant)

/-- A name and a value in quotes, with a colon between them. -/
inductive IsMember : Bytes → RawMember → Prop
  | mk {name value before after : Bytes} {m : RawMember} :
      Spells name m.1 → Blank before → Blank after → Spells value m.2 →
      IsMember (quote :: name ++ quote :: before ++ colon :: after ++ quote :: value ++ [quote]) m

/-- Further members, each behind a comma. -/
inductive AreMore : Bytes → List RawMember → Prop
  | nil : AreMore [] []
  | cons {before after written more : Bytes} {m : RawMember} {ms : List RawMember} :
      Blank before → Blank after → IsMember written m → AreMore more ms →
      AreMore (before ++ comma :: after ++ written ++ more) (m :: ms)

/-- An object: nothing but blanks between the braces, or one member and more. -/
inductive IsObject : Bytes → List RawMember → Prop
  | empty {gap : Bytes} : Blank gap → IsObject (openBrace :: gap ++ [closeBrace]) []
  | members {before after written more : Bytes} {m : RawMember} {ms : List RawMember} :
      Blank before → IsMember written m → AreMore more ms → Blank after →
      IsObject (openBrace :: before ++ written ++ more ++ after ++ [closeBrace]) (m :: ms)

end RecordLog.Format
