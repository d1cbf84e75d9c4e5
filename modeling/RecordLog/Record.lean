import Std.Data.ExtTreeMap
import RecordLog.Error

/-! # Records

A record is a set of named fields, kept in the order of their names.  A record found in a log also
carries the span of the bytes it was read from.

* `FieldName.Valid`: the names that may be written, neither empty nor reserved.
* `Span`: where a record lay, counted from where the search for it began.
* `Record.validate`: the first name, in order, that may not be written.
* Two records are equal under `==` when their fields are; where they were found does not matter.
-/

namespace RecordLog

/-! ## Field names -/

namespace FieldName

/-- A name that begins with this mark is reserved. -/
def reservedMark : Char := '_'

/-- A name that may be written: not empty, and not reserved. -/
def Valid (name : String) : Prop :=
  name.toList ≠ [] ∧ name.toList.head? ≠ some reservedMark

instance (name : String) : Decidable (Valid name) :=
  inferInstanceAs (Decidable (_ ∧ _))

/-- Refuses a name that may not be written. -/
def validate (name : String) : Except Error Unit :=
  if Valid name then .ok () else .error (.invalidFieldName name)

end FieldName

/-! ## Spans -/

/-- Where a record lay: how many bytes were passed over before it, and how many it takes. -/
structure Span where
  offset : Nat
  length : Nat
  deriving DecidableEq, Repr

/-- How far past the start of the search the record ends. -/
def Span.reach (s : Span) : Nat :=
  s.offset + s.length

/-! ## Records -/

/-- Values by name, in ascending order of the names' code points. -/
abbrev Fields := Std.ExtTreeMap String String

/-- A record, with the span it was found at if it was read from a log. -/
structure Record where
  fields : Fields := ∅
  span : Option Span := none

namespace Record

instance : EmptyCollection Record := ⟨{}⟩

instance : Inhabited Record := ⟨∅⟩

/-- Records are equal when their fields are. -/
instance : BEq Record := ⟨fun r s => decide (r.fields = s.fields)⟩

theorem beq_iff {r s : Record} : (r == s) = true ↔ r.fields = s.fields :=
  decide_eq_true_iff

/-- The record of these fields.  The last value for a name stands. -/
def ofList (fields : List (String × String)) : Record :=
  { fields := .ofList fields }

/-- The fields in the order of their names. -/
def toList (r : Record) : List (String × String) :=
  r.fields.toList

/-- Sets the value of a field; the record stays where it was found. -/
def insert (r : Record) (name value : String) : Record :=
  { r with fields := r.fields.insert name value }

/-- Takes a field away; the record stays where it was found. -/
def erase (r : Record) (name : String) : Record :=
  { r with fields := r.fields.erase name }

/-- The value of a field. -/
def get? (r : Record) (name : String) : Option String :=
  r.fields[name]?

/-- Whether there is a field of this name. -/
def contains (r : Record) (name : String) : Bool :=
  r.fields.contains name

/-- The number of fields. -/
def size (r : Record) : Nat :=
  r.fields.size

/-- Whether there is no field. -/
def isEmpty (r : Record) : Bool :=
  r.fields.isEmpty

/-- Whether a field has exactly this value; a record without the field has not. -/
def hasField (r : Record) (name value : String) : Bool :=
  r.get? name == some value

/-- A record that may be written: every name is valid. -/
def Valid (r : Record) : Prop :=
  ∀ name ∈ r.fields.keys, FieldName.Valid name

instance (r : Record) : Decidable r.Valid :=
  inferInstanceAs (Decidable (∀ _ ∈ _, _))

/-- Refuses a record that may not be written, for the first name in order that is not valid. -/
def validate (r : Record) : Except Error Unit :=
  r.fields.keys.forM FieldName.validate

end Record

end RecordLog
