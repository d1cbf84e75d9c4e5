import RecordLog.Record
import RecordLog.Format.Reading

/-! # Finding records

A log may hold anything between its records.  A record is looked for at each opening brace from
left to right.

* `inspect`: what stands at an opening brace.
* `find?`: the first record in some bytes.  After a reading that failed the search goes on at the
  next byte; an object with a name that may not be written is passed over whole.
* `decodeAt`: the first record at or after a position of a buffer.
* `length_drop_reach_lt`: a search past a found record has fewer bytes before it.
-/

namespace RecordLog

/-- A record found in bytes: its fields, and the span it takes from where the search began. -/
structure Located where
  fields : Fields
  span : Span

/-- A found record, which carries its span. -/
def Located.record (found : Located) : Record :=
  { fields := found.fields, span := some found.span }

/-! ## One opening brace -/

/-- A member as a field, with U+FFFD for bytes that spell no character. -/
def fieldOf (m : Format.RawMember) : String × String :=
  (Utf8.decodeLossy m.1, Utf8.decodeLossy m.2)

/-- What stands at an opening brace. -/
inductive Verdict where
  /-- A record of this many bytes. -/
  | record (fields : Fields) (length : Nat)
  /-- An object of this many bytes that is no record: one of its names may not be written. -/
  | reserved (length : Nat)
  /-- No object. -/
  | malformed
  /-- The bytes end within an object. -/
  | truncated

/-- Reads what bytes begin with.  Of two members with one name the last stands. -/
def inspect (bytes : Bytes) : Verdict :=
  match Format.read bytes with
  | .object members length =>
    let fields := members.map fieldOf
    if ∀ f ∈ fields, FieldName.Valid f.1 then .record (.ofList fields) length
    else .reserved length
  | .malformed => .malformed
  | .truncated => .truncated

/-! ## The search -/

/-- The first record in bytes, after `passed` bytes were passed over and with `skip` more to pass
over before the next brace counts. -/
def findFrom (passed skip : Nat) : Bytes → Option Located
  | [] => none
  | b :: rest =>
    match skip with
    | skip + 1 => findFrom (passed + 1) skip rest
    | 0 =>
      if b = Format.openBrace then
        match inspect (b :: rest) with
        | .record fields length => some { fields, span := { offset := passed, length } }
        | .reserved length => findFrom (passed + 1) (length - 1) rest
        | .malformed => findFrom (passed + 1) 0 rest
        | .truncated => findFrom (passed + 1) 0 rest
      else findFrom (passed + 1) 0 rest

/-- The first record in bytes. -/
def find? (bytes : Bytes) : Option Located :=
  findFrom 0 0 bytes

/-- The first record at or after a position of a buffer. -/
def decodeAt (buffer : Bytes) (start : Nat) : Option Located :=
  find? (buffer.drop start)

/-! ## A search moves on -/

theorem length_pos_of_inspect {n : Nat} {bytes : Bytes} {fields : Fields}
    (h : inspect bytes = .record fields n) : 0 < n := by
  unfold inspect at h
  split at h
  next members length hread =>
    dsimp only at h
    split at h
    · cases h; exact Format.length_pos_of_read hread
    · cases h
  all_goals cases h

theorem length_pos_of_findFrom {bytes : Bytes} {found : Located} :
    ∀ {passed skip : Nat}, findFrom passed skip bytes = some found → 0 < found.span.length := by
  induction bytes with
  | nil => intro passed skip h; simp [findFrom] at h
  | cons b rest ih =>
    intro passed skip h
    unfold findFrom at h
    split at h
    · exact ih h
    · split at h
      · split at h
        next hinspect => cases h; exact length_pos_of_inspect hinspect
        all_goals exact ih h
      · exact ih h

/-- A found record takes at least one byte. -/
theorem length_pos_of_find? {bytes : Bytes} {found : Located} (h : find? bytes = some found) :
    0 < found.span.length :=
  length_pos_of_findFrom h

/-- A search past a found record has fewer bytes before it. -/
theorem length_drop_reach_lt {bytes : Bytes} {found : Located} (h : find? bytes = some found) :
    (bytes.drop found.span.reach).length < bytes.length := by
  have hpos := length_pos_of_find? h
  cases bytes with
  | nil => simp [find?, findFrom] at h
  | cons b rest => simp only [List.length_drop, List.length_cons, Span.reach]; omega

end RecordLog
