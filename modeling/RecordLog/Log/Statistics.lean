import RecordLog.Cursor

/-! # What a buffer is made of

Each byte of a buffer belongs to a record, is a blank outside every record, or is garbage.
`Statistics.ofBuffer` counts them.
-/

namespace RecordLog

/-- How many records a buffer holds, and what its bytes are. -/
structure Statistics where
  /-- The number of records. -/
  records : Nat := 0
  /-- All bytes. -/
  totalBytes : Nat := 0
  /-- The bytes of records, braces included. -/
  recordBytes : Nat := 0
  /-- The bytes outside every record that are not blank. -/
  garbageBytes : Nat := 0
  deriving DecidableEq, Repr

/-- The number of bytes that are not blank. -/
def garbage (bytes : Bytes) : Nat :=
  bytes.countP fun b => !Format.isBlank b

namespace Statistics

/-- There is nothing but records and blanks. -/
def isClean (s : Statistics) : Bool :=
  s.garbageBytes == 0

/-- Puts the gap and the bytes of one record in front of what was counted behind it. -/
def cons (gap : Bytes) (length : Nat) (s : Statistics) : Statistics where
  records := s.records + 1
  totalBytes := s.totalBytes + gap.length + length
  recordBytes := s.recordBytes + length
  garbageBytes := s.garbageBytes + garbage gap

/-- Counts the records and bytes of a buffer. -/
def ofBuffer (buffer : Bytes) : Statistics :=
  match _h : find? buffer with
  | some found =>
    cons (buffer.take found.span.offset) found.span.length
      (ofBuffer (buffer.drop found.span.reach))
  | none => { totalBytes := buffer.length, garbageBytes := garbage buffer }
  termination_by buffer.length
  decreasing_by exact length_drop_reach_lt _h

end Statistics

end RecordLog
