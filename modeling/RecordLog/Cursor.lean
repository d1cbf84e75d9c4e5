import RecordLog.Search

/-! # Going through a buffer record by record

A cursor stands at a position of a buffer and yields the records from there on, one at a time.

* `Cursor.next`: the next record, and the cursor past it.
* `Cursor.drain`: every record from a cursor on.
* `records`: every record of a buffer.
-/

namespace RecordLog

/-- A position of a buffer, with the bytes from there on. -/
structure Cursor where
  position : Nat
  rest : Bytes
  deriving DecidableEq, Repr

namespace Cursor

/-- The cursor at a position of a buffer, which may lie past its end. -/
def seek (buffer : Bytes) (position : Nat) : Cursor :=
  { position, rest := buffer.drop position }

/-- The cursor at the start of a buffer. -/
def ofBuffer (buffer : Bytes) : Cursor :=
  seek buffer 0

/-- The next record, and the cursor past it; where there is none, the cursor at the end. -/
def next (c : Cursor) : Option Located × Cursor :=
  match find? c.rest with
  | some found =>
    (some found,
      { position := c.position + found.span.reach, rest := c.rest.drop found.span.reach })
  | none => (none, { position := c.position + c.rest.length, rest := [] })

theorem length_rest_next_lt {c c' : Cursor} {found : Located} (h : c.next = (some found, c')) :
    c'.rest.length < c.rest.length := by
  unfold next at h
  split at h
  next hfind => cases h; exact length_drop_reach_lt hfind
  next => cases h

/-- Every record from a cursor on. -/
def drain (c : Cursor) : List Located :=
  match _h : c.next with
  | (some found, c') => found :: c'.drain
  | (none, _) => []
  termination_by c.rest.length
  decreasing_by exact length_rest_next_lt _h

end Cursor

/-- Every record of a buffer, each with the span from where the one before it ended. -/
def records (buffer : Bytes) : List Located :=
  (Cursor.ofBuffer buffer).drain

end RecordLog
