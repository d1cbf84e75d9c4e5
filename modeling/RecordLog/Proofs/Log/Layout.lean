import RecordLog.Log.Statistics
import RecordLog.Proofs.Log.Lines

/-! # What stands where in a log

Bytes that are made of written records, with bytes between them in which no object begins, are made
of nothing else to a search.  The records found are those written, each with the bytes before it as
its offset, and the bytes outside of them are the ones counted as garbage unless they are blank.

* `Gap`, `Layout`: bytes in which no object begins, and records with such bytes around them.
* `records_bytes`: the records of a layout's bytes are the records of the layout.
* `ofBuffer_bytes`: the statistics of a layout's bytes.
-/

namespace RecordLog

open Format

/-- Bytes in which no object begins. -/
structure Gap where
  bytes : Bytes
  plain : openBrace ∉ bytes

namespace Gap

def lineEnd : Gap where
  bytes := [newline]
  plain := by decide

def append (gap more : Gap) : Gap where
  bytes := gap.bytes ++ more.bytes
  plain := by
    rw [List.mem_append]
    exact not_or.mpr ⟨gap.plain, more.plain⟩

end Gap

/-- A record that may be written, and the gap before it. -/
structure Layout.Entry where
  gap : Gap
  record : Record
  valid : record.Valid

/-- Records with the gaps before them, and the gap behind the last. -/
structure Layout where
  entries : List Layout.Entry
  rest : Gap

/-! ## Statistics of a buffer -/

theorem garbage_append (bytes more : Bytes) :
    garbage (bytes ++ more) = garbage bytes + garbage more :=
  List.countP_append

namespace Statistics

theorem ofBuffer_of_find?_eq_none {bytes : Bytes} (h : find? bytes = none) :
    ofBuffer bytes = { totalBytes := bytes.length, garbageBytes := garbage bytes } := by
  rw [ofBuffer]
  split
  next found hfound =>
    rw [h] at hfound
    cases hfound
  next => rfl

theorem ofBuffer_of_find?_eq_some {bytes : Bytes} {found : Located} (h : find? bytes = some found) :
    ofBuffer bytes = cons (bytes.take found.span.offset) found.span.length
      (ofBuffer (bytes.drop found.span.reach)) := by
  rw [ofBuffer]
  split
  next found' hfound' =>
    rw [h] at hfound'
    cases hfound'
    rfl
  next hnone =>
    rw [h] at hnone
    cases hnone

end Statistics

/-! ## Gaps and entries -/

namespace Layout

namespace Entry

def bytes (e : Entry) : Bytes :=
  e.gap.bytes ++ e.record.toObject

/-- The record as it is found behind the entry before. -/
def found (e : Entry) : Located where
  fields := e.record.fields
  span := { offset := e.gap.bytes.length, length := e.record.toObject.length }

theorem reach_found (e : Entry) : e.found.span.reach = e.bytes.length :=
  List.length_append.symm

/-- **The first record behind a gap is the one written there**, whatever follows. -/
theorem find?_append (e : Entry) (more : Bytes) : find? (e.bytes ++ more) = some e.found := by
  rw [bytes, List.append_assoc, find?_append_of_not_mem e.gap.plain, find?_toObject_append e.valid]
  rfl

theorem records_append (e : Entry) (more : Bytes) :
    records (e.bytes ++ more) = e.found :: records more := by
  rw [records_of_find?_eq_some (e.find?_append more), reach_found, List.drop_left]

theorem ofBuffer_append (e : Entry) (more : Bytes) :
    Statistics.ofBuffer (e.bytes ++ more) =
      .cons e.gap.bytes e.record.toObject.length (.ofBuffer more) := by
  have htake : (e.bytes ++ more).take e.found.span.offset = e.gap.bytes := by
    rw [bytes, List.append_assoc]
    exact List.take_left
  rw [Statistics.ofBuffer_of_find?_eq_some (e.find?_append more), htake, reach_found,
    List.drop_left]
  rfl

end Entry

/-! ## Layouts -/

def bytes (l : Layout) : Bytes :=
  l.entries.flatMap Entry.bytes ++ l.rest.bytes

/-- The bytes of a layout that belong to no record. -/
def outside (l : Layout) : Bytes :=
  (l.entries.flatMap fun e => e.gap.bytes) ++ l.rest.bytes

/-- The bytes of the records of a layout. -/
def inside (l : Layout) : Bytes :=
  l.entries.flatMap fun e => e.record.toObject

theorem bytes_cons (e : Entry) (es : List Entry) (rest : Gap) :
    bytes ⟨e :: es, rest⟩ = e.bytes ++ bytes ⟨es, rest⟩ := by
  rw [bytes, bytes, List.flatMap_cons, List.append_assoc]

theorem outside_cons (e : Entry) (es : List Entry) (rest : Gap) :
    outside ⟨e :: es, rest⟩ = e.gap.bytes ++ outside ⟨es, rest⟩ := by
  rw [outside, outside, List.flatMap_cons, List.append_assoc]

theorem inside_cons (e : Entry) (es : List Entry) (rest : Gap) :
    inside ⟨e :: es, rest⟩ = e.record.toObject ++ inside ⟨es, rest⟩ :=
  List.flatMap_cons

/-- **The records of a layout's bytes are the records of the layout.** -/
theorem records_bytes (l : Layout) : records l.bytes = l.entries.map Entry.found := by
  obtain ⟨entries, rest⟩ := l
  induction entries with
  | nil => exact records_of_find?_eq_none (find?_of_not_mem rest.plain)
  | cons e es ih => rw [bytes_cons, e.records_append, ih, List.map_cons]

/-- **The statistics of a layout's bytes**: the bytes outside of the records that are not blank are
garbage. -/
theorem ofBuffer_bytes (l : Layout) : Statistics.ofBuffer l.bytes =
    { records := l.entries.length
      totalBytes := l.inside.length + l.outside.length
      recordBytes := l.inside.length
      garbageBytes := garbage l.outside } := by
  obtain ⟨entries, rest⟩ := l
  induction entries with
  | nil =>
    have hbytes : bytes ⟨[], rest⟩ = rest.bytes := List.nil_append _
    have houtside : outside ⟨[], rest⟩ = rest.bytes := List.nil_append _
    have htotal : (inside ⟨[], rest⟩).length + rest.bytes.length = rest.bytes.length :=
      Nat.zero_add _
    have hfind : find? rest.bytes = none := find?_of_not_mem rest.plain
    rw [hbytes, houtside, htotal, Statistics.ofBuffer_of_find?_eq_none hfind]
    rfl
  | cons e es ih =>
    rw [bytes_cons, outside_cons, inside_cons, e.ofBuffer_append, ih, garbage_append,
      List.length_append, List.length_append, Statistics.cons, Statistics.mk.injEq]
    refine ⟨rfl, ?_, Nat.add_comm _ _, Nat.add_comm _ _⟩
    dsimp only
    omega

end Layout

end RecordLog
