import RecordLog.Proofs.Log.Account

/-! # Clean logs

A log is clean when it holds no garbage.  Then it is made of nothing but blanks and objects whose
names may be written, in any order and with or without blanks between them: no search in it fails at
a brace, and none passes over a reserved object.  The other way round, a log that is put together
like this is clean, and its records are exactly these objects, whatever braces and blanks stand in
their names and values.

* `Piece`: a blank, or an object whose names may be written.
* `Piece.found`: the records of pieces one behind the other.
* `records_flatMap_bytes`: a search through pieces comes upon their objects and nothing else.
* `exists_pieces`: a buffer without garbage is made of pieces.
* `Log.isClean_iff_exists_pieces`: the logs that are reported clean.
-/

namespace RecordLog

open Format

/-- A part of a log that is no garbage: a blank, or an object whose names may all be written. -/
inductive Piece where
  | blank (b : UInt8) (hb : isBlank b = true)
  | object (written : Bytes) (ms : List RawMember) (hobject : IsObject written ms)
      (hw : Writable ms)

namespace Piece

def bytes : Piece → Bytes
  | blank b _ => [b]
  | object written _ _ _ => written

/-- The bytes of a piece that belong to no record. -/
def between : Piece → Bytes
  | blank b _ => [b]
  | object .. => []

/-- The fields of a piece that is an object. -/
def fields? : Piece → Option Fields
  | blank .. => none
  | object _ ms _ _ => some (fieldsOf ms)

/-- The records of pieces, each with the span from where the one before it ended. -/
def found : List Piece → List Located
  | [] => []
  | blank _ _ :: more => shiftFirst 1 (found more)
  | object written ms _ _ :: more =>
    { fields := fieldsOf ms, span := { offset := 0, length := written.length } } :: found more

theorem map_fields_found (pieces : List Piece) :
    (found pieces).map Located.fields = pieces.filterMap fields? := by
  induction pieces with
  | nil => rfl
  | cons piece more ih =>
    cases piece with
    | blank b hb => rw [found, map_fields_shiftFirst, ih]; rfl
    | object written ms hobject hw => rw [found, List.map_cons, ih]; rfl

/-! ## A log made of pieces -/

/-- **A search through pieces comes upon their objects**, and nothing else. -/
theorem records_flatMap_bytes (pieces : List Piece) :
    records (pieces.flatMap bytes) = found pieces := by
  induction pieces with
  | nil => exact records_nil
  | cons piece more ih =>
    rw [List.flatMap_cons]
    cases piece with
    | blank b hb =>
      have hgap : openBrace ∉ [b] := by
        intro h
        obtain rfl := List.mem_singleton.mp h
        cases hb
      exact (records_append_of_not_mem hgap _).trans (congrArg (shiftFirst 1) ih)
    | object written ms hobject hw =>
      have hfind := find?_append_of_isObject hobject (more.flatMap bytes)
      rw [if_pos hw] at hfind
      have hrest : (written ++ more.flatMap bytes).drop (0 + written.length) =
          more.flatMap bytes := by
        rw [Nat.zero_add, List.drop_left]
      show records (written ++ more.flatMap bytes) = _
      rw [records_of_find?_eq_some hfind, Span.reach, hrest, ih]
      rfl

theorem outside_cons_shiftFirst (b : UInt8) (bytes : Bytes) (found : List Located) :
    outside (b :: bytes) (shiftFirst 1 found) = b :: outside bytes found := by
  cases found with
  | nil => rfl
  | cons first more =>
    show (b :: bytes).take (1 + first.span.offset) ++
      outside ((b :: bytes).drop (first.shift 1).span.reach) more = _
    rw [Located.shift_reach, Nat.add_comm 1, Nat.add_comm 1, List.take_succ_cons,
      List.drop_succ_cons]
    rfl

theorem outside_flatMap_bytes (pieces : List Piece) :
    outside (pieces.flatMap bytes) (found pieces) = pieces.flatMap between := by
  induction pieces with
  | nil => rfl
  | cons piece more ih =>
    rw [List.flatMap_cons, List.flatMap_cons]
    cases piece with
    | blank b hb => exact (outside_cons_shiftFirst b _ _).trans (congrArg (b :: ·) ih)
    | object written ms hobject hw =>
      show outside ((written ++ more.flatMap bytes).drop (0 + written.length)) (found more) = _
      rw [Nat.zero_add, List.drop_left, ih]
      rfl

theorem garbage_flatMap_between (pieces : List Piece) : garbage (pieces.flatMap between) = 0 := by
  rw [garbage, List.countP_eq_zero]
  intro b hb
  obtain ⟨piece, -, hmem⟩ := List.mem_flatMap.mp hb
  cases piece with
  | blank c hc =>
    obtain rfl := List.mem_singleton.mp hmem
    simp [hc]
  | object written ms hobject hw => cases hmem

end Piece

/-! ## A log without garbage -/

theorem exists_blanks {gap : Bytes} (h : garbage gap = 0) :
    ∃ pieces : List Piece, gap = pieces.flatMap Piece.bytes := by
  induction gap with
  | nil => exact ⟨[], rfl⟩
  | cons b gap ih =>
    obtain ⟨hb, hgap⟩ := List.forall_mem_cons.mp (List.countP_eq_zero.mp h)
    obtain ⟨pieces, rfl⟩ := ih (List.countP_eq_zero.mpr hgap)
    exact ⟨.blank b (by simpa using hb) :: pieces, rfl⟩

/-- **A buffer without garbage is made of pieces.** -/
theorem exists_pieces {buffer : Bytes} (h : garbage (outside buffer (records buffer)) = 0) :
    ∃ pieces : List Piece, buffer = pieces.flatMap Piece.bytes := by
  induction buffer using records_induction with
  | none bytes hnone =>
    rw [records_of_find?_eq_none hnone] at h
    exact exists_blanks h
  | some bytes found hsome ih =>
    rw [records_of_find?_eq_some hsome, outside, garbage_append, Nat.add_eq_zero_iff] at h
    obtain ⟨more, hmore⟩ := ih h.2
    obtain ⟨gap, written, rest, ms, rfl, hobject, hw, rfl⟩ := exists_of_find?_eq_some hsome
    have hgap : (gap ++ (written ++ rest)).take gap.length = gap := List.take_left
    have hrest : (gap ++ (written ++ rest)).drop (gap.length + written.length) = rest := by
      rw [← List.drop_drop, List.drop_left, List.drop_left]
    obtain ⟨blanks, hblanks⟩ := exists_blanks (hgap ▸ h.1)
    refine ⟨blanks ++ .object written ms hobject hw :: more, ?_⟩
    rw [List.flatMap_append, List.flatMap_cons, ← hblanks, ← hmore, Span.reach, hrest]
    rfl

/-! ## Clean logs -/

/-- **A log is reported clean exactly when it is made of blanks and of objects whose names may be
written.**  However it is made of them, a scan yields these objects from left to right, each with
the blanks before it as its offset. -/
theorem Log.isClean_iff_exists_pieces {σ : Type} {log : Log (StateM σ)} {s : σ} {buffer : Bytes}
    (h : log.contents.run.run s = (.ok buffer, s)) :
    ∃ stats : Statistics, log.statistics.run.run s = (.ok stats, s) ∧
      (stats.isClean = true ↔ ∃ pieces : List Piece, buffer = pieces.flatMap Piece.bytes) ∧
      ∀ pieces : List Piece, buffer = pieces.flatMap Piece.bytes →
        log.allRecords.run.run s = (.ok ((Piece.found pieces).map Located.record), s) ∧
        (Piece.found pieces).map Located.fields = pieces.filterMap Piece.fields? := by
  refine ⟨_, Log.run_statistics h, ?_, ?_⟩
  · rw [Statistics.isClean, statistics_eq, beq_iff_eq]
    constructor
    · exact exists_pieces
    · rintro ⟨pieces, rfl⟩
      rw [Piece.records_flatMap_bytes, Piece.outside_flatMap_bytes, Piece.garbage_flatMap_between]
  · rintro pieces rfl
    rw [Log.run_allRecords h, Piece.records_flatMap_bytes]
    exact ⟨rfl, Piece.map_fields_found pieces⟩

/-- Two objects with nothing between them, a form feed within the first, and braces in its texts. -/
theorem Log.isClean_iff_exists_pieces_adjacent :
    ∃ (buffer : Bytes) (stats : Statistics) (pieces : List Piece),
      buffer = Utf8.encode "\t\x7b\x0c\"a\x7b\":\"\x7d\"\x7d\x7b\x7d" ∧
      Log.memory.contents.run.run buffer = (.ok buffer, buffer) ∧
      Log.memory.statistics.run.run buffer = (.ok stats, buffer) ∧ stats.isClean = true ∧
      buffer = pieces.flatMap Piece.bytes ∧
      Log.memory.allRecords.run.run buffer =
        (.ok ((Piece.found pieces).map Located.record), buffer) := by
  let buffer : Bytes := Utf8.encode "\t\x7b\x0c\"a\x7b\":\"\x7d\"\x7d\x7b\x7d"
  have hcontents : Log.memory.contents.run.run buffer = (.ok buffer, buffer) := rfl
  obtain ⟨stats, hstats, hclean, hfound⟩ := Log.isClean_iff_exists_pieces hcontents
  have hsame := hstats.symm.trans (Log.run_statistics hcontents)
  obtain rfl : stats = .ofBuffer buffer := Except.ok.inj (Prod.mk.inj hsame).1
  have hbuffer : (Statistics.ofBuffer buffer).isClean = true := by decide +kernel
  obtain ⟨pieces, hpieces⟩ := hclean.mp hbuffer
  exact ⟨buffer, _, pieces, rfl, hcontents, hstats, hbuffer, hpieces, (hfound pieces hpieces).1⟩

end RecordLog
