import Mathlib.Data.List.Forall2
import RecordLog.Proofs.Cursor
import RecordLog.Proofs.Log.Runs
import RecordLog.Proofs.RoundTrip

/-! # Logs of lines

A log writes each record as one line, and a search through the lines comes upon the records one by
one.  A line end is not looked for: it is passed over like any byte between records.

* `linesOf`: the lines that records are written as.
* `records_toObject_append`: bytes that begin with a written record have it and those behind it.
* `records_linesOf`: the records of lines are the records written.
* `map_fields_records_linesOf_append`: lines add their fields to those of what follows.
* `linesOf_congr`, `map_fields_records_linesOf`: lines are as good as the fields of the records.
* `run_forM_append_memory`: records are written as lines.
-/

namespace RecordLog

open Format

/-- The lines that records are written as, one behind the other. -/
def linesOf (rs : List Record) : Bytes :=
  rs.flatMap fun r => r.toObject ++ [newline]

theorem linesOf_cons (r : Record) (rs : List Record) :
    linesOf (r :: rs) = r.toObject ++ newline :: linesOf rs := by
  rw [linesOf, List.flatMap_cons, List.append_assoc]
  rfl

theorem linesOf_singleton (r : Record) : linesOf [r] = r.toObject ++ [newline] :=
  List.flatMap_singleton _ _

theorem linesOf_append (rs rs' : List Record) : linesOf (rs ++ rs') = linesOf rs ++ linesOf rs' :=
  List.flatMap_append

theorem linesOf_eq (rs : List Record) : linesOf rs =
    (rs.map Record.fields).flatMap fun fields => object fields.toList ++ [newline] := by
  rw [List.flatMap_map]
  rfl

theorem linesOf_congr {rs rs' : List Record} (h : rs.map Record.fields = rs'.map Record.fields) :
    linesOf rs = linesOf rs' := by
  rw [linesOf_eq, h, ← linesOf_eq]

theorem length_linesOf (rs : List Record) :
    (linesOf rs).length = (rs.flatMap Record.toObject).length + rs.length := by
  induction rs with
  | nil => rfl
  | cons r rs ih =>
    rw [linesOf_cons, List.flatMap_cons, List.length_append, List.length_append, List.length_cons,
      List.length_cons, ih]
    omega

/-! ## Records of lines -/

/-- **Bytes that begin with a written record have it and the records behind it.** -/
theorem records_toObject_append {r : Record} (hr : r.Valid) (rest : Bytes) :
    records (r.toObject ++ rest) =
      { fields := r.fields, span := { offset := 0, length := r.toObject.length } } ::
        records rest := by
  rw [records_of_find?_eq_some (find?_toObject_append hr rest), Span.reach]
  simp only [Nat.zero_add, List.drop_left]

theorem records_newline_cons (rest : Bytes) :
    records (newline :: rest) = shiftFirst 1 (records rest) := by
  have hgap : openBrace ∉ [newline] := by decide
  exact records_append_of_not_mem hgap rest

theorem records_nil : records [] = [] :=
  records_of_find?_eq_none find?_nil

/-- A record that was found where another was written: it has its fields, and takes as many bytes as
were written. -/
def WrittenAs (r : Record) (found : Located) : Prop :=
  found.fields = r.fields ∧ ∃ written, r.encode = .ok written ∧ found.span.length = written.length

theorem WrittenAs.shiftFirst {rs : List Record} {found : List Located} (n : Nat)
    (h : List.Forall₂ WrittenAs rs found) : List.Forall₂ WrittenAs rs (shiftFirst n found) := by
  cases h with
  | nil => exact .nil
  | cons h hs => exact .cons h hs

/-- **The records of lines are the records written.** -/
theorem records_linesOf {rs : List Record} (h : ∀ r ∈ rs, r.Valid) :
    List.Forall₂ WrittenAs rs (records (linesOf rs)) := by
  induction rs with
  | nil =>
    rw [show records (linesOf []) = [] from records_nil]
    exact .nil
  | cons r rs ih =>
    obtain ⟨hr, hrs⟩ := List.forall_mem_cons.mp h
    rw [linesOf_cons, records_toObject_append hr, records_newline_cons]
    exact .cons ⟨rfl, r.toObject, Record.encode_eq_ok_iff.mpr ⟨hr, rfl⟩, rfl⟩
      (WrittenAs.shiftFirst 1 (ih hrs))

theorem map_fields_shiftFirst (n : Nat) (found : List Located) :
    (shiftFirst n found).map Located.fields = found.map Located.fields := by
  cases found <;> rfl

/-- **Lines add their fields to those of what follows**, whatever that is. -/
theorem map_fields_records_linesOf_append {rs : List Record} (h : ∀ r ∈ rs, r.Valid)
    (more : Bytes) : (records (linesOf rs ++ more)).map Located.fields =
      rs.map Record.fields ++ (records more).map Located.fields := by
  induction rs with
  | nil => rfl
  | cons r rs ih =>
    obtain ⟨hr, hrs⟩ := List.forall_mem_cons.mp h
    rw [linesOf_cons, List.append_assoc, records_toObject_append hr, List.cons_append,
      records_newline_cons, List.map_cons, map_fields_shiftFirst, ih hrs]
    rfl

theorem map_fields_records_linesOf {rs : List Record} (h : ∀ r ∈ rs, r.Valid) :
    (records (linesOf rs)).map Located.fields = rs.map Record.fields := by
  have hlines := map_fields_records_linesOf_append h []
  rw [List.append_nil, records_nil] at hlines
  simpa using hlines

/-! ## Writing lines -/

theorem Log.run_forM_append_memory {rs : List Record} (h : ∀ r ∈ rs, r.Valid) (bytes : Bytes) :
    (rs.forM Log.memory.append).run.run bytes = (.ok (), bytes ++ linesOf rs) := by
  induction rs generalizing bytes with
  | nil => rw [linesOf, List.flatMap_nil, List.append_nil]; rfl
  | cons r rs ih =>
    obtain ⟨hr, hrs⟩ := List.forall_mem_cons.mp h
    have hrun : ((r :: rs).forM Log.memory.append).run.run bytes =
        (rs.forM Log.memory.append).run.run (bytes ++ (r.toObject ++ [newline])) := by
      show ((Log.memory.append r >>= fun _ => rs.forM Log.memory.append).run.run bytes) = _
      rw [ExceptT.run_bind, StateT.run_bind, Log.run_append_memory hr]
      rfl
    rw [hrun, ih hrs, linesOf_cons, List.append_assoc, List.append_assoc]
    rfl

end RecordLog
