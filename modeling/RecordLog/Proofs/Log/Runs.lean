import RecordLog.Log
import RecordLog.Proofs.Failure
import RecordLog.Proofs.Record

/-! # What the operations of a log do

A log does with records what its place lets it do with bytes: it writes a record by adding one line,
and it finds records by going through all the bytes it can fetch.

* `run_append`: writing with and without the bytes written as its result.
* `run_append_of_encode_eq_ok`, `run_append_of_encode_eq_error`: a record is written as one line, or
  nothing is done.
* `run_scan`, `run_allRecords`, `run_statistics`: what is found, by the bytes fetched.
* `run_append_memory`, `run_allRecords_memory`: the same of the log in memory.
-/

namespace RecordLog

open Format

namespace Log

variable {σ : Type} {log : Log (StateM σ)} {s : σ}

/-! ## Writing -/

theorem write_of_encode_eq_ok (log : Log (StateM σ)) {r : Record} {object : Bytes}
    (h : r.encode = .ok object) : log.write r =
      log.extend (object ++ [newline]) >>= fun _ => pure (object ++ [newline]) := by
  rw [write, h]
  rfl

theorem run_write_of_encode_eq_ok {r : Record} {object : Bytes} {s' : σ} (h : r.encode = .ok object)
    (hextend : (log.extend (object ++ [newline])).run.run s = (.ok (), s')) :
    (log.write r).run.run s = (.ok (object ++ [newline]), s') := by
  rw [write_of_encode_eq_ok log h, run_bind_of_ok hextend]
  rfl

theorem run_write_of_extend_eq_error {r : Record} {object : Bytes} {e : Error} {s' : σ}
    (h : r.encode = .ok object)
    (hextend : (log.extend (object ++ [newline])).run.run s = (.error e, s')) :
    (log.write r).run.run s = (.error e, s') := by
  rw [write_of_encode_eq_ok log h, run_bind_of_error hextend]

theorem run_write_of_encode_eq_error {r : Record} {e : Error} (h : r.encode = .error e) :
    (log.write r).run.run s = (.error e, s) := by
  rw [write, h]
  rfl

theorem run_append (log : Log (StateM σ)) (r : Record) (s : σ) : (log.append r).run.run s =
    Prod.map (Except.map fun _ => ()) id ((log.write r).run.run s) := by
  have hmap : log.append r = (fun _ => ()) <$> log.write r := rfl
  rw [hmap, ExceptT.run_map, StateT.run_map]
  rfl

theorem run_append_of_encode_eq_ok {r : Record} {object : Bytes} (h : r.encode = .ok object) :
    (log.append r).run.run s = (log.extend (object ++ [newline])).run.run s := by
  rw [run_append]
  cases hextend : (log.extend (object ++ [newline])).run.run s with
  | mk result s' =>
    cases result with
    | ok u =>
      rw [run_write_of_encode_eq_ok h hextend]
      rfl
    | error e =>
      rw [run_write_of_extend_eq_error h hextend]
      rfl

theorem run_append_of_encode_eq_error {r : Record} {e : Error} (h : r.encode = .error e) :
    (log.append r).run.run s = (.error e, s) := by
  rw [run_append, run_write_of_encode_eq_error h]
  rfl

/-! ## Reading -/

theorem run_scan {bytes : Bytes} (h : log.contents.run.run s = (.ok bytes, s))
    (keep : Record → Bool) :
    (log.scan keep).run.run s = (.ok (.ofBuffer keep bytes), s) := by
  rw [scan, ExceptT.run_map, StateT.run_map, h]
  rfl

theorem run_allRecords {bytes : Bytes} (h : log.contents.run.run s = (.ok bytes, s)) :
    log.allRecords.run.run s = (.ok ((records bytes).map Located.record), s) := by
  have hfilter : ((records bytes).map Located.record).filter (fun _ => true) =
      (records bytes).map Located.record := List.filter_eq_self.mpr fun _ _ => rfl
  rw [allRecords, ExceptT.run_map, StateT.run_map, run_scan h]
  show ((Except.ok (((records bytes).map Located.record).filter fun _ => true), s) :
    Except Error (List Record) × σ) = _
  rw [hfilter]

theorem run_statistics {bytes : Bytes} (h : log.contents.run.run s = (.ok bytes, s)) :
    log.statistics.run.run s = (.ok (.ofBuffer bytes), s) := by
  rw [statistics, ExceptT.run_map, StateT.run_map, h]
  rfl

/-! ## The log in memory -/

theorem run_contents_memory (bytes : Bytes) : memory.contents.run.run bytes = (.ok bytes, bytes) :=
  rfl

theorem run_append_memory {r : Record} (h : r.Valid) (bytes : Bytes) :
    (memory.append r).run.run bytes = (.ok (), bytes ++ (r.toObject ++ [newline])) :=
  run_append_of_encode_eq_ok (Record.encode_eq_ok_iff.mpr ⟨h, rfl⟩)

theorem run_allRecords_memory (bytes : Bytes) :
    memory.allRecords.run.run bytes = (.ok ((records bytes).map Located.record), bytes) :=
  run_allRecords (run_contents_memory bytes)

end Log

end RecordLog
