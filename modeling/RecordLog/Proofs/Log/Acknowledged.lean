import RecordLog.Proofs.Disk.FileSystem
import RecordLog.Proofs.Log.Damaged

/-! # A record written behind a torn one

A write that was torn leaves the first part of a line at the end of a log.  The record written next
is then the last one of the log, unless a text was open where the write was torn and the new
record's first name looks like what may follow a text: then the bytes of the new record may bring
the torn one to an end and be lost in it.

* `map_fields_records_append_line`: the last record of the bytes is the one whose line was added.
* `getLast_allRecords_append`: this of a log in memory and of a log in a file.
* `getLast_allRecords_append_swallowed`: a record that is lost.
-/

namespace RecordLog

open Format

/-- **The last record of the bytes is the one whose line was added**, behind whole lines and any
bytes, if no text was left open there or the record is guarded. -/
theorem map_fields_records_append_line {before : List Record} {r : Record} {torn : Bytes}
    (hbefore : ∀ r ∈ before, r.Valid) (hr : r.Valid)
    (hguard : (∀ t ∈ allAttempts torn, ¬ t.InText) ∨ r.Guarded) :
    ∃ earlier, (records (linesOf before ++ torn ++ (r.toObject ++ [newline]))).map Located.fields =
      earlier ++ [r.fields] := by
  have hline : records (r.toObject ++ [newline]) =
      [{ fields := r.fields, span := { offset := 0, length := r.toObject.length } }] := by
    rw [records_toObject_append hr, records_newline_cons, records_nil]
    rfl
  have hgrown : records (torn ++ (r.toObject ++ [newline])) = records torn ++
      shiftFirst (torn.length - covered torn) (records (r.toObject ++ [newline])) := by
    rcases hguard with hclosed | hguard
    · exact records_append_of_steady (fun bytes h => steady_of_not_inText h _) torn hclosed
    · exact records_append (hguard.bars bars_nil) torn
  refine ⟨before.map Record.fields ++ (records torn).map Located.fields, ?_⟩
  rw [List.append_assoc, map_fields_records_linesOf_append hbefore, hgrown, List.map_append,
    map_fields_shiftFirst, hline, List.append_assoc]
  rfl

theorem getLast?_map_record {found : List Located} {earlier : List Fields} {fields : Fields}
    (h : found.map Located.fields = earlier ++ [fields]) :
    ∃ last, (found.map Located.record).getLast? = some last ∧ last.fields = fields := by
  have hmap : found.getLast?.map Located.fields = some fields := by
    rw [← List.getLast?_map, h, List.getLast?_concat]
  obtain ⟨last, hlast, rfl⟩ := Option.map_eq_some_iff.mp hmap
  refine ⟨last.record, ?_, rfl⟩
  rw [List.getLast?_map, hlast, Option.map_some]

theorem LogFile.contents_of_run_append {file : LogFile} {fs fs' : FileSystem} {r : Record}
    (hr : r.Valid)
    (h : ((file.log : Log (StateM FileSystem)).append r).run.run fs = (.ok (), fs')) :
    ∃ old, fs.read file.path = .ok old ∧ (file.log : Log (StateM FileSystem)).contents.run.run fs' =
      (.ok (old ++ (r.toObject ++ [newline])), fs') := by
  rw [Log.run_append_of_encode_eq_ok (Record.encode_eq_ok_iff.mpr ⟨hr, rfl⟩), run_log_extend] at h
  cases happend : fs.append file.path (r.toObject ++ [newline]) with
  | error e =>
    rw [happend] at h
    cases h
  | ok grown =>
    rw [happend] at h
    obtain rfl := (Prod.mk.inj h).2
    obtain ⟨old, hold, hread⟩ := FileSystem.read_of_append happend
    exact ⟨old, hold, by rw [run_log_contents, hread]; rfl⟩

/-- **A record that was written behind a torn one is the last record of the log**, in memory and in
a file, if the torn one left no text open or the record is guarded. -/
theorem Log.getLast_allRecords_append {before : List Record} {r : Record} {torn : Bytes}
    (hbefore : ∀ r ∈ before, r.Valid) (hr : r.Valid)
    (hguard : (∀ t ∈ allAttempts torn, ¬ t.InText) ∨ r.Guarded) :
    (∃ log found last,
      (Log.memory.append r).run.run (linesOf before ++ torn) = (.ok (), log) ∧
      Log.memory.allRecords.run.run log = (.ok found, log) ∧
      found.getLast? = some last ∧ last.fields = r.fields) ∧
    ∀ (file : LogFile) (fs fs' : FileSystem),
      fs.read file.path = .ok (linesOf before ++ torn) →
      ((file.log : Log (StateM FileSystem)).append r).run.run fs = (.ok (), fs') →
      ∃ found last,
        (file.log : Log (StateM FileSystem)).allRecords.run.run fs' = (.ok found, fs') ∧
        found.getLast? = some last ∧ last.fields = r.fields := by
  obtain ⟨earlier, hfields⟩ := map_fields_records_append_line hbefore hr hguard
  obtain ⟨last, hlast⟩ := getLast?_map_record hfields
  refine ⟨⟨_, _, last, Log.run_append_memory hr _, Log.run_allRecords_memory _, hlast⟩, ?_⟩
  intro file fs fs' hread hrun
  obtain ⟨old, hold, hcontents⟩ := LogFile.contents_of_run_append hr hrun
  obtain rfl := Except.ok.inj (hold.symm.trans hread)
  exact ⟨_, last, Log.run_allRecords hcontents, hlast⟩

/-- A record that is not guarded, behind one that was torn past its value, in memory and in a
file. -/
theorem Log.getLast_allRecords_append_closed :
    (∀ r ∈ [Record.ofList [("a", "1")]], r.Valid) ∧
    (Record.ofList [("\x7d", "x")]).Valid ∧
    (∀ t ∈ allAttempts [openBrace, quote, 97, quote, colon, quote, 98, quote], ¬ t.InText) ∧
    (∃ log found last,
      (Log.memory.append (Record.ofList [("\x7d", "x")])).run.run
        (linesOf [Record.ofList [("a", "1")]] ++
          [openBrace, quote, 97, quote, colon, quote, 98, quote]) = (.ok (), log) ∧
      Log.memory.allRecords.run.run log = (.ok found, log) ∧
      found.getLast? = some last ∧ last.fields = (Record.ofList [("\x7d", "x")]).fields) ∧
    ∃ (file : LogFile) (fs fs' : FileSystem) (found : List Record) (last : Record),
      fs.read file.path = .ok (linesOf [Record.ofList [("a", "1")]] ++
        [openBrace, quote, 97, quote, colon, quote, 98, quote]) ∧
      ((file.log : Log (StateM FileSystem)).append (Record.ofList [("\x7d", "x")])).run.run fs =
        (.ok (), fs') ∧
      (file.log : Log (StateM FileSystem)).allRecords.run.run fs' = (.ok found, fs') ∧
      found.getLast? = some last ∧ last.fields = (Record.ofList [("\x7d", "x")]).fields := by
  have hbefore : ∀ r ∈ [Record.ofList [("a", "1")]], r.Valid := by decide +kernel
  have hr : (Record.ofList [("\x7d", "x")]).Valid := by decide +kernel
  have hclosed : ∀ t ∈ allAttempts [openBrace, quote, 97, quote, colon, quote, 98, quote],
      ¬ t.InText := by decide +kernel
  obtain ⟨hmemory, hfile⟩ := Log.getLast_allRecords_append hbefore hr (.inl hclosed)
  let file : LogFile := { path := { text := "log" }, sync := .deferred }
  let fs : FileSystem := (∅ : FileSystem).withFile file.path
    (linesOf [Record.ofList [("a", "1")]] ++ [openBrace, quote, 97, quote, colon, quote, 98, quote])
  have hread : fs.read file.path = .ok (linesOf [Record.ofList [("a", "1")]] ++
      [openBrace, quote, 97, quote, colon, quote, 98, quote]) := by decide +kernel
  have hok : (((file.log : Log (StateM FileSystem)).append
      (Record.ofList [("\x7d", "x")])).run.run fs).1 = .ok () := by decide +kernel
  obtain ⟨found, last, hlast⟩ := hfile file fs _ hread (Prod.ext hok rfl)
  exact ⟨hbefore, hr, hclosed, hmemory, file, fs, _, found, last, hread, Prod.ext hok rfl, hlast⟩

/-- A record that is lost: the bytes before it stand within a value, which its first quote closes,
and its name begins with the brace that closes the object. -/
theorem Log.getLast_allRecords_append_swallowed :
    (Record.ofList [("a", "b")]).encode = .ok ([openBrace, quote, 97, quote, colon, quote] ++
      [98, quote, closeBrace]) ∧
    (Record.ofList [("\x7d", "x")]).Valid ∧
    ∃ log found,
      (Log.memory.append (Record.ofList [("\x7d", "x")])).run.run
        [openBrace, quote, 97, quote, colon, quote] = (.ok (), log) ∧
      Log.memory.allRecords.run.run log = (.ok found, log) ∧
      ¬ ∃ last, found.getLast? = some last ∧
        last.fields = (Record.ofList [("\x7d", "x")]).fields := by
  have hr : (Record.ofList [("\x7d", "x")]).Valid := by decide +kernel
  refine ⟨?_, hr, _, _, Log.run_append_memory hr _, Log.run_allRecords_memory _, ?_⟩
  · decide +kernel
  · decide +kernel

end RecordLog
