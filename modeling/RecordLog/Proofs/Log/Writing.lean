import RecordLog.Proofs.Disk.Opening
import RecordLog.Proofs.Log.Runs

/-! # Writing a record, or doing nothing

Whether a record may be written is settled before its place is looked at, and the place is found
before any byte is added.  So there are three ways for writing to end, tried in this order: the
record is refused for one of its names, or the place cannot be reached, or the whole line is added.
In the first two nothing is done.

* `FieldName.not_valid_iff`: the names that may not be written.
* `LogFile.WriteEnds`: the ways for writing to a file to end.
* `LogFile.run_write_iff`: there are no others.
* `Log.write_all_or_nothing`: writing in memory and in a file.
-/

namespace RecordLog

open Format

theorem FieldName.not_valid_iff {name : String} :
    ¬ Valid name ↔ name = "" ∨ name.toList.head? = some reservedMark := by
  rw [Valid, Classical.not_and_iff_not_or_not, Classical.not_not, Classical.not_not,
    String.toList_eq_nil_iff]

namespace Record

theorem exists_refused_iff {r : Record} : (∃ name, r.Refused name) ↔
    ∃ name ∈ r.fields.keys, name = "" ∨ name.toList.head? = some FieldName.reservedMark := by
  constructor
  · rintro ⟨name, hname⟩
    exact ⟨name, hname.mem, FieldName.not_valid_iff.mp hname.not_valid⟩
  · rintro ⟨name, hmem, hname⟩
    rcases r.refused_or_valid with hrefused | hvalid
    · exact hrefused
    · exact absurd (hvalid name hmem) (FieldName.not_valid_iff.mpr hname)

theorem encode_of_valid {r : Record} (h : r.Valid) : r.encode = .ok r.toObject :=
  encode_eq_ok_iff.mpr ⟨h, rfl⟩

end Record

/-! ## In memory -/

theorem Log.run_write_memory_iff {r : Record} {old new : Bytes} {result : Except Error Bytes} :
    (memory.write r).run.run old = (result, new) ↔
      (∃ name, r.Refused name ∧ result = .error (.invalidFieldName name) ∧ new = old) ∨
      ∃ object, r.encode = .ok object ∧ result = .ok (object ++ [newline]) ∧
        new = old ++ (object ++ [newline]) := by
  have hrefused {name : String} (h : r.Refused name) :
      (memory.write r).run.run old = (.error (.invalidFieldName name), old) :=
    run_write_of_encode_eq_error (Record.encode_of_refused h)
  have hwritten {object : Bytes} (h : r.encode = .ok object) : (memory.write r).run.run old =
      (.ok (object ++ [newline]), old ++ (object ++ [newline])) :=
    run_write_of_encode_eq_ok h rfl
  constructor
  · intro hrun
    rcases r.refused_or_valid with ⟨name, hname⟩ | hvalid
    · rw [hrefused hname] at hrun
      obtain ⟨rfl, rfl⟩ := Prod.mk.inj hrun
      exact .inl ⟨name, hname, rfl, rfl⟩
    · have hobject := Record.encode_of_valid hvalid
      rw [hwritten hobject] at hrun
      obtain ⟨rfl, rfl⟩ := Prod.mk.inj hrun
      exact .inr ⟨r.toObject, hobject, rfl, rfl⟩
  · rintro (⟨name, hname, rfl, rfl⟩ | ⟨object, hobject, rfl, rfl⟩)
    · exact hrefused hname
    · exact hwritten hobject

/-! ## In a file -/

namespace LogFile

/-- How writing a record to the file of a path ends: with what result, and with which files. -/
inductive WriteEnds (p : Path) (r : Record) (fs : FileSystem) :
    Except Error Bytes → FileSystem → Prop
  /-- One of the names may not be written, wherever the path leads. -/
  | refused {name : String} (hname : r.Refused name) :
      WriteEnds p r fs (.error (.invalidFieldName name)) fs
  /-- The path leads nowhere. -/
  | unreachable {cause : IoError} (hvalid : r.Valid) (hlocate : fs.locate p = .error cause) :
      WriteEnds p r fs (.error (.io cause)) fs
  /-- There is nothing; it is not made. -/
  | missing {place : Place} (hvalid : r.Valid) (hlocate : fs.locate p = .ok place)
      (hnode : fs.node? place = none) : WriteEnds p r fs (.error (.io .notFound)) fs
  | directory {place : Place} (hvalid : r.Valid) (hlocate : fs.locate p = .ok place)
      (hnode : fs.node? place = some .directory) :
      WriteEnds p r fs (.error (.io .isADirectory)) fs
  /-- The line is added behind what the file held, and no other file changes. -/
  | written {place : Place} {old object : Bytes} (hobject : r.encode = .ok object)
      (hlocate : fs.locate p = .ok place) (hnode : fs.node? place = some (.file old)) :
      WriteEnds p r fs (.ok (object ++ [newline]))
        (fs.put place (.file (old ++ (object ++ [newline]))))

variable {file : LogFile} {r : Record} {fs fs' : FileSystem} {result : Except Error Bytes}

theorem run_write_of_openFile_eq_error {cause : IoError} (hvalid : r.Valid)
    (hopen : fs.openFile file.path = .error cause) :
    ((file.log : Log (StateM FileSystem)).write r).run.run fs = (.error (.io cause), fs) := by
  refine Log.run_write_of_extend_eq_error (Record.encode_of_valid hvalid) ?_
  rw [run_log_extend, FileSystem.append, hopen]
  rfl

theorem WriteEnds.run (h : WriteEnds file.path r fs result fs') :
    ((file.log : Log (StateM FileSystem)).write r).run.run fs = (result, fs') := by
  cases h with
  | refused hname => exact Log.run_write_of_encode_eq_error (Record.encode_of_refused hname)
  | unreachable hvalid hlocate =>
    refine run_write_of_openFile_eq_error hvalid ?_
    rw [FileSystem.openFile, hlocate]
    rfl
  | missing hvalid hlocate hnode =>
    refine run_write_of_openFile_eq_error hvalid ?_
    rw [FileSystem.openFile_of_locate hlocate, hnode]
  | directory hvalid hlocate hnode =>
    refine run_write_of_openFile_eq_error hvalid ?_
    rw [FileSystem.openFile_of_locate hlocate, hnode]
  | @written place old object hobject hlocate hnode =>
    have hopen := FileSystem.openFile_eq_ok_iff.mpr ⟨hlocate, hnode⟩
    refine Log.run_write_of_encode_eq_ok hobject ?_
    rw [run_log_extend, FileSystem.append_eq_ok_iff.mpr ⟨place, old, hopen, rfl⟩]

theorem exists_writeEnds (p : Path) (r : Record) (fs : FileSystem) :
    ∃ result fs', WriteEnds p r fs result fs' := by
  rcases r.refused_or_valid with ⟨name, hname⟩ | hvalid
  · exact ⟨_, _, .refused hname⟩
  cases hlocate : fs.locate p with
  | error cause => exact ⟨_, _, .unreachable hvalid hlocate⟩
  | ok place =>
    cases hnode : fs.node? place with
    | none => exact ⟨_, _, .missing hvalid hlocate hnode⟩
    | some node =>
      cases node with
      | directory => exact ⟨_, _, .directory hvalid hlocate hnode⟩
      | file old => exact ⟨_, _, .written (Record.encode_of_valid hvalid) hlocate hnode⟩

/-- **Writing to a file ends in one of these ways.** -/
theorem run_write_iff : ((file.log : Log (StateM FileSystem)).write r).run.run fs = (result, fs') ↔
    WriteEnds file.path r fs result fs' := by
  constructor
  · intro hrun
    obtain ⟨result', fs'', hends⟩ := exists_writeEnds file.path r fs
    rw [hends.run] at hrun
    obtain ⟨rfl, rfl⟩ := Prod.mk.inj hrun
    exact hends
  · exact WriteEnds.run

theorem exists_run_write_of_read {old object : Bytes} (hobject : r.encode = .ok object)
    (hread : fs.read file.path = .ok old) :
    ∃ fs', ((file.log : Log (StateM FileSystem)).write r).run.run fs =
        (.ok (object ++ [newline]), fs') ∧
      fs'.read file.path = .ok (old ++ (object ++ [newline])) := by
  obtain ⟨place, hopen⟩ := FileSystem.read_eq_ok_iff.mp hread
  obtain ⟨hlocate, hnode⟩ := FileSystem.openFile_eq_ok_iff.mp hopen
  exact ⟨_, WriteEnds.run (.written hobject hlocate hnode),
    FileSystem.read_of_openFile (FileSystem.openFile_put_file hopen _)⟩

end LogFile

/-! ## In any log -/

/-- **Writing is all or nothing.**  A record with a name that is empty or begins with the reserved
mark is refused for the smallest such name, whatever the log; any other record is added as one line
where the log can be reached, and nothing is done where it cannot. -/
theorem Log.write_all_or_nothing (r : Record) :
    ((∃ name, r.Refused name) ↔
      ∃ name ∈ r.fields.keys, name = "" ∨ name.toList.head? = some FieldName.reservedMark) ∧
    (∀ (old new : Bytes) (result : Except Error Bytes),
      (memory.write r).run.run old = (result, new) ↔
        (∃ name, r.Refused name ∧ result = .error (.invalidFieldName name) ∧ new = old) ∨
        ∃ object, r.encode = .ok object ∧ result = .ok (object ++ [newline]) ∧
          new = old ++ (object ++ [newline])) ∧
    (∀ (file : LogFile) (fs fs' : FileSystem) (result : Except Error Bytes),
      ((file.log : Log (StateM FileSystem)).write r).run.run fs = (result, fs') ↔
        LogFile.WriteEnds file.path r fs result fs') ∧
    (∀ (file : LogFile) (fs : FileSystem) (old object : Bytes), r.encode = .ok object →
      fs.read file.path = .ok old →
        ∃ fs', ((file.log : Log (StateM FileSystem)).write r).run.run fs =
            (.ok (object ++ [newline]), fs') ∧
          fs'.read file.path = .ok (old ++ (object ++ [newline]))) ∧
    ∀ {σ : Type} (log : Log (StateM σ)) (s : σ), (log.append r).run.run s =
      Prod.map (Except.map fun _ => ()) id ((log.write r).run.run s) := by
  refine ⟨Record.exists_refused_iff, ?_, ?_, ?_, ?_⟩
  · intro old new result
    exact run_write_memory_iff
  · intro file fs fs' result
    exact LogFile.run_write_iff
  · intro file fs old object hobject hread
    exact LogFile.exists_run_write_of_read hobject hread
  · intro σ log s
    exact run_append log r s

end RecordLog
