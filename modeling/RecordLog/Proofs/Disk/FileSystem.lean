import RecordLog.Disk.FileSystem
import RecordLog.Log.File
import RecordLog.Proofs.Failure

/-! # What a file holds after bytes were added

Other bytes in a file lead no path anywhere else, for a path cannot go on behind a file.  So the
file is found again where it was, and holds what it held with the new bytes behind.

* `walk_put_file`: paths lead to the same places whatever a file holds.
* `openFile_put_file`: a file is found again where it was, whatever was put into it.
* `read_of_append`: a file to which bytes were added holds them behind what it held.
* `LogFile.run_open`, `LogFile.run_log_extend`, `LogFile.run_log_contents`: what the log in a file
  does with it.
-/

namespace RecordLog

namespace FileSystem

theorem node?_put (fs : FileSystem) {place : Place} (hplace : place ≠ []) (node : Node)
    (other : Place) :
    (fs.put place node).node? other = if other = place then some node else fs.node? other := by
  by_cases h : other = place
  · subst h
    rw [if_pos rfl, node?, if_neg hplace, put, Std.ExtTreeMap.getElem?_insert_self]
  · have hcompare : compare place other ≠ .eq := by
      rw [ne_eq, Std.LawfulEqCmp.compare_eq_iff_eq]
      exact Ne.symm h
    rw [if_neg h, node?, node?, put, Std.ExtTreeMap.getElem?_insert, if_neg hcompare]

theorem ne_nil_of_node?_eq_file {fs : FileSystem} {place : Place} {content : Bytes}
    (h : fs.node? place = some (.file content)) : place ≠ [] := by
  rintro rfl
  cases h

theorem walk_put_file {fs : FileSystem} {file : Place} {old : Bytes}
    (h : fs.node? file = some (.file old)) (new : Bytes) (pieces : List String) (place : Place) :
    (fs.put file (.file new)).walk place pieces = fs.walk place pieces := by
  have hfile := ne_nil_of_node?_eq_file h
  induction pieces generalizing place with
  | nil => rfl
  | cons piece rest ih =>
    by_cases hplace : place = file
    · -- no piece can be followed from a file
      rw [walk, walk, node?_put fs hfile, if_pos hplace, hplace, h]
    · rw [walk, walk, node?_put fs hfile, if_neg hplace]
      simp only [ih]

theorem openFile_of_locate {fs : FileSystem} {p : Path} {place : Place}
    (h : fs.locate p = .ok place) : fs.openFile p =
      match fs.node? place with
      | none => .error .notFound
      | some .directory => .error .isADirectory
      | some (.file content) => .ok (place, content) := by
  rw [openFile, h]
  rfl

theorem openFile_eq_ok_iff {fs : FileSystem} {p : Path} {place : Place} {content : Bytes} :
    fs.openFile p = .ok (place, content) ↔
      fs.locate p = .ok place ∧ fs.node? place = some (.file content) := by
  rw [openFile, bind_eq_ok_iff]
  constructor
  · rintro ⟨other, hlocate, h⟩
    cases hnode : fs.node? other with
    | none =>
      rw [hnode] at h
      cases h
    | some node =>
      rw [hnode] at h
      cases node with
      | directory => cases h
      | file old =>
        cases h
        exact ⟨hlocate, hnode⟩
  · rintro ⟨hlocate, hnode⟩
    refine ⟨place, hlocate, ?_⟩
    rw [hnode]
    rfl

theorem append_eq_ok_iff {fs fs' : FileSystem} {p : Path} {bytes : Bytes} :
    fs.append p bytes = .ok fs' ↔ ∃ place old, fs.openFile p = .ok (place, old) ∧
      fs' = fs.put place (.file (old ++ bytes)) := by
  rw [append, bind_eq_ok_iff]
  constructor
  · rintro ⟨opened, hopen, h⟩
    exact ⟨opened.1, opened.2, hopen, (Except.ok.inj h).symm⟩
  · rintro ⟨place, old, hopen, rfl⟩
    exact ⟨(place, old), hopen, rfl⟩

/-- **A file is found again where it was**, whatever was put into it. -/
theorem openFile_put_file {fs : FileSystem} {p : Path} {place : Place} {old : Bytes}
    (h : fs.openFile p = .ok (place, old)) (new : Bytes) :
    (fs.put place (.file new)).openFile p = .ok (place, new) := by
  obtain ⟨hlocate, hnode⟩ := openFile_eq_ok_iff.mp h
  refine openFile_eq_ok_iff.mpr ⟨?_, ?_⟩
  · rw [← hlocate, locate, locate]
    simp only [walk_put_file hnode]
  · rw [node?_put fs (ne_nil_of_node?_eq_file hnode), if_pos rfl]

theorem read_of_openFile {fs : FileSystem} {p : Path} {place : Place} {content : Bytes}
    (h : fs.openFile p = .ok (place, content)) : fs.read p = .ok content := by
  rw [read, h]
  rfl

/-- **A file to which bytes were added holds them behind what it held.** -/
theorem read_of_append {fs fs' : FileSystem} {p : Path} {bytes : Bytes}
    (h : fs.append p bytes = .ok fs') :
    ∃ old, fs.read p = .ok old ∧ fs'.read p = .ok (old ++ bytes) := by
  obtain ⟨place, old, hopen, rfl⟩ := append_eq_ok_iff.mp h
  exact ⟨old, read_of_openFile hopen, read_of_openFile (openFile_put_file hopen (old ++ bytes))⟩

/-! ## Runs -/

theorem run_update (operation : FileSystem → Except IoError FileSystem) (fs : FileSystem) :
    (update operation).run.run fs =
      match operation fs with
      | .ok fs' => (.ok (), fs')
      | .error e => (.error e, fs) := by
  have hrun : (update operation).run.run fs =
      ((liftM (operation fs) >>= set : ExceptT IoError (StateM FileSystem) Unit).run.run fs) := rfl
  rw [hrun]
  cases operation fs <;> rfl

theorem run_read (p : Path) (fs : FileSystem) :
    (Disk.read p : ExceptT IoError (StateM FileSystem) Bytes).run.run fs = (fs.read p, fs) := by
  have hrun : (Disk.read p : ExceptT IoError (StateM FileSystem) Bytes).run.run fs =
      (liftM (fs.read p) : ExceptT IoError (StateM FileSystem) Bytes).run.run fs := rfl
  rw [hrun]
  cases fs.read p <;> rfl

end FileSystem

/-! ## The log in a file -/

namespace LogFile

theorem run_open {fs fs' : FileSystem} {p : Path} {result : Except IoError Unit}
    (h : (Disk.openForAppending (m := StateM FileSystem) p).run.run fs = (result, fs'))
    (sync : SyncPolicy) : (LogFile.open (m := StateM FileSystem) p sync).run.run fs =
      ((result.mapError .io).map fun _ => { path := p, sync }, fs') := by
  have hadapt : (ExceptT.adapt Error.io (Disk.openForAppending (m := StateM FileSystem) p)).run.run
      fs = Prod.map (Except.mapError .io) id
        ((Disk.openForAppending (m := StateM FileSystem) p).run.run fs) := rfl
  rw [LogFile.open, ExceptT.run_bind, StateT.run_bind, hadapt, h]
  cases result <;> rfl

theorem run_log_extend (file : LogFile) (bytes : Bytes) (fs : FileSystem) :
    ((file.log : Log (StateM FileSystem)).extend bytes).run.run fs =
      match fs.append file.path bytes with
      | .ok fs' => (.ok (), fs')
      | .error e => (.error (.io e), fs) := by
  have hrun : ((file.log : Log (StateM FileSystem)).extend bytes).run.run fs =
      Prod.map (Except.mapError .io) id
        ((FileSystem.update (·.append file.path bytes)).run.run fs) := rfl
  rw [hrun, FileSystem.run_update]
  cases fs.append file.path bytes <;> rfl

theorem run_log_contents (file : LogFile) (fs : FileSystem) :
    (file.log : Log (StateM FileSystem)).contents.run.run fs =
      ((fs.read file.path).mapError .io, fs) := by
  have hrun : (file.log : Log (StateM FileSystem)).contents.run.run fs =
      Prod.map (Except.mapError .io) id
        ((Disk.read file.path : ExceptT IoError (StateM FileSystem) Bytes).run.run fs) := rfl
  rw [hrun, FileSystem.run_read]
  rfl

end LogFile

end RecordLog
