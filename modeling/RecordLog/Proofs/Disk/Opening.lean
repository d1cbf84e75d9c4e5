import Mathlib.Tactic.SplitIfs
import RecordLog.Proofs.Disk.FileSystem
import RecordLog.Proofs.Disk.Path

/-! # What opening a file does

Opening a file makes what is missing on the way to it and, where there is none, an empty file.
Nothing that was there changes, whether or not it succeeds.  Where it succeeds there is a file to
read, and a file that was there is opened without making anything.

* `FileSystem.Grows`: all that was there stays, and files that were not there are empty.
* `FileSystem.Grows.read`: a file that was there is read as before.
* `onlyGrows_openForAppending`: opening makes a file system grow.
* `openFile_of_opens`: a file that was opened can be read.
* `opens_of_openFile`: a file that is there can be opened.
-/

namespace RecordLog

namespace FileSystem

/-- All that was there stays, and files that were not there are empty. -/
structure Grows (fs fs' : FileSystem) : Prop where
  keeps {place : Place} {node : Node} : fs.node? place = some node → fs'.node? place = some node
  fresh {place : Place} {content : Bytes} : fs'.node? place = some (.file content) →
    fs.node? place = some (.file content) ∨ fs.node? place = none ∧ content = []

namespace Grows

theorem refl (fs : FileSystem) : fs.Grows fs where
  keeps h := h
  fresh h := .inl h

theorem trans {fs fs' fs'' : FileSystem} (h : fs.Grows fs') (h' : fs'.Grows fs'') :
    fs.Grows fs'' where
  keeps hnode := h'.keeps (h.keeps hnode)
  fresh hfile := by
    rcases h'.fresh hfile with hfile | ⟨hnone, rfl⟩
    · exact h.fresh hfile
    · refine .inr ⟨?_, rfl⟩
      cases hnode : fs.node? _ with
      | none => rfl
      | some node => exact absurd ((h.keeps hnode).symm.trans hnone) (Option.some_ne_none node)

theorem walk {fs fs' : FileSystem} (h : fs.Grows fs') {pieces : List String} {place last : Place}
    (hwalk : fs.walk place pieces = .ok last) : fs'.walk place pieces = .ok last := by
  induction pieces generalizing place with
  | nil => exact hwalk
  | cons piece rest ih =>
    rw [FileSystem.walk] at hwalk ⊢
    cases hnode : fs.node? place with
    | none =>
      rw [hnode] at hwalk
      cases hwalk
    | some node =>
      rw [hnode] at hwalk
      cases node with
      | file content => cases hwalk
      | directory =>
        rw [h.keeps hnode]
        dsimp only at hwalk ⊢
        split_ifs at hwalk ⊢
        · exact ih hwalk
        · exact ih hwalk
        · exact ih hwalk

end Grows

/-! ## Places -/

theorem check_bind_eq_ok_iff {α : Type} {p : Path} {x : Except IoError α} {a : α} :
    (do p.check; x) = .ok a ↔ p.check = .ok () ∧ x = .ok a := by
  rw [bind_eq_ok_iff]
  constructor
  · rintro ⟨u, hcheck, hx⟩
    exact ⟨hcheck, hx⟩
  · rintro ⟨hcheck, hx⟩
    exact ⟨(), hcheck, hx⟩

theorem locate_eq_ok_iff {fs : FileSystem} {p : Path} {place : Place} :
    fs.locate p = .ok place ↔ p.check = .ok () ∧ fs.walk [] p.pieces = .ok place :=
  check_bind_eq_ok_iff

theorem locateEntry_eq_ok_iff {fs : FileSystem} {p : Path} {place : Place} :
    fs.locateEntry p = .ok place ↔ p.check = .ok () ∧ fs.walk [] p.trimmed = .ok place :=
  check_bind_eq_ok_iff

theorem read_eq_ok_iff {fs : FileSystem} {p : Path} {content : Bytes} :
    fs.read p = .ok content ↔ ∃ place, fs.openFile p = .ok (place, content) := by
  rw [read, map_eq_pure_bind, bind_eq_ok_iff]
  constructor
  · rintro ⟨opened, hopen, h⟩
    obtain rfl := Except.ok.inj h
    exact ⟨opened.1, hopen⟩
  · rintro ⟨place, hopen⟩
    exact ⟨(place, content), hopen, rfl⟩

namespace Grows

theorem openFile {fs fs' : FileSystem} (h : fs.Grows fs') {p : Path} {place : Place}
    {content : Bytes} (hopen : fs.openFile p = .ok (place, content)) :
    fs'.openFile p = .ok (place, content) := by
  obtain ⟨hlocate, hnode⟩ := openFile_eq_ok_iff.mp hopen
  obtain ⟨hcheck, hwalk⟩ := locate_eq_ok_iff.mp hlocate
  exact openFile_eq_ok_iff.mpr ⟨locate_eq_ok_iff.mpr ⟨hcheck, h.walk hwalk⟩, h.keeps hnode⟩

/-- **A file that was there is read as before.** -/
theorem read {fs fs' : FileSystem} (h : fs.Grows fs') {p : Path} {content : Bytes}
    (hread : fs.read p = .ok content) : fs'.read p = .ok content := by
  obtain ⟨place, hopen⟩ := read_eq_ok_iff.mp hread
  exact read_eq_ok_iff.mpr ⟨place, h.openFile hopen⟩

end Grows

theorem ne_nil_of_node?_eq_none {fs : FileSystem} {place : Place} (h : fs.node? place = none) :
    place ≠ [] := by
  rintro rfl
  cases h

theorem grows_put {fs : FileSystem} {place : Place} (h : fs.node? place = none) {node : Node}
    (hempty : ∀ content, node = .file content → content = []) : fs.Grows (fs.put place node) where
  keeps {other old} hold := by
    rw [node?_put fs (ne_nil_of_node?_eq_none h)]
    by_cases hother : other = place
    · rw [hother, h] at hold
      cases hold
    · rwa [if_neg hother]
  fresh {other content} hfile := by
    rw [node?_put fs (ne_nil_of_node?_eq_none h)] at hfile
    by_cases hother : other = place
    · rw [if_pos hother] at hfile
      rw [hother]
      exact .inr ⟨h, hempty content (Option.some.inj hfile)⟩
    · rw [if_neg hother] at hfile
      exact .inl hfile

/-! ## Directories -/

theorem makeDirectory_eq_ok_iff {fs fs' : FileSystem} {p : Path} :
    fs.makeDirectory p = .ok fs' ↔ ∃ place, fs.locateEntry p = .ok place ∧
      fs.node? place = none ∧ fs' = fs.put place .directory := by
  rw [makeDirectory, bind_eq_ok_iff]
  refine exists_congr fun place => and_congr_right fun _ => ?_
  cases hnode : fs.node? place with
  | some node =>
    constructor
    · intro h
      cases h
    · rintro ⟨h, -⟩
      cases h
  | none =>
    constructor
    · intro h
      exact ⟨rfl, (Except.ok.inj h).symm⟩
    · rintro ⟨-, rfl⟩
      rfl

theorem grows_makeDirectory {fs fs' : FileSystem} {p : Path} (h : fs.makeDirectory p = .ok fs') :
    fs.Grows fs' := by
  obtain ⟨place, -, hnone, rfl⟩ := makeDirectory_eq_ok_iff.mp h
  refine grows_put hnone fun content hcontent => ?_
  cases hcontent

/-! ## Files -/

theorem create_eq_ok_iff {fs fs' : FileSystem} {p : Path} : fs.create p = .ok fs' ↔
    p.endsInSlash = false ∧ ∃ place, fs.locateEntry p = .ok place ∧
      ((∃ content, fs.node? place = some (.file content) ∧ fs' = fs) ∨
        fs.node? place = none ∧ fs' = fs.put place (.file [])) := by
  rw [create]
  cases hslash : p.endsInSlash with
  | true =>
    constructor
    · intro h
      rw [if_pos rfl] at h
      obtain ⟨place, -, h⟩ := bind_eq_ok_iff.mp h
      cases h
    · rintro ⟨h, -⟩
      cases h
  | false =>
    rw [if_neg Bool.false_ne_true]
    dsimp only
    rw [bind_eq_ok_iff]
    refine ⟨fun h => ⟨rfl, ?_⟩, fun h => ?_⟩
    · obtain ⟨place, hplace, h⟩ := h
      refine ⟨place, hplace, ?_⟩
      cases hnode : fs.node? place with
      | none =>
        rw [hnode] at h
        exact .inr ⟨rfl, (Except.ok.inj h).symm⟩
      | some node =>
        rw [hnode] at h
        cases node with
        | directory => cases h
        | file content => exact .inl ⟨content, rfl, (Except.ok.inj h).symm⟩
    · obtain ⟨-, place, hplace, hcase⟩ := h
      refine ⟨place, hplace, ?_⟩
      rcases hcase with ⟨content, hnode, rfl⟩ | ⟨hnode, rfl⟩
      · rw [hnode]
        rfl
      · rw [hnode]
        rfl

theorem grows_create {fs fs' : FileSystem} {p : Path} (h : fs.create p = .ok fs') :
    fs.Grows fs' := by
  obtain ⟨-, place, -, ⟨content, -, rfl⟩ | ⟨hnone, rfl⟩⟩ := create_eq_ok_iff.mp h
  · exact .refl _
  · exact grows_put hnone fun content hcontent => (Node.file.inj hcontent).symm

theorem openFile_of_create {fs fs' : FileSystem} {p : Path} (h : fs.create p = .ok fs') :
    ∃ place content, fs'.openFile p = .ok (place, content) := by
  have hgrows := grows_create h
  obtain ⟨hslash, place, hentry, hcase⟩ := create_eq_ok_iff.mp h
  obtain ⟨hcheck, hwalk⟩ := locateEntry_eq_ok_iff.mp hentry
  rw [Path.trimmed_eq_pieces (Path.check_eq_ok_iff.mp hcheck).2.1 hslash] at hwalk
  have hlocate : fs'.locate p = .ok place := locate_eq_ok_iff.mpr ⟨hcheck, hgrows.walk hwalk⟩
  rcases hcase with ⟨content, hnode, rfl⟩ | ⟨hnone, rfl⟩
  · exact ⟨place, content, openFile_eq_ok_iff.mpr ⟨hlocate, hnode⟩⟩
  · refine ⟨place, [], openFile_eq_ok_iff.mpr ⟨hlocate, ?_⟩⟩
    rw [node?_put fs (ne_nil_of_node?_eq_none hnone), if_pos rfl]

/-! ## Programs -/

section

variable {α β : Type} {x : ExceptT IoError (StateM FileSystem) α}

/-- However it ends, a program makes a file system grow. -/
def OnlyGrows (x : ExceptT IoError (StateM FileSystem) α) : Prop :=
  ∀ (fs fs' : FileSystem) (result : Except IoError α), x.run.run fs = (result, fs') → fs.Grows fs'

theorem OnlyGrows.bind {f : α → ExceptT IoError (StateM FileSystem) β} (hx : OnlyGrows x)
    (hf : ∀ a, OnlyGrows (f a)) : OnlyGrows (x >>= f) := by
  intro fs fs'' result h
  cases hrun : x.run.run fs with
  | mk first fs' =>
    cases first with
    | ok a =>
      rw [run_bind_of_ok hrun] at h
      exact (hx _ _ _ hrun).trans (hf a _ _ _ h)
    | error e =>
      rw [run_bind_of_error hrun] at h
      obtain ⟨-, rfl⟩ := Prod.mk.inj h
      exact hx _ _ _ hrun

theorem OnlyGrows.tryCatch {f : IoError → ExceptT IoError (StateM FileSystem) α}
    (hx : OnlyGrows x) (hf : ∀ e, OnlyGrows (f e)) : OnlyGrows (tryCatch x f) := by
  intro fs fs'' result h
  cases hrun : x.run.run fs with
  | mk first fs' =>
    cases first with
    | ok a =>
      rw [run_tryCatch_of_ok hrun] at h
      obtain ⟨-, rfl⟩ := Prod.mk.inj h
      exact hx _ _ _ hrun
    | error e =>
      rw [run_tryCatch_of_error hrun] at h
      exact (hx _ _ _ hrun).trans (hf e _ _ _ h)

end

theorem onlyGrows_update {operation : FileSystem → Except IoError FileSystem}
    (h : ∀ {fs fs'}, operation fs = .ok fs' → fs.Grows fs') : OnlyGrows (update operation) := by
  intro fs fs' result hupdate
  rw [run_update] at hupdate
  cases hrun : operation fs with
  | ok grown =>
    rw [hrun] at hupdate
    obtain ⟨-, rfl⟩ := Prod.mk.inj hupdate
    exact h hrun
  | error e =>
    rw [hrun] at hupdate
    obtain ⟨-, rfl⟩ := Prod.mk.inj hupdate
    exact .refl fs

theorem run_orDirectory (p : Path) (e : IoError) (fs : FileSystem) :
    (Disk.orDirectory (m := StateM FileSystem) p e).run.run fs =
      (if fs.isDirectory p then .ok () else .error e, fs) := by
  have hrun : (Disk.orDirectory (m := StateM FileSystem) p e).run.run fs =
      ((if fs.isDirectory p then pure () else throw e :
        ExceptT IoError (StateM FileSystem) Unit).run.run fs) := by
    rw [Disk.orDirectory]
    rfl
  rw [hrun]
  cases fs.isDirectory p <;> rfl

theorem onlyGrows_orDirectory (p : Path) (e : IoError) :
    OnlyGrows (Disk.orDirectory (m := StateM FileSystem) p e) := by
  intro fs fs' result h
  rw [run_orDirectory] at h
  obtain ⟨-, rfl⟩ := Prod.mk.inj h
  exact .refl fs

theorem onlyGrows_makeDirectories (dirs : List Path) :
    OnlyGrows (Disk.makeDirectories (m := StateM FileSystem) dirs) := by
  induction dirs with
  | nil =>
    intro fs fs' result h
    obtain ⟨-, rfl⟩ := Prod.mk.inj h
    exact .refl fs
  | cons p above ih =>
    have hmake : OnlyGrows (Disk.makeDirectory (m := StateM FileSystem) p) :=
      onlyGrows_update grows_makeDirectory
    rw [Disk.makeDirectories]
    refine hmake.tryCatch fun e => ?_
    cases e with
    | notFound => exact ih.bind fun _ => hmake.tryCatch fun e => onlyGrows_orDirectory p e
    | _ => exact onlyGrows_orDirectory p _

/-- **Opening makes a file system grow**, whether or not it succeeds. -/
theorem onlyGrows_openForAppending (p : Path) :
    OnlyGrows (Disk.openForAppending (m := StateM FileSystem) p) :=
  (onlyGrows_makeDirectories p.ancestors).bind fun _ => onlyGrows_update grows_create

/-- Opening a path ends well and leaves this file system. -/
abbrev Opens (fs : FileSystem) (p : Path) (fs' : FileSystem) : Prop :=
  (Disk.openForAppending (m := StateM FileSystem) p).run.run fs = (.ok (), fs')

/-- **A file that was opened can be read.**  If it was there before, it holds what it held, and else
it is empty. -/
theorem openFile_of_opens {fs fs' : FileSystem} {p : Path} (h : fs.Opens p fs') :
    ∃ place content, fs'.openFile p = .ok (place, content) ∧
      (fs.node? place = some (.file content) ∨ fs.node? place = none ∧ content = []) := by
  have hgrows := onlyGrows_openForAppending p _ _ _ h
  rw [Opens, Disk.openForAppending] at h
  cases hrun : (Disk.makeDirectories (m := StateM FileSystem) p.ancestors).run.run fs with
  | mk result fs₁ =>
    cases result with
    | error e =>
      rw [run_bind_of_error hrun] at h
      cases h
    | ok u =>
      rw [run_bind_of_ok hrun] at h
      have hcreate : (update (·.create p)).run.run fs₁ = (.ok (), fs') := h
      rw [run_update] at hcreate
      cases hcreated : fs₁.create p with
      | error e =>
        rw [hcreated] at hcreate
        cases hcreate
      | ok made =>
        rw [hcreated] at hcreate
        obtain ⟨-, rfl⟩ := Prod.mk.inj hcreate
        obtain ⟨place, content, hopen⟩ := openFile_of_create hcreated
        exact ⟨place, content, hopen, hgrows.fresh (openFile_eq_ok_iff.mp hopen).2⟩

/-! ## Files that are there -/

theorem walk_append (fs : FileSystem) (pieces more : List String) (place : Place) :
    fs.walk place (pieces ++ more) = fs.walk place pieces >>= (fs.walk · more) := by
  induction pieces generalizing place with
  | nil => rfl
  | cons piece rest ih =>
    rw [List.cons_append, walk, walk]
    cases fs.node? place with
    | none => rfl
    | some node =>
      cases node with
      | file content => rfl
      | directory =>
        dsimp only
        split_ifs
        · exact ih place
        · exact ih place.dropLast
        · rfl
        · exact ih (place ++ [piece])

theorem directory_of_walk {fs : FileSystem} {place last : Place} {pieces : List String}
    (hne : pieces ≠ []) (h : fs.walk place pieces = .ok last) :
    fs.node? place = some .directory := by
  cases pieces with
  | nil => exact absurd rfl hne
  | cons piece rest =>
    rw [walk] at h
    cases hnode : fs.node? place with
    | none =>
      rw [hnode] at h
      cases h
    | some node =>
      rw [hnode] at h
      cases node with
      | file content => cases h
      | directory => rfl

theorem directory_of_mem_ancestors {fs : FileSystem} {p a : Path} {last : Place}
    (h : fs.locate p = .ok last) (ha : a ∈ p.ancestors) :
    ∃ place, fs.locate a = .ok place ∧ fs.locateEntry a = .ok place ∧
      fs.node? place = some .directory := by
  obtain ⟨hcheck, hwalk⟩ := locate_eq_ok_iff.mp h
  obtain ⟨more, hmore, hpieces, htrimmed, htext, hne⟩ := Path.exists_of_mem_ancestors ha
  rw [String.append_assoc] at htext
  have hcheck' := Path.check_of_append hcheck htext hne
  rw [hpieces, walk_append] at hwalk
  cases hplace : fs.walk [] a.pieces with
  | error e =>
    rw [hplace] at hwalk
    cases hwalk
  | ok place =>
    rw [hplace] at hwalk
    refine ⟨place, locate_eq_ok_iff.mpr ⟨hcheck', hplace⟩,
      locateEntry_eq_ok_iff.mpr ⟨hcheck', ?_⟩, directory_of_walk hmore hwalk⟩
    rw [htrimmed, hplace]

theorem run_makeDirectories_of_locate {fs : FileSystem} {p : Path} {last : Place}
    (h : fs.locate p = .ok last) :
    (Disk.makeDirectories (m := StateM FileSystem) p.ancestors).run.run fs = (.ok (), fs) := by
  cases hancestors : p.ancestors with
  | nil => rfl
  | cons a above =>
    -- the nearest directory is there, so those above it are not tried
    have ha : a ∈ p.ancestors := by
      rw [hancestors]
      exact List.mem_cons_self
    obtain ⟨place, hlocate, hentry, hnode⟩ := directory_of_mem_ancestors h ha
    have hmade : fs.makeDirectory a = .error .alreadyExists := by
      rw [makeDirectory, hentry]
      dsimp only [bind, Except.bind]
      rw [hnode]
      rfl
    have hmake : (Disk.makeDirectory (m := StateM FileSystem) a).run.run fs =
        (.error .alreadyExists, fs) := by
      have hrun : (update (·.makeDirectory a)).run.run fs = _ := run_update _ fs
      rw [hmade] at hrun
      exact hrun
    have hdirectory : fs.isDirectory a = true := by
      rw [isDirectory, lookup?, hlocate]
      simp [hnode]
    rw [Disk.makeDirectories, run_tryCatch_of_error hmake]
    dsimp only
    rw [run_orDirectory, if_pos hdirectory]

theorem create_of_openFile {fs : FileSystem} {p : Path} {place : Place} {content : Bytes}
    (h : fs.openFile p = .ok (place, content)) : fs.create p = .ok fs := by
  obtain ⟨hlocate, hnode⟩ := openFile_eq_ok_iff.mp h
  obtain ⟨hcheck, hwalk⟩ := locate_eq_ok_iff.mp hlocate
  have hslash : p.endsInSlash = false := by
    refine eq_false_of_ne_true fun hslash => ?_
    -- an empty last piece would have been followed from a directory, to that directory
    obtain ⟨before, hpieces⟩ := Path.exists_pieces_of_endsInSlash hslash
    rw [hpieces, walk_append] at hwalk
    cases hbefore : fs.walk [] before with
    | error e =>
      rw [hbefore] at hwalk
      cases hwalk
    | ok directory =>
      rw [hbefore] at hwalk
      have hstep : fs.walk directory [""] = .ok place := hwalk
      have hdirectory := directory_of_walk (List.cons_ne_nil _ _) hstep
      rw [walk, hdirectory] at hstep
      obtain rfl : directory = place := Except.ok.inj hstep
      rw [hdirectory] at hnode
      cases hnode
  have hentry : fs.locateEntry p = .ok place := by
    refine locateEntry_eq_ok_iff.mpr ⟨hcheck, ?_⟩
    rw [Path.trimmed_eq_pieces (Path.check_eq_ok_iff.mp hcheck).2.1 hslash, hwalk]
  exact create_eq_ok_iff.mpr ⟨hslash, place, hentry, .inl ⟨content, hnode, rfl⟩⟩

/-- **A file that is there can be opened**, and nothing is made for it. -/
theorem opens_of_openFile {fs : FileSystem} {p : Path} {place : Place} {content : Bytes}
    (h : fs.openFile p = .ok (place, content)) : fs.Opens p fs := by
  have hcreate : (update (·.create p)).run.run fs = _ := run_update _ fs
  rw [create_of_openFile h] at hcreate
  rw [Opens, Disk.openForAppending,
    run_bind_of_ok (run_makeDirectories_of_locate (openFile_eq_ok_iff.mp h).1)]
  exact hcreate

end FileSystem

end RecordLog
