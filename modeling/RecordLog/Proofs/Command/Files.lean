import RecordLog.Proofs.Command.Requests
import RecordLog.Proofs.Disk.Opening

/-! # What a command does to files

A command opens its log first, which only makes what is missing.  Whatever it goes on to do,
nothing but a record that is posted comes into the log, and that comes behind what was there.  A
command that fails has printed nothing, because all that can go wrong goes wrong before it prints.

* `run_of_open_error`, `run_of_opens`: the words of a command as a request to a log.
* `run_of_shows`, `run_of_posts`, `run_of_refuses`: how a command ends once its log is open.
* `LogKept`, `LogExtended`: what may become of a log.
* `Effect`, `run_effect`: what a command does to its log.
-/

namespace RecordLog.Command

open Format

variable {fs fs' : FileSystem} {words : List String} {invocation : Invocation}

theorem run_open {p : Path} {result : Except IoError Unit}
    (h : (Disk.openForAppending (m := StateM FileSystem) p).run.run fs = (result, fs'))
    (sync : SyncPolicy) (out : String) :
    ((LogFile.open (m := PrintingT (StateM FileSystem)) p sync).run.run out).run fs =
      (((result.mapError .io).map fun _ => { path := p, sync }, out), fs') :=
  (quiet_open p sync).run (LogFile.run_open h sync) out

theorem run_of_ofWords (h : Invocation.ofWords words = .ok invocation)
    {result : Except Error Unit × String}
    (hrun : ((Invocation.run (m := StateM FileSystem) invocation).run.run "").run fs =
      (result, fs')) : (run (m := StateM FileSystem) words).run fs = (.ofResult result, fs') := by
  rw [run, h]
  show (Outcome.ofResult <$>
    (Invocation.run (m := StateM FileSystem) invocation).run.run "").run fs = _
  rw [StateT.run_map, hrun]
  rfl

theorem run_of_open_error (h : Invocation.ofWords words = .ok invocation) {e : IoError}
    (hopen : (Disk.openForAppending (m := StateM FileSystem)
      invocation.config.logPath).run.run fs = (.error e, fs')) :
    (run (m := StateM FileSystem) words).run fs =
      ({ exit := 1, failure := some (.io e) }, fs') := by
  have hrun := run_open hopen invocation.config.sync ""
  exact run_of_ofWords h (run_bind_of_error hrun _)

/-- The file of a command's log. -/
def Invocation.file (invocation : Invocation) : LogFile :=
  { path := invocation.config.logPath, sync := invocation.config.sync }

section

variable {fs₁ : FileSystem}

theorem run_of_opens (h : Invocation.ofWords words = .ok invocation)
    (hopen : fs.Opens invocation.config.logPath fs₁) {result : Except Error Unit} {out : String}
    (hrun : ((invocation.request.run (m := StateM FileSystem)
      invocation.file.log).run.run "").run fs₁ = ((result, out), fs')) :
    (run (m := StateM FileSystem) words).run fs = (.ofResult (result, out), fs') := by
  have hfile := run_open hopen invocation.config.sync ""
  refine run_of_ofWords h ?_
  rw [Invocation.run, run_bind_of_ok hfile]
  exact hrun

/-- **A command that reads shows what the log holds** and leaves it alone. -/
theorem run_of_shows (h : Invocation.ofWords words = .ok invocation)
    (hopen : fs.Opens invocation.config.logPath fs₁) {content : Bytes}
    (hread : fs₁.read invocation.config.logPath = .ok content) {text : String}
    (hshown : invocation.request.shown? content = some text) :
    (run (m := StateM FileSystem) words).run fs = ({ exit := 0, stdout := text }, fs₁) := by
  have hcontents : (invocation.file.log : Log (StateM FileSystem)).contents.run.run fs₁ =
      (.ok content, fs₁) := by
    rw [LogFile.run_log_contents, Invocation.file, hread]
    rfl
  have hrun := run_of_shown? (quiet_log invocation.file) hcontents hshown ""
  rw [String.empty_append] at hrun
  exact run_of_opens h hopen hrun

/-- **A command that posts adds one line** and shows it. -/
theorem run_of_posts (h : Invocation.ofWords words = .ok invocation)
    (hopen : fs.Opens invocation.config.logPath fs₁) {place : Place} {old : Bytes}
    (hfile : fs₁.openFile invocation.config.logPath = .ok (place, old)) {r : Record}
    (hposted : invocation.request.posted? = some r) :
    (run (m := StateM FileSystem) words).run fs = ({ exit := 0, stdout := receipt r },
      fs₁.put place (.file (old ++ (r.toObject ++ [newline])))) := by
  have happend : fs₁.append invocation.file.path (r.toObject ++ [newline]) =
      .ok (fs₁.put place (.file (old ++ (r.toObject ++ [newline])))) :=
    FileSystem.append_eq_ok_iff.mpr ⟨place, old, hfile, rfl⟩
  have hextend := LogFile.run_log_extend invocation.file (r.toObject ++ [newline]) fs₁
  rw [happend] at hextend
  have hrun := run_of_posted? (quiet_log invocation.file) hposted hextend ""
  rw [String.empty_append] at hrun
  exact run_of_opens h hopen hrun

theorem run_of_refuses (h : Invocation.ofWords words = .ok invocation)
    (hopen : fs.Opens invocation.config.logPath fs₁) {content : Bytes}
    (hshown : invocation.request.shown? content = none)
    (hposted : invocation.request.posted? = none) : ∃ e,
    (run (m := StateM FileSystem) words).run fs = ({ exit := 1, failure := some e }, fs₁) := by
  obtain ⟨e, hrun⟩ := run_of_refused (quiet_log invocation.file) hshown hposted "" fs₁
  exact ⟨e, run_of_opens h hopen hrun⟩

end

/-! ## What a command leaves -/

/-- What a command does to files that does not write to its log: whatever was there stays, a log
that was there is read as before, and a log that was not there still is not, or is empty. -/
structure LogKept (fs fs' : FileSystem) (p : Path) : Prop where
  grows : fs.Grows fs'
  existing {content : Bytes} : fs.read p = .ok content → fs'.read p = .ok content
  -- by place: a path through a missing directory and back leads nowhere until that is made
  absent {place : Place} {content : Bytes} : fs'.openFile p = .ok (place, content) →
    fs.node? place = some (.file content) ∨ fs.node? place = none ∧ content = []

theorem logKept_of_grows (h : fs.Grows fs') (p : Path) : LogKept fs fs' p where
  grows := h
  existing hread := h.read hread
  absent hfile := h.fresh (FileSystem.openFile_eq_ok_iff.mp hfile).2

/-- What a command does to files that writes to its log: it adds bytes at the end of what was
there, if anything was. -/
structure LogExtended (fs fs' : FileSystem) (p : Path) (line : Bytes) : Prop where
  adds : ∃ place old, fs'.openFile p = .ok (place, old ++ line) ∧
    (fs.node? place = some (.file old) ∨ fs.node? place = none ∧ old = []) ∧
    ∀ other node, other ≠ place → fs.node? other = some node → fs'.node? other = some node
  existing {content : Bytes} : fs.read p = .ok content → fs'.read p = .ok (content ++ line)

theorem logExtended_of_grows {fs₁ : FileSystem} (h : fs.Grows fs₁) {p : Path} {place : Place}
    {old : Bytes} (hfile : fs₁.openFile p = .ok (place, old)) (line : Bytes) :
    LogExtended fs (fs₁.put place (.file (old ++ line))) p line where
  adds := by
    have hnode := (FileSystem.openFile_eq_ok_iff.mp hfile).2
    refine ⟨place, old, FileSystem.openFile_put_file hfile _, h.fresh hnode, ?_⟩
    intro other node hother hold
    rw [FileSystem.node?_put fs₁ (FileSystem.ne_nil_of_node?_eq_file hnode), if_neg hother]
    exact h.keeps hold
  existing hread := by
    have hsame := (h.read hread).symm.trans (FileSystem.read_of_openFile hfile)
    rw [Except.ok.inj hsame]
    exact FileSystem.read_of_openFile (FileSystem.openFile_put_file hfile _)

/-- A request that does not post. -/
def Request.Reads (request : Request) : Prop :=
  (∃ user? json, request = .list user? json) ∨ request = .stats

theorem Request.reads_iff_shown? {request : Request} (buffer : Bytes) :
    request.Reads ↔ ∃ text, request.shown? buffer = some text := by
  cases request with
  | post user msg fields =>
    refine ⟨?_, fun ⟨_, h⟩ => (by cases h)⟩
    rintro (⟨_, _, h⟩ | h) <;> cases h
  | list user? json => exact ⟨fun _ => ⟨_, rfl⟩, fun _ => .inl ⟨user?, json, rfl⟩⟩
  | stats => exact ⟨fun _ => ⟨_, rfl⟩, fun _ => .inr rfl⟩

/-- What a command may do to files.  If it fails it prints nothing and keeps its log.  If it reads
it keeps its log, and succeeds whenever that can be opened.  If it posts and succeeds it adds one
written record and a line end. -/
structure Effect (invocation : Invocation) (fs fs' : FileSystem) (outcome : Outcome) : Prop where
  ends : outcome.exit = 0 ∨ outcome.exit = 1
  fails : outcome.exit = 1 → outcome.stdout = "" ∧ LogKept fs fs' invocation.config.logPath
  reads : invocation.request.Reads → LogKept fs fs' invocation.config.logPath ∧
    ∀ fs₁, fs.Opens invocation.config.logPath fs₁ → outcome.exit = 0
  posts {user msg : String} {fields : List String} : invocation.request = .post user msg fields →
    outcome.exit = 0 → ∃ r object, postRecord user msg fields = .ok r ∧ r.encode = .ok object ∧
      LogExtended fs fs' invocation.config.logPath (object ++ [newline])

theorem effect_of_error (hkept : LogKept fs fs' invocation.config.logPath) (e : Error)
    (hreads : invocation.request.Reads →
      ∀ fs₁, ¬ fs.Opens invocation.config.logPath fs₁) :
    Effect invocation fs fs' { exit := 1, failure := some e } where
  ends := .inr rfl
  fails _ := ⟨rfl, hkept⟩
  reads hrequest := ⟨hkept, fun fs₁ hopens => absurd hopens (hreads hrequest fs₁)⟩
  posts _ hexit := by cases hexit

theorem effect_of_reads (hkept : LogKept fs fs' invocation.config.logPath)
    (hreads : invocation.request.Reads) (text : String) :
    Effect invocation fs fs' { exit := 0, stdout := text } where
  ends := .inl rfl
  fails hexit := by cases hexit
  reads _ := ⟨hkept, fun _ _ => rfl⟩
  posts hpost _ := by
    obtain ⟨text, hshown⟩ := (Request.reads_iff_shown? []).mp hreads
    rw [hpost] at hshown
    cases hshown

theorem effect_of_posted? {r : Record} (hposted : invocation.request.posted? = some r)
    (hextended : LogExtended fs fs' invocation.config.logPath (r.toObject ++ [newline])) :
    Effect invocation fs fs' { exit := 0, stdout := receipt r } where
  ends := .inl rfl
  fails hexit := by cases hexit
  reads hreads := by
    obtain ⟨text, hshown⟩ := (Request.reads_iff_shown? []).mp hreads
    cases hposted.symm.trans (Request.posted?_of_shown? hshown)
  posts hpost _ := by
    rw [hpost] at hposted
    obtain ⟨hpostable, rfl⟩ := Request.posted?_post_eq_some_iff.mp hposted
    exact ⟨_, _, hpostable.postRecord, hpostable.encode, hextended⟩

/-- **What a command does to its log**, whatever files there are and whatever they hold. -/
theorem run_effect (h : Invocation.ofWords words = .ok invocation) (fs : FileSystem) :
    ∃ outcome fs', (run (m := StateM FileSystem) words).run fs = (outcome, fs') ∧
      Effect invocation fs fs' outcome := by
  cases hopen : (Disk.openForAppending (m := StateM FileSystem)
      invocation.config.logPath).run.run fs with
  | mk result fs₁ =>
    have hgrows : fs.Grows fs₁ := FileSystem.onlyGrows_openForAppending _ _ _ _ hopen
    have hkept := logKept_of_grows hgrows invocation.config.logPath
    cases result with
    | error e =>
      -- opening ends one way only, so it does not also end well
      refine ⟨_, fs₁, run_of_open_error h hopen, effect_of_error hkept _ fun _ fs₂ hopens => ?_⟩
      cases hopen.symm.trans hopens
    | ok u =>
      obtain ⟨place, old, hfile, -⟩ := FileSystem.openFile_of_opens hopen
      have hread := FileSystem.read_of_openFile hfile
      cases hshown : invocation.request.shown? old with
      | some text =>
        have hreads := (Request.reads_iff_shown? old).mpr ⟨text, hshown⟩
        exact ⟨_, fs₁, run_of_shows h hopen hread hshown, effect_of_reads hkept hreads text⟩
      | none =>
        cases hposted : invocation.request.posted? with
        | some r =>
          have hextended := logExtended_of_grows hgrows hfile (r.toObject ++ [newline])
          exact ⟨_, _, run_of_posts h hopen hfile hposted, effect_of_posted? hposted hextended⟩
        | none =>
          obtain ⟨e, hrun⟩ := run_of_refuses h hopen hshown hposted
          refine ⟨_, fs₁, hrun, effect_of_error hkept e fun hreads => ?_⟩
          obtain ⟨text, htext⟩ := (Request.reads_iff_shown? old).mp hreads
          cases hshown.symm.trans htext

/-- A record is posted to a log that holds an opening brace. -/
theorem run_effect_brace : ∃ (words : List String) (invocation : Invocation) (fs fs' : FileSystem)
    (outcome : Outcome), words = ["-l", "log", "post", "-u", "a", "-m", "b"] ∧
    Invocation.ofWords words = .ok invocation ∧ fs.read ⟨"log"⟩ = .ok [openBrace] ∧
    (run (m := StateM FileSystem) words).run fs = (outcome, fs') ∧ outcome.exit = 0 ∧
    fs'.read ⟨"log"⟩ = .ok (Utf8.encode "\x7b\x7b\"msg\":\"b\",\"user\":\"a\"\x7d\n") := by
  let words := ["-l", "log", "post", "-u", "a", "-m", "b"]
  let invocation : Invocation :=
    { config := { logPath := ⟨"log"⟩, sync := .deferred }, request := .post "a" "b" [] }
  let fs : FileSystem := (∅ : FileSystem).withFile ⟨"log"⟩ [openBrace]
  have hwords : Invocation.ofWords words = .ok invocation := by decide +kernel
  have hread : fs.read ⟨"log"⟩ = .ok [openBrace] := by decide +kernel
  obtain ⟨outcome, fs', hrun, heffect⟩ := run_effect hwords fs
  have hexit : outcome.exit = 0 := by
    have hdone : ((run (m := StateM FileSystem) words).run fs).1.exit = 0 := by decide +kernel
    rwa [hrun] at hdone
  obtain ⟨r, object, hrecord, hencode, hextended⟩ := heffect.posts rfl hexit
  obtain ⟨-, rfl⟩ := postRecord_eq_ok_iff.mp hrecord
  obtain ⟨-, rfl⟩ := Record.encode_eq_ok_iff.mp hencode
  refine ⟨words, invocation, fs, fs', outcome, rfl, hwords, hread, hrun, hexit, ?_⟩
  rw [hextended.existing hread]
  decide +kernel

end RecordLog.Command
