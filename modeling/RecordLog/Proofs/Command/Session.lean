import RecordLog.Proofs.Command.Files

/-! # Sessions

Commands are run one after the other on a log that was not there before.  The log then holds the
lines of the records posted, and nothing else, so what each command prints can be told from the
records posted before it.

* `Answered`: how a command ends and what it prints, by the records posted before it.
* `Ready`: the log can be opened, and holds the lines of these records.
* `Ready.next`: what one command does to it.
* `session_from_new`: what commands do, one after the other.
-/

namespace RecordLog.Command

open Format

variable {fs fs' : FileSystem} {p : Path} {posted : List Record}

/-! ## Answers -/

/-- How a command ends and what it prints, by the records posted before it. -/
def Answered (posted : List Record) (outcome : Outcome) : Request → Prop
  | .post user msg fields =>
    (outcome.exit = 0 ↔ Postable user msg fields) ∧
      (outcome.exit = 0 → Utf8.encode outcome.stdout =
        Utf8.encode "Message Posted:\n" ++ linesOf [recordOf user msg fields])
  | .list user? json => outcome.exit = 0 ∧
      (posted = [] → outcome.stdout = "No comments.\n") ∧
      (posted ≠ [] → posted.filter (keep user?) = [] →
        outcome.stdout = "This user has no comments.\n") ∧
      (posted.filter (keep user?) ≠ [] → json = false →
        Utf8.encode outcome.stdout = linesOf (posted.filter (keep user?))) ∧
      (posted.filter (keep user?) ≠ [] → json = true →
        outcome.stdout = Record.toPrettyJsonArray (posted.filter (keep user?)) ++ "\n")
  | .stats => outcome.exit = 0 ∧ outcome.stdout = account (.ofBuffer (linesOf posted))

theorem answered_list (posted : List Record) (user? : Option String) (json : Bool) :
    Answered posted { exit := 0, stdout := listing user? json posted } (.list user? json) := by
  refine ⟨rfl, ?_, ?_, ?_, ?_⟩
  · rintro rfl
    exact listing_nil user? json
  · intro hposted hkept
    exact listing_of_filter_eq_nil hposted hkept json
  · rintro hkept rfl
    show Utf8.encode (listing user? false posted) = _
    rw [listing_of_filter_ne_nil hkept, if_neg Bool.false_ne_true,
      (isText_linesOf _).encode_decodeLossy]
  · rintro hkept rfl
    show listing user? true posted = _
    rw [listing_of_filter_ne_nil hkept, if_pos rfl]

theorem answered_of_shown? {request : Request} {text : String} (hvalid : ∀ r ∈ posted, r.Valid)
    (h : request.shown? (linesOf posted) = some text) :
    Answered posted { exit := 0, stdout := text } request := by
  cases request with
  | post user msg fields => cases h
  | list user? json =>
    obtain rfl := Option.some.inj h
    rw [listing_records_linesOf hvalid]
    exact answered_list posted user? json
  | stats =>
    obtain rfl := Option.some.inj h
    exact ⟨rfl, rfl⟩

theorem answered_of_posted? {request : Request} {r : Record} (h : request.posted? = some r)
    (posted : List Record) : Answered posted { exit := 0, stdout := receipt r } request := by
  cases request with
  | post user msg fields =>
    obtain ⟨hpostable, rfl⟩ := Request.posted?_post_eq_some_iff.mp h
    refine ⟨⟨fun _ => hpostable, fun _ => rfl⟩, fun _ => ?_⟩
    rw [linesOf_singleton]
    exact encode_receipt _
  | list user? json => cases h
  | stats => cases h

theorem answered_of_refused {request : Request} {buffer : Bytes}
    (hshown : request.shown? buffer = none) (hposted : request.posted? = none)
    (posted : List Record) (e : Error) :
    Answered posted { exit := 1, failure := some e } request := by
  cases request with
  | post user msg fields =>
    refine ⟨⟨fun hexit => (by cases hexit), fun hpostable => ?_⟩, fun hexit => (by cases hexit)⟩
    rw [Request.posted?, if_pos hpostable] at hposted
    cases hposted
  | list user? json => cases hshown
  | stats => cases hshown

/-! ## One command -/

/-- The log at a path holds the lines of these records. -/
structure Holds (fs : FileSystem) (p : Path) (posted : List Record) : Prop where
  file : ∃ place, fs.openFile p = .ok (place, linesOf posted)
  valid : ∀ r ∈ posted, r.Valid

/-- The log at a path can be opened, and then holds the lines of these records. -/
def Ready (fs : FileSystem) (p : Path) (posted : List Record) : Prop :=
  ∃ fs₁, fs.Opens p fs₁ ∧ Holds fs₁ p posted

theorem Holds.ready (h : Holds fs p posted) : Ready fs p posted := by
  obtain ⟨place, hfile⟩ := h.file
  exact ⟨fs, FileSystem.opens_of_openFile hfile, h⟩

theorem Holds.put (h : Holds fs p posted) {place : Place}
    (hfile : fs.openFile p = .ok (place, linesOf posted)) {r : Record} (hr : r.Valid) :
    Holds (fs.put place (.file (linesOf posted ++ (r.toObject ++ [newline])))) p
      (posted ++ [r]) where
  file := by
    refine ⟨place, ?_⟩
    rw [FileSystem.openFile_put_file hfile, linesOf_append, linesOf_singleton]
  valid := by
    intro other hother
    rcases List.mem_append.mp hother with hposted | hlast
    · exact h.valid other hposted
    · obtain rfl := List.mem_singleton.mp hlast
      exact hr

/-- **What one command does to a log of lines**: it adds the record that it posts. -/
theorem Ready.next (h : Ready fs p posted) {words : List String} {invocation : Invocation}
    (hwords : Invocation.ofWords words = .ok invocation) (hlog : invocation.config.logPath = p) :
    ∃ outcome fs', (run (m := StateM FileSystem) words).run fs = (outcome, fs') ∧
      Answered posted outcome invocation.request ∧
      Holds fs' p (posted ++ invocation.request.posted?.toList) := by
  obtain ⟨fs₁, hopen, hholds⟩ := h
  obtain ⟨place, hfile⟩ := hholds.file
  subst hlog
  cases hshown : invocation.request.shown? (linesOf posted) with
  | some text =>
    have hrun := run_of_shows hwords hopen (FileSystem.read_of_openFile hfile) hshown
    refine ⟨_, fs₁, hrun, answered_of_shown? hholds.valid hshown, ?_⟩
    rw [Request.posted?_of_shown? hshown, Option.toList_none, List.append_nil]
    exact hholds
  | none =>
    cases hposted : invocation.request.posted? with
    | some r =>
      have hrun := run_of_posts hwords hopen hfile hposted
      exact ⟨_, _, hrun, answered_of_posted? hposted posted,
        hholds.put hfile (Request.valid_of_posted? hposted)⟩
    | none =>
      obtain ⟨e, hrun⟩ := run_of_refuses hwords hopen hshown hposted
      refine ⟨_, fs₁, hrun, answered_of_refused hshown hposted posted e, ?_⟩
      rw [Option.toList_none, List.append_nil]
      exact hholds

/-! ## One command after the other -/

theorem run_mapM_cons {words : List String} {more : List (List String)} {outcome : Outcome}
    {outcomes : List Outcome} {fs₁ : FileSystem}
    (h : (run (m := StateM FileSystem) words).run fs = (outcome, fs₁))
    (hmore : (more.mapM (run (m := StateM FileSystem))).run fs₁ = (outcomes, fs')) :
    ((words :: more).mapM (run (m := StateM FileSystem))).run fs =
      (outcome :: outcomes, fs') := by
  rw [List.mapM_cons, StateT.run_bind, h]
  show ((more.mapM (run (m := StateM FileSystem)) >>= fun outcomes =>
    pure (outcome :: outcomes)).run fs₁) = _
  rw [StateT.run_bind, hmore]
  rfl

/-- **What commands do to a log of lines, one after the other.** -/
theorem Ready.session (h : Ready fs p posted) {runs : List (List String)}
    {invocations : List Invocation}
    (hwords : runs.map Invocation.ofWords = invocations.map .ok)
    (hlog : ∀ invocation ∈ invocations, invocation.config.logPath = p) :
    ∃ outcomes fs', (runs.mapM (run (m := StateM FileSystem))).run fs = (outcomes, fs') ∧
      outcomes.length = runs.length ∧
      (runs ≠ [] ∨ Holds fs p posted →
        Holds fs' p (posted ++ invocations.filterMap (·.request.posted?))) ∧
      ∀ i invocation, invocations[i]? = some invocation → ∃ outcome,
        outcomes[i]? = some outcome ∧
          Answered (posted ++ (invocations.take i).filterMap (·.request.posted?)) outcome
            invocation.request := by
  -- by the commands: each leaves a log that the next one finds, with one record more or none
  induction runs generalizing fs posted invocations with
  | nil =>
    obtain rfl : invocations = [] := List.map_eq_nil_iff.mp hwords.symm
    refine ⟨[], fs, rfl, rfl, ?_, ?_⟩
    · rintro (hne | hholds)
      · exact absurd rfl hne
      · rwa [List.filterMap_nil, List.append_nil]
    · intro i invocation hi
      cases hi
  | cons words more ih =>
    cases invocations with
    | nil => cases hwords
    | cons invocation invocations =>
      obtain ⟨hhead, htail⟩ := List.cons.inj hwords
      obtain ⟨hpath, hpaths⟩ := List.forall_mem_cons.mp hlog
      have hcons (is : List Invocation) : posted ++ (invocation :: is).filterMap
          (·.request.posted?) = posted ++ invocation.request.posted?.toList ++
            is.filterMap (·.request.posted?) := by
        rw [List.filterMap_cons, List.append_assoc]
        cases invocation.request.posted? <;> rfl
      obtain ⟨outcome, fs₁, hrun, hanswered, hholds⟩ := h.next hhead hpath
      obtain ⟨outcomes, fs', hruns, hlength, hend, hanswers⟩ := ih hholds.ready htail hpaths
      refine ⟨outcome :: outcomes, fs', run_mapM_cons hrun hruns, congrArg (· + 1) hlength, ?_, ?_⟩
      · intro _
        rw [hcons]
        exact hend (.inr hholds)
      · intro i other hi
        cases i with
        | zero =>
          obtain rfl := Option.some.inj hi
          refine ⟨outcome, rfl, ?_⟩
          rw [List.take_zero, List.filterMap_nil, List.append_nil]
          exact hanswered
        | succ i =>
          rw [List.take_succ_cons, hcons]
          exact hanswers i other hi

/-- A path that can be opened, and at which nothing stands. -/
def OpensNew (fs : FileSystem) (p : Path) : Prop :=
  ∃ fs₁ place, fs.Opens p fs₁ ∧ fs₁.locate p = .ok place ∧ fs.node? place = none

theorem OpensNew.ready (h : OpensNew fs p) : Ready fs p [] := by
  obtain ⟨fs₁, place, hopen, hlocate, hnone⟩ := h
  obtain ⟨other, content, hfile, hbefore⟩ := FileSystem.openFile_of_opens hopen
  obtain rfl : other = place :=
    Except.ok.inj ((FileSystem.openFile_eq_ok_iff.mp hfile).1.symm.trans hlocate)
  rcases hbefore with hold | ⟨-, rfl⟩
  · cases hold.symm.trans hnone
  · exact ⟨fs₁, hopen, ⟨other, hfile⟩, List.forall_mem_nil _⟩

/-- **What commands do to a log that was not there, one after the other.**  If there was any
command, the log is there in the end and holds the lines of the records posted, in order, and
nothing else.  Each command ends and prints as the records posted before it tell. -/
theorem session_from_new (h : OpensNew fs p) {runs : List (List String)}
    {invocations : List Invocation}
    (hwords : runs.map Invocation.ofWords = invocations.map .ok)
    (hlog : ∀ invocation ∈ invocations, invocation.config.logPath = p) :
    ∃ outcomes fs', (runs.mapM (run (m := StateM FileSystem))).run fs = (outcomes, fs') ∧
      outcomes.length = runs.length ∧
      (runs ≠ [] → fs'.read p = .ok (linesOf (invocations.filterMap (·.request.posted?)))) ∧
      ∀ i invocation, invocations[i]? = some invocation → ∃ outcome,
        outcomes[i]? = some outcome ∧
          Answered ((invocations.take i).filterMap (·.request.posted?)) outcome
            invocation.request := by
  obtain ⟨outcomes, fs', hruns, hlength, hend, hanswers⟩ := h.ready.session hwords hlog
  refine ⟨outcomes, fs', hruns, hlength, fun hne => ?_, hanswers⟩
  obtain ⟨place, hfile⟩ := (hend (.inl hne)).file
  exact FileSystem.read_of_openFile hfile

/-- A field without an equals sign is refused; a field may take the place of the user. -/
theorem session_from_new_override : ∃ (runs : List (List String)) (invocations : List Invocation)
    (outcomes : List Outcome) (fs' : FileSystem),
    runs = [["-l", "log", "post", "-u", "a", "-m", "b", "-f", "x"],
      ["-l", "log", "post", "-u", "c", "-m", "d", "-f", "user=e=f"],
      ["-l", "log", "list", "-u", "e=f"]] ∧
    OpensNew ∅ ⟨"log"⟩ ∧ runs.map Invocation.ofWords = invocations.map .ok ∧
    (∀ invocation ∈ invocations, invocation.config.logPath = ⟨"log"⟩) ∧
    (runs.mapM (run (m := StateM FileSystem))).run ∅ = (outcomes, fs') ∧
    fs'.read ⟨"log"⟩ = .ok (Utf8.encode "\x7b\"msg\":\"d\",\"user\":\"e=f\"\x7d\n") ∧
    ∃ outcome, outcomes[2]? = some outcome ∧ outcome.exit = 0 ∧
      Utf8.encode outcome.stdout = Utf8.encode "\x7b\"msg\":\"d\",\"user\":\"e=f\"\x7d\n" := by
  let runs := [["-l", "log", "post", "-u", "a", "-m", "b", "-f", "x"],
    ["-l", "log", "post", "-u", "c", "-m", "d", "-f", "user=e=f"],
    ["-l", "log", "list", "-u", "e=f"]]
  let config : Config := { logPath := ⟨"log"⟩, sync := .deferred }
  let invocations : List Invocation := [{ config, request := .post "a" "b" ["x"] },
    { config, request := .post "c" "d" ["user=e=f"] }, { config, request := .list "e=f" false }]
  have hnew : OpensNew ∅ ⟨"log"⟩ := by
    let opened := (Disk.openForAppending (m := StateM FileSystem) ⟨"log"⟩).run.run ∅
    have hopened : opened.1 = .ok () := by decide +kernel
    have hlocate : opened.2.locate ⟨"log"⟩ = .ok ["log"] := by decide +kernel
    exact ⟨opened.2, ["log"], Prod.ext hopened rfl, hlocate, by decide +kernel⟩
  have hwords : runs.map Invocation.ofWords = invocations.map .ok := by decide +kernel
  have hlog : ∀ invocation ∈ invocations, invocation.config.logPath = ⟨"log"⟩ := by decide +kernel
  obtain ⟨outcomes, fs', hruns, -, hread, hanswers⟩ := session_from_new hnew hwords hlog
  obtain ⟨outcome, houtcome, hexit, -, -, hstdout, -⟩ := hanswers 2 _ rfl
  refine ⟨runs, invocations, outcomes, fs', rfl, hnew, hwords, hlog, hruns, ?_, outcome, houtcome,
    hexit, ?_⟩
  · rw [hread (List.cons_ne_nil _ _)]
    decide +kernel
  · rw [hstdout (by decide +kernel) rfl]
    decide +kernel

end RecordLog.Command
