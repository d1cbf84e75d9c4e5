import Mathlib.Control.Monad.Basic
import Mathlib.Logic.Function.Basic
import RecordLog.Proofs.Disk.Opening
import RecordLog.Proofs.Log.Runs

/-! # Users of one log

A log in a file keeps nothing but the path of the file, so whoever opens that path uses the same
log, and opening it again takes nothing away.  As long as nobody else touches the file, its users
are answered as if the bytes of the file were held in memory.

* `EndsAlike`: programs that end with related results from related states.
* `Log.Alike`: logs that do the same with bytes; `Log.Alike.operation`: and so with records.
* `Use`, `serve`: several users of a log, who open it and ask for things in any order.
* `endsAlike_serve`: users are served alike where logs are.
* `LogFile.users_share_one_log`: the log in a file and the log in memory.
-/

namespace RecordLog

open Format

/-! ## Programs that end alike -/

section

variable {σ τ α β γ δ ε : Type} {R : σ → τ → Prop} {Q : α → β → Prop} {Q' : γ → δ → Prop}

/-- From related states, programs end with related results and leave related states. -/
def EndsAlike (R : σ → τ → Prop) (Q : α → β → Prop) (x : StateM σ α) (y : StateM τ β) : Prop :=
  ∀ s t, R s t → ∃ a b s' t', x.run s = (a, s') ∧ y.run t = (b, t') ∧ Q a b ∧ R s' t'

theorem endsAlike_pure {a : α} {b : β} (h : Q a b) :
    EndsAlike R Q (pure a : StateM σ α) (pure b : StateM τ β) := by
  intro s t hst
  exact ⟨a, b, s, t, rfl, rfl, h, hst⟩

theorem EndsAlike.bind {x : StateM σ α} {y : StateM τ β} {f : α → StateM σ γ} {g : β → StateM τ δ}
    (h : EndsAlike R Q x y) (hf : ∀ a b, Q a b → EndsAlike R Q' (f a) (g b)) :
    EndsAlike R Q' (x >>= f) (y >>= g) := by
  intro s t hst
  obtain ⟨a, b, s', t', hx, hy, hab, hst'⟩ := h s t hst
  rw [StateT.run_bind, StateT.run_bind, hx, hy]
  exact hf a b hab s' t' hst'

theorem EndsAlike.bindExcept {x : ExceptT ε (StateM σ) α} {y : ExceptT ε (StateM τ) α}
    {f : α → ExceptT ε (StateM σ) γ} {g : α → ExceptT ε (StateM τ) γ}
    (h : EndsAlike R Eq x.run y.run) (hf : ∀ a, EndsAlike R Eq (f a).run (g a).run) :
    EndsAlike R Eq (x >>= f).run (y >>= g).run := by
  rw [ExceptT.run_bind, ExceptT.run_bind]
  refine h.bind ?_
  rintro result - rfl
  cases result with
  | ok a => exact hf a
  | error e => exact endsAlike_pure rfl

theorem EndsAlike.mapExcept {x : ExceptT ε (StateM σ) α} {y : ExceptT ε (StateM τ) α} (f : α → γ)
    (h : EndsAlike R Eq x.run y.run) : EndsAlike R Eq (f <$> x).run (f <$> y).run := by
  rw [map_eq_pure_bind, map_eq_pure_bind]
  exact h.bindExcept fun a => endsAlike_pure rfl

theorem endsAlike_ofExcept (z : Except ε α) :
    EndsAlike R Eq (liftM z : ExceptT ε (StateM σ) α).run (liftM z : ExceptT ε (StateM τ) α).run := by
  cases z with
  | ok a => exact endsAlike_pure rfl
  | error e => exact endsAlike_pure rfl

end

/-! ## Operations -/

/-- Something that is asked of a log. -/
inductive Operation where
  /-- To write a record. -/
  | append (r : Record)
  /-- To write a record, and to tell the bytes written. -/
  | write (r : Record)
  /-- To add bytes, whatever they are. -/
  | extend (bytes : Bytes)
  | contents
  | scan (keep : Record → Bool)
  | scanField (name value : String)
  | allRecords
  | statistics

/-- What is answered where nothing goes wrong. -/
inductive Answer where
  | done
  | bytes (bytes : Bytes)
  | report (report : ScanReport)
  | records (records : List Record)
  | statistics (statistics : Statistics)

def Operation.run {m : Type → Type} [Monad m] (log : Log m) : Operation → ExceptT Error m Answer
  | append r => (fun _ => .done) <$> log.append r
  | write r => .bytes <$> log.write r
  | extend bytes => (fun _ => .done) <$> log.extend bytes
  | contents => .bytes <$> log.contents
  | scan keep => .report <$> log.scan keep
  | scanField name value => .report <$> log.scanField name value
  | allRecords => .records <$> log.allRecords
  | statistics => .statistics <$> log.statistics

section

variable {σ τ : Type} {R : σ → τ → Prop} {log : Log (StateM σ)} {other : Log (StateM τ)}

/-- Logs that do the same with bytes. -/
structure Log.Alike (R : σ → τ → Prop) (log : Log (StateM σ)) (other : Log (StateM τ)) : Prop where
  extend (bytes : Bytes) : EndsAlike R Eq (log.extend bytes).run (other.extend bytes).run
  contents : EndsAlike R Eq log.contents.run other.contents.run

namespace Log.Alike

theorem boxed (h : log.Alike R other) : log.boxed.Alike R other :=
  ⟨h.extend, h.contents⟩

theorem write (h : log.Alike R other) (r : Record) :
    EndsAlike R Eq (log.write r).run (other.write r).run :=
  (endsAlike_ofExcept r.encode).bindExcept fun object =>
    (h.extend (object ++ [newline])).bindExcept fun _ => endsAlike_pure rfl

theorem scan (h : log.Alike R other) (keep : Record → Bool) :
    EndsAlike R Eq (log.scan keep).run (other.scan keep).run :=
  h.contents.mapExcept (ScanReport.ofBuffer keep)

/-- **Logs that do the same with bytes do the same with records.** -/
theorem operation (h : log.Alike R other) (op : Operation) :
    EndsAlike R Eq (op.run log).run (op.run other).run := by
  cases op with
  | append r => exact ((h.write r).mapExcept fun _ => ()).mapExcept _
  | write r => exact (h.write r).mapExcept _
  | extend bytes => exact (h.extend bytes).mapExcept _
  | contents => exact h.contents.mapExcept _
  | scan keep => exact (h.scan keep).mapExcept _
  | scanField name value => exact (h.scan (·.hasField name value)).mapExcept _
  | allRecords => exact ((h.scan fun _ => true).mapExcept ScanReport.records).mapExcept _
  | statistics => exact (h.contents.mapExcept Statistics.ofBuffer).mapExcept _

end Log.Alike

end

/-! ## Users -/

/-- Something that a user of a log does. -/
inductive Use where
  /-- Opens the log, or opens it again. -/
  | enter (user : Nat) (sync : SyncPolicy) (boxed : Bool)
  /-- Asks something of the log as it was last opened by that user. -/
  | ask (user : Nat) (op : Operation)

section

variable {m : Type → Type} [Monad m]

/-- The logs that users hold, each as it was last opened. -/
abbrev Holders (m : Type → Type) := Nat → Option (Log m)

/-- Does one thing for a user: what is answered, unless the user holds no log, and what users hold
afterwards.  A log that cannot be opened leaves its user with the one opened before. -/
def Use.run (enter : SyncPolicy → Bool → ExceptT Error m (Log m)) (holders : Holders m) :
    Use → m (Option (Except Error Answer) × Holders m)
  | .enter user sync boxed => do
    match ← (enter sync boxed).run with
    | .ok log => return (some (.ok .done), Function.update holders user (some log))
    | .error e => return (some (.error e), holders)
  | .ask user op => do
    match holders user with
    | some log => return (some (← (op.run log).run), holders)
    | none => return (none, holders)

/-- Does one thing after the other, whether or not those before failed, and yields all answers. -/
def serve (enter : SyncPolicy → Bool → ExceptT Error m (Log m)) (holders : Holders m) :
    List Use → m (List (Option (Except Error Answer)))
  | [] => return []
  | use :: uses => do
    let (answer, holders) ← use.run enter holders
    return answer :: (← serve enter holders uses)

end

section

variable {σ τ : Type} {R : σ → τ → Prop}
  {enter : SyncPolicy → Bool → ExceptT Error (StateM σ) (Log (StateM σ))}
  {enter' : SyncPolicy → Bool → ExceptT Error (StateM τ) (Log (StateM τ))}
  {holders : Holders (StateM σ)} {holders' : Holders (StateM τ)}

/-- Opening goes well, and gives logs that do the same. -/
def Entered (R : σ → τ → Prop) (log : Except Error (Log (StateM σ)))
    (other : Except Error (Log (StateM τ))) : Prop :=
  ∃ log' other', log = .ok log' ∧ other = .ok other' ∧ log'.Alike R other'

/-- The same users hold logs, and these do the same. -/
def HeldAlike (R : σ → τ → Prop) (holders : Holders (StateM σ)) (holders' : Holders (StateM τ)) :
    Prop :=
  ∀ user, Option.Rel (Log.Alike R) (holders user) (holders' user)

theorem HeldAlike.update (h : HeldAlike R holders holders') (user : Nat) {log : Log (StateM σ)}
    {other : Log (StateM τ)} (hlog : log.Alike R other) :
    HeldAlike R (Function.update holders user (some log))
      (Function.update holders' user (some other)) := by
  intro user'
  by_cases huser : user' = user
  · subst huser
    rw [Function.update_self, Function.update_self]
    exact .some hlog
  · rw [Function.update_of_ne huser, Function.update_of_ne huser]
    exact h user'

/-- **One use ends alike.** -/
theorem endsAlike_use
    (henter : ∀ sync boxed, EndsAlike R (Entered R) (enter sync boxed).run (enter' sync boxed).run)
    (h : HeldAlike R holders holders') (use : Use) :
    EndsAlike R (fun a b => a.1 = b.1 ∧ HeldAlike R a.2 b.2) (use.run enter holders)
      (use.run enter' holders') := by
  cases use with
  | enter user sync boxed =>
    refine (henter sync boxed).bind ?_
    rintro - - ⟨log, other, rfl, rfl, hlog⟩
    exact endsAlike_pure ⟨rfl, h.update user hlog⟩
  | ask user op =>
    have huser := h user
    rw [Use.run, Use.run]
    generalize holders user = log, holders' user = other at huser ⊢
    cases huser with
    | some hlog =>
      refine (hlog.operation op).bind ?_
      rintro answer - rfl
      exact endsAlike_pure ⟨rfl, h⟩
    | none => exact endsAlike_pure ⟨rfl, h⟩

theorem run_serve_enter {log : Log (StateM σ)} {s s' : σ} {sync : SyncPolicy} {boxed : Bool}
    (h : (enter sync boxed).run.run s = (.ok log, s')) (user : Nat) (uses : List Use) :
    (serve enter holders (.enter user sync boxed :: uses)).run s =
      Prod.map (some (.ok .done) :: ·) id
        ((serve enter (Function.update holders user (some log)) uses).run s') := by
  rw [serve, Use.run, bind_assoc, StateT.run_bind, h]
  rfl

/-- **Users are served alike where logs are.** -/
theorem endsAlike_serve
    (henter : ∀ sync boxed, EndsAlike R (Entered R) (enter sync boxed).run (enter' sync boxed).run)
    (h : HeldAlike R holders holders') (uses : List Use) :
    EndsAlike R Eq (serve enter holders uses) (serve enter' holders' uses) := by
  -- by the uses: each leaves related states, and logs that do the same in the hands of its users
  induction uses generalizing holders holders' with
  | nil => exact endsAlike_pure rfl
  | cons use uses ih =>
    refine (endsAlike_use henter h use).bind ?_
    rintro ⟨answer, holders⟩ ⟨-, holders'⟩ ⟨rfl, hheld⟩
    refine (ih hheld).bind ?_
    rintro answers - rfl
    exact endsAlike_pure rfl

end

/-! ## The file and the memory -/

/-- Whoever opens the log in memory is given the same log. -/
def Log.enterMemory (_ : SyncPolicy) (_ : Bool) :
    ExceptT Error (StateM Bytes) (Log (StateM Bytes)) :=
  return memory

namespace LogFile

/-- Opens the log in the file of a path. -/
def enter (p : Path) (sync : SyncPolicy) (boxed : Bool) :
    ExceptT Error (StateM FileSystem) (Log (StateM FileSystem)) := do
  let file ← LogFile.open p sync
  return if boxed then file.log.boxed else file.log

/-- The bytes of a file, held in memory. -/
def Mirrors (p : Path) (fs : FileSystem) (content : Bytes) : Prop :=
  fs.read p = .ok content

/-- **The log in a file does what the log in memory does.** -/
theorem alike_memory (file : LogFile) :
    (file.log : Log (StateM FileSystem)).Alike (Mirrors file.path) .memory where
  extend bytes := by
    intro fs content hread
    obtain ⟨place, hopen⟩ := FileSystem.read_eq_ok_iff.mp hread
    have hextend := file.run_log_extend bytes fs
    rw [FileSystem.append_eq_ok_iff.mpr ⟨place, content, hopen, rfl⟩] at hextend
    exact ⟨_, _, _, _, hextend, rfl, rfl,
      FileSystem.read_of_openFile (FileSystem.openFile_put_file hopen _)⟩
  contents := by
    intro fs content hread
    have hcontents := file.run_log_contents fs
    rw [hread] at hcontents
    exact ⟨_, _, _, _, hcontents, rfl, rfl, hread⟩

variable {fs fs₁ : FileSystem} {p : Path}

theorem run_enter (h : fs.Opens p fs₁) (sync : SyncPolicy) (boxed : Bool) :
    ∃ log : Log (StateM FileSystem), (enter p sync boxed).run.run fs = (.ok log, fs₁) ∧
      log.Alike (Mirrors p) .memory := by
  have hopen := run_open h sync
  rw [enter, run_bind_of_ok hopen]
  cases boxed with
  | true => exact ⟨_, rfl, (alike_memory { path := p, sync }).boxed⟩
  | false => exact ⟨_, rfl, alike_memory { path := p, sync }⟩

theorem entered_memory (sync : SyncPolicy) (boxed : Bool) :
    EndsAlike (Mirrors p) (Entered (Mirrors p)) (enter p sync boxed).run
      (Log.enterMemory sync boxed).run := by
  intro fs content hread
  obtain ⟨place, hopen⟩ := FileSystem.read_eq_ok_iff.mp hread
  obtain ⟨log, hrun, hlog⟩ := run_enter (FileSystem.opens_of_openFile hopen) sync boxed
  exact ⟨_, _, _, _, hrun, rfl, ⟨log, .memory, rfl, rfl, hlog⟩, hread⟩

/-- **The users of a file share one log.**  Whatever they do, in any order, each of them is answered
as if all used one log in memory that held at first what the file held, or nothing if there was no
file; and after any number of uses the file holds what that log holds. -/
theorem users_share_one_log (h : fs.Opens p fs₁) :
    ∃ place initial, fs₁.openFile p = .ok (place, initial) ∧
      (fs.node? place = some (.file initial) ∨ fs.node? place = none ∧ initial = []) ∧
      ∀ (user : Nat) (sync : SyncPolicy) (boxed : Bool) (uses : List Use),
        ∃ answers fs' content,
          (serve (enter p) (fun _ => none) (.enter user sync boxed :: uses)).run fs =
            (answers, fs') ∧
          (serve Log.enterMemory (fun _ => none) (.enter user sync boxed :: uses)).run initial =
            (answers, content) ∧
          fs'.read p = .ok content := by
  obtain ⟨place, initial, hopen, hinitial⟩ := FileSystem.openFile_of_opens h
  refine ⟨place, initial, hopen, hinitial, ?_⟩
  intro user sync boxed uses
  obtain ⟨log, hrun, hlog⟩ := run_enter h sync boxed
  have hheld : HeldAlike (Mirrors p) (Function.update (fun _ => none) user (some log))
      (Function.update (fun _ => none) user (some .memory)) :=
    HeldAlike.update (fun _ => .none) user hlog
  obtain ⟨answers, answers', fs', content, hfile, hmemory, rfl, hread⟩ :=
    endsAlike_serve entered_memory hheld uses fs₁ initial (FileSystem.read_of_openFile hopen)
  refine ⟨some (.ok .done) :: answers, fs', content, ?_, ?_, hread⟩
  · rw [run_serve_enter hrun, hfile]
    rfl
  · have hmemory' : (Log.enterMemory sync boxed).run.run initial = (.ok .memory, initial) := rfl
    rw [run_serve_enter hmemory', hmemory]
    rfl

/-- Two users of a file that was not there, of whom the first opens it again. -/
theorem users_share_one_log_reopened : ∃ (uses : List Use)
    (answers : List (Option (Except Error Answer))) (fs' : FileSystem) (content : Bytes),
    uses = [.enter 0 .eachAppend true, .enter 1 .deferred false,
      .ask 0 (.append (.ofList [("a", "b")])), .ask 1 (.append (.ofList [("_", "c")])),
      .ask 1 (.extend (Utf8.encode "x")), .enter 0 .deferred false, .ask 0 .contents] ∧
    (serve (enter ⟨"log"⟩) (fun _ => none) uses).run ∅ = (answers, fs') ∧
    (serve Log.enterMemory (fun _ => none) uses).run [] = (answers, content) ∧
    content = Utf8.encode "\x7b\"a\":\"b\"\x7d\nx" ∧ fs'.read ⟨"log"⟩ = .ok content := by
  let uses : List Use := [.enter 1 .deferred false, .ask 0 (.append (.ofList [("a", "b")])),
    .ask 1 (.append (.ofList [("_", "c")])), .ask 1 (.extend (Utf8.encode "x")),
    .enter 0 .deferred false, .ask 0 .contents]
  let opened := (Disk.openForAppending (m := StateM FileSystem) ⟨"log"⟩).run.run ∅
  have hopened : opened.1 = .ok () := by decide +kernel
  have hopen : FileSystem.Opens ∅ ⟨"log"⟩ opened.2 := Prod.ext hopened rfl
  have hempty : opened.2.openFile ⟨"log"⟩ = .ok (["log"], []) := by decide +kernel
  obtain ⟨place, initial, hfile, -, hserve⟩ := users_share_one_log hopen
  obtain ⟨-, rfl⟩ := Prod.mk.inj (Except.ok.inj (hfile.symm.trans hempty))
  obtain ⟨answers, fs', content, hruns, hmemory, hread⟩ := hserve 0 .eachAppend true uses
  have hcontent : content = Utf8.encode "\x7b\"a\":\"b\"\x7d\nx" := by
    have hrun : content = _ := (congrArg Prod.snd hmemory).symm
    rw [hrun]
    decide +kernel
  exact ⟨_, answers, fs', content, rfl, hruns, hmemory, hcontent, hread⟩

end LogFile

end RecordLog
