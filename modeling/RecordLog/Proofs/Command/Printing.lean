import RecordLog.Command.Run
import RecordLog.Proofs.Log.Runs

/-! # What a command does besides printing

A command prints and works with files.  What it does with files it does as if there were nothing to
print to, so the laws of logs and files hold of it as they are.

* `Quiet`: a program that prints nothing, and the program without printing that it is.
* `quiet_openForAppending`, `quiet_log`: opening a file, and the log in a file.
* `run_bind_of_ok`, `run_bind_of_error`, `run_printLine`: how a command goes on.
-/

namespace RecordLog.Command

/-! ## Printing nothing -/

section

variable {m : Type → Type} [Monad m] {ε : Type} {α β : Type}

/-- A program that prints nothing, and the program without printing that it is. -/
def Quiet (x : ExceptT ε (PrintingT m) α) (y : ExceptT ε m α) : Prop :=
  ∀ out : String, x.run.run out = (·, out) <$> y.run

variable [LawfulMonad m] {x : ExceptT ε (PrintingT m) α} {y : ExceptT ε m α}

theorem quiet_pure (a : α) : Quiet (pure a : ExceptT ε (PrintingT m) α) (pure a) := by
  intro out
  rw [ExceptT.run_pure, ExceptT.run_pure, StateT.run_pure, map_pure]

theorem quiet_throw (e : ε) : Quiet (throw e : ExceptT ε (PrintingT m) α) (throw e) := by
  intro out
  rw [ExceptT.run_throw, ExceptT.run_throw, StateT.run_pure, map_pure]

theorem quiet_lift (z : m (Except ε α)) :
    Quiet (ExceptT.mk (liftM z) : ExceptT ε (PrintingT m) α) (ExceptT.mk z) := by
  intro out
  rw [ExceptT.run_mk, ExceptT.run_mk, map_eq_pure_bind]
  rfl

theorem quiet_liftM (z : m α) :
    Quiet (ε := ε) (liftM (liftM z : PrintingT m α) : ExceptT ε (PrintingT m) α)
      (liftM z : ExceptT ε m α) := by
  intro out
  have hlift : (liftM z : PrintingT m α).run out = (·, out) <$> z := by
    rw [map_eq_pure_bind]
    rfl
  show (Except.ok <$> (liftM z : PrintingT m α)).run out = (·, out) <$> Except.ok <$> z
  rw [StateT.run_map, hlift, Functor.map_map, Functor.map_map]

theorem Quiet.bind {f : α → ExceptT ε (PrintingT m) β} {g : α → ExceptT ε m β} (h : Quiet x y)
    (hf : ∀ a, Quiet (f a) (g a)) : Quiet (x >>= f) (y >>= g) := by
  intro out
  rw [ExceptT.run_bind, StateT.run_bind, h out, bind_map_left, ExceptT.run_bind, map_bind]
  congr 1
  funext result
  cases result with
  | ok a => exact hf a out
  | error e => rw [StateT.run_pure, map_pure]

theorem Quiet.tryCatch {f : ε → ExceptT ε (PrintingT m) α} {g : ε → ExceptT ε m α} (h : Quiet x y)
    (hf : ∀ e, Quiet (f e) (g e)) : Quiet (tryCatch x f) (tryCatch y g) := by
  intro out
  rw [ExceptT.run_tryCatch, StateT.run_bind, h out, bind_map_left, ExceptT.run_tryCatch, map_bind]
  congr 1
  funext result
  cases result with
  | ok a => rw [StateT.run_pure, map_pure]
  | error e => exact hf e out

theorem Quiet.adapt {ε' : Type} (f : ε → ε') (h : Quiet x y) :
    Quiet (ExceptT.adapt f x) (ExceptT.adapt f y) := by
  intro out
  show StateT.run (Except.mapError f <$> x.run) out = (·, out) <$> Except.mapError f <$> y.run
  rw [StateT.run_map, h out, Functor.map_map, Functor.map_map]

theorem Quiet.map (f : α → β) (h : Quiet x y) : Quiet (f <$> x) (f <$> y) := by
  rw [map_eq_pure_bind, map_eq_pure_bind]
  exact h.bind fun a => quiet_pure (f a)

theorem quiet_ofExcept (z : Except ε α) :
    Quiet (liftM z : ExceptT ε (PrintingT m) α) (liftM z) := by
  cases z with
  | ok a => exact quiet_pure a
  | error e => exact quiet_throw e

end

/-! ## Files and logs -/

section

variable {m : Type → Type} [Monad m] [LawfulMonad m] [Disk m]

theorem quiet_orDirectory (p : Path) (e : IoError) :
    Quiet (Disk.orDirectory (m := PrintingT m) p e) (Disk.orDirectory (m := m) p e) := by
  refine Quiet.bind (quiet_liftM (Disk.isDirectory (m := m) p)) fun directory => ?_
  cases directory with
  | true => exact quiet_pure ()
  | false => exact quiet_throw e

theorem quiet_makeDirectories (dirs : List Path) :
    Quiet (Disk.makeDirectories (m := PrintingT m) dirs) (Disk.makeDirectories (m := m) dirs) := by
  induction dirs with
  | nil => exact quiet_pure ()
  | cons p above ih =>
    have hmake : Quiet (Disk.makeDirectory (m := PrintingT m) p) (Disk.makeDirectory (m := m) p) :=
      quiet_lift _
    rw [Disk.makeDirectories, Disk.makeDirectories]
    refine hmake.tryCatch fun e => ?_
    cases e with
    | notFound => exact ih.bind fun _ => hmake.tryCatch fun e => quiet_orDirectory p e
    | _ => exact quiet_orDirectory p _

theorem quiet_openForAppending (p : Path) :
    Quiet (Disk.openForAppending (m := PrintingT m) p) (Disk.openForAppending (m := m) p) :=
  (quiet_makeDirectories p.ancestors).bind fun _ => quiet_lift _

theorem quiet_open (p : Path) (sync : SyncPolicy) :
    Quiet (LogFile.open (m := PrintingT m) p sync) (LogFile.open (m := m) p sync) :=
  ((quiet_openForAppending p).adapt Error.io).bind fun _ => quiet_pure (LogFile.mk p sync)

end

/-! ## Logs -/

section

variable {m : Type → Type} [Monad m] {log : Log (PrintingT m)} {base : Log m}

/-- A log that prints nothing, and the log without printing that it is. -/
structure QuietLog (log : Log (PrintingT m)) (base : Log m) : Prop where
  extend (bytes : Bytes) : Quiet (log.extend bytes) (base.extend bytes)
  contents : Quiet log.contents base.contents

namespace QuietLog

variable [LawfulMonad m]

theorem write (h : QuietLog log base) (r : Record) : Quiet (log.write r) (base.write r) :=
  (quiet_ofExcept r.encode).bind fun object =>
    (h.extend (object ++ [Format.newline])).bind fun _ => quiet_pure _

theorem scan (h : QuietLog log base) (keep : Record → Bool) :
    Quiet (log.scan keep) (base.scan keep) :=
  h.contents.map (ScanReport.ofBuffer keep)

theorem statistics (h : QuietLog log base) : Quiet log.statistics base.statistics :=
  h.contents.map Statistics.ofBuffer

end QuietLog

theorem quiet_log [LawfulMonad m] [Disk m] (file : LogFile) :
    QuietLog (file.log : Log (PrintingT m)) (file.log : Log m) where
  extend bytes :=
    (quiet_lift (Disk.append (m := m) file.path file.sync bytes).run).adapt Error.io
  contents := (quiet_lift (Disk.read (m := m) file.path).run).adapt Error.io

end

/-! ## Runs -/

section

variable {σ α β : Type} {s s' : σ} {out out' : String}
  {x : ExceptT Error (PrintingT (StateM σ)) α}

theorem Quiet.run {y : ExceptT Error (StateM σ) α} {result : Except Error α} (h : Quiet x y)
    (hy : y.run.run s = (result, s')) (out : String) :
    (x.run.run out).run s = ((result, out), s') := by
  rw [h out, StateT.run_map, hy]
  rfl

theorem run_bind_of_ok {a : α} (h : (x.run.run out).run s = ((.ok a, out'), s'))
    (f : α → ExceptT Error (PrintingT (StateM σ)) β) :
    ((x >>= f).run.run out).run s = ((f a).run.run out').run s' := by
  rw [ExceptT.run_bind, StateT.run_bind, StateT.run_bind, h]
  rfl

theorem run_bind_of_error {e : Error} (h : (x.run.run out).run s = ((.error e, out'), s'))
    (f : α → ExceptT Error (PrintingT (StateM σ)) β) :
    ((x >>= f).run.run out).run s = ((.error e, out'), s') := by
  rw [ExceptT.run_bind, StateT.run_bind, StateT.run_bind, h]
  rfl

theorem run_print (text out : String) (s : σ) :
    ((print (m := StateM σ) text).run.run out).run s = ((.ok (), out ++ text), s) :=
  rfl

theorem run_printLine (text out : String) (s : σ) :
    ((printLine (m := StateM σ) text).run.run out).run s = ((.ok (), out ++ (text ++ "\n")), s) :=
  rfl

end

end RecordLog.Command
