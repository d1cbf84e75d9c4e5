import Mathlib.Data.List.Perm.Basic
import RecordLog.Proofs.Log.Layout

/-! # The history of a log

What was done to a log can be told from its bytes: the records that were written are found there,
in the order they were written in, each behind the bytes that were added since the one before.  A
record that was refused leaves no trace, and bytes added past the records are told apart from them
as long as no object begins there.

* `Action`, `Log.perform`: things done to a log one by one, whether or not those before failed.
* `Layout.after`: what an action makes of a layout.
* `run_action_memory`, `run_perform_memory`: the bytes of a log in memory stay laid out.
* `perform_memory`: what is found in a log after its history.
-/

namespace RecordLog

open Format

/-- Something done to a log. -/
inductive Action where
  /-- Writes a record. -/
  | append (r : Record)
  /-- Writes a record, and yields the bytes written. -/
  | write (r : Record)
  /-- Adds bytes in which no object begins. -/
  | extend (gap : Gap)

namespace Action

def run {m : Type → Type} [Monad m] (log : Log m) : Action → ExceptT Error m Unit
  | append r => log.append r
  | write r => discard (log.write r)
  | extend gap => log.extend gap.bytes

def record? : Action → Option Record
  | append r | write r => some r
  | extend _ => none

/-- The bytes added past any record. -/
def raw : Action → Bytes
  | append _ | write _ => []
  | extend gap => gap.bytes

end Action

/-- Does one thing after the other, whether or not those before failed, and yields the records whose
writing succeeded. -/
def Log.perform {m : Type → Type} [Monad m] (log : Log m) : List Action → m (List Record)
  | [] => return []
  | a :: actions => do
    match ← (a.run log).run with
    | .ok () => return a.record?.toList ++ (← log.perform actions)
    | .error _ => log.perform actions

section

variable {σ : Type} {log : Log (StateM σ)} {a : Action} {s s' : σ}

theorem Log.run_perform_cons_of_ok (h : (a.run log).run.run s = (.ok (), s'))
    (actions : List Action) : (log.perform (a :: actions)).run s =
      ((log.perform actions).run s').map (a.record?.toList ++ ·) id := by
  rw [perform, StateT.run_bind, h]
  rfl

theorem Log.run_perform_cons_of_error {e : Error} (h : (a.run log).run.run s = (.error e, s'))
    (actions : List Action) :
    (log.perform (a :: actions)).run s = (log.perform actions).run s' := by
  rw [perform, StateT.run_bind, h]
  rfl

end

/-! ## One action -/

namespace Action

/-- How an action ends where nothing else goes wrong: it fails if its record may not be written. -/
def outcome (a : Action) : Except Error Unit :=
  a.record?.elim (.ok ()) Record.validate

/-- The records that an action writes where nothing else goes wrong. -/
def written (a : Action) : List Record :=
  a.record?.toList.filter fun r => r.Valid

/-- The bytes that an action adds outside of records. -/
def between (a : Action) : Bytes :=
  a.written.map (fun _ => newline) ++ a.raw

theorem written_append_of_valid {r : Record} (h : r.Valid) : (append r).written = [r] :=
  List.filter_cons_of_pos (decide_eq_true h)

theorem written_append_of_not_valid {r : Record} (h : ¬ r.Valid) : (append r).written = [] :=
  List.filter_cons_of_neg (mt of_decide_eq_true h)

theorem written_of_outcome_ok {a : Action} (h : a.outcome = .ok ()) :
    a.written = a.record?.toList := by
  rw [written, List.filter_eq_self]
  intro r hr
  rw [outcome, Option.mem_toList.mp hr] at h
  exact decide_eq_true (Record.validate_eq_ok_iff.mp h)

theorem written_of_outcome_error {a : Action} {e : Error} (h : a.outcome = .error e) :
    a.written = [] := by
  rw [written, List.filter_eq_nil_iff]
  intro r hr hvalid
  have hok : r.validate = .ok () := Record.validate_eq_ok_iff.mpr (of_decide_eq_true hvalid)
  rw [outcome, Option.mem_toList.mp hr, Option.elim_some, hok] at h
  cases h

theorem flatMap_written (actions : List Action) :
    actions.flatMap written = (actions.filterMap record?).filter fun r => r.Valid := by
  rw [List.filterMap_eq_flatMap_toList, List.filter_flatMap]
  rfl

end Action

namespace Layout

/-- A layout with a line behind it, if the record may be written. -/
def line (l : Layout) (r : Record) : Layout :=
  if h : r.Valid then
    { entries := l.entries ++ [{ gap := l.rest, record := r, valid := h }], rest := .lineEnd }
  else l

/-- What an action makes of a layout. -/
def after (l : Layout) : Action → Layout
  | .append r | .write r => l.line r
  | .extend gap => { l with rest := l.rest.append gap }

theorem line_of_valid {r : Record} (h : r.Valid) (l : Layout) :
    l.line r = ⟨l.entries ++ [⟨l.rest, r, h⟩], .lineEnd⟩ :=
  dif_pos h

theorem line_of_not_valid {r : Record} (h : ¬ r.Valid) (l : Layout) : l.line r = l :=
  dif_neg h

theorem bytes_line_of_valid {r : Record} (h : r.Valid) (l : Layout) :
    (l.line r).bytes = l.bytes ++ (r.toObject ++ [newline]) := by
  rw [line_of_valid h, bytes, List.flatMap_append, List.flatMap_singleton, Entry.bytes, bytes]
  simp only [List.append_assoc]
  rfl

theorem run_append_memory (l : Layout) (r : Record) :
    (Log.memory.append r).run.run l.bytes = (r.validate, (l.line r).bytes) := by
  cases h : r.validate with
  | ok u =>
    have hr := Record.validate_eq_ok_iff.mp h
    rw [Log.run_append_memory hr, bytes_line_of_valid hr]
  | error e =>
    have hr : ¬ r.Valid := fun hr => nomatch h.symm.trans (Record.validate_eq_ok_iff.mpr hr)
    have hencode : r.encode = .error e := by
      rw [Record.encode, h]
      rfl
    rw [Log.run_append_of_encode_eq_error hencode, line_of_not_valid hr]

/-- **An action keeps the bytes of a log in memory laid out.** -/
theorem run_action_memory (l : Layout) (a : Action) :
    (a.run Log.memory).run.run l.bytes = (a.outcome, (l.after a).bytes) := by
  cases a with
  | append r => exact l.run_append_memory r
  | write r => exact l.run_append_memory r
  | extend gap =>
    have hbytes : (l.after (.extend gap)).bytes = l.bytes ++ gap.bytes :=
      (List.append_assoc _ _ _).symm
    rw [hbytes]
    rfl

theorem map_record_after (l : Layout) (a : Action) :
    (l.after a).entries.map Entry.record = l.entries.map Entry.record ++ a.written := by
  have hline (r : Record) : (l.line r).entries.map Entry.record =
      l.entries.map Entry.record ++ (Action.append r).written := by
    by_cases h : r.Valid
    · rw [line_of_valid h, Action.written_append_of_valid h, List.map_append]
      rfl
    · rw [line_of_not_valid h, Action.written_append_of_not_valid h, List.append_nil]
  cases a with
  | append r => exact hline r
  | write r => exact hline r
  | extend gap => exact (List.append_nil _).symm

theorem outside_after (l : Layout) (a : Action) :
    (l.after a).outside = l.outside ++ a.between := by
  have hline (r : Record) : (l.line r).outside = l.outside ++ (Action.append r).between := by
    by_cases h : r.Valid
    · rw [line_of_valid h, Action.between, Action.written_append_of_valid h, outside, outside,
        List.flatMap_append, List.flatMap_singleton]
      rfl
    · rw [line_of_not_valid h, Action.between, Action.written_append_of_not_valid h]
      exact (List.append_nil _).symm
  cases a with
  | append r => exact hline r
  | write r => exact hline r
  | extend gap => exact (List.append_assoc _ _ _).symm

/-! ## One action after the other -/

/-- **Actions keep the bytes of a log in memory laid out**, and those that succeed are those that
write a record. -/
theorem run_perform_memory (l : Layout) (actions : List Action) :
    (Log.memory.perform actions).run l.bytes =
      (actions.flatMap Action.written, (actions.foldl after l).bytes) := by
  induction actions generalizing l with
  | nil => rfl
  | cons a actions ih =>
    have hrun := l.run_action_memory a
    cases houtcome : a.outcome with
    | ok u =>
      rw [houtcome] at hrun
      rw [Log.run_perform_cons_of_ok hrun, ih, List.flatMap_cons,
        Action.written_of_outcome_ok houtcome]
      rfl
    | error e =>
      rw [houtcome] at hrun
      rw [Log.run_perform_cons_of_error hrun, ih, List.flatMap_cons,
        Action.written_of_outcome_error houtcome]
      rfl

theorem foldl_after {α : Type} {f : Layout → List α} {added : Action → List α}
    (h : ∀ l a, f (l.after a) = f l ++ added a) (l : Layout) (actions : List Action) :
    f (actions.foldl after l) = f l ++ actions.flatMap added := by
  induction actions generalizing l with
  | nil => exact (List.append_nil _).symm
  | cons a actions ih => rw [List.foldl_cons, ih, h, List.flatMap_cons, List.append_assoc]

/-- What actions make of a log that began with a gap. -/
def history (seed : Gap) (actions : List Action) : Layout :=
  actions.foldl after { entries := [], rest := seed }

theorem map_record_history (seed : Gap) (actions : List Action) :
    (history seed actions).entries.map Entry.record = actions.flatMap Action.written :=
  foldl_after (f := fun l => l.entries.map Entry.record) map_record_after _ actions

theorem outside_history (seed : Gap) (actions : List Action) :
    (history seed actions).outside = seed.bytes ++ actions.flatMap Action.between :=
  foldl_after outside_after _ actions

end Layout

/-! ## What a history leaves -/

/-- Outside of records, actions add the line ends of the records written and their raw bytes. -/
theorem Action.between_perm (actions : List Action) : (actions.flatMap between).Perm
    ((actions.flatMap written).map (fun _ => newline) ++ actions.flatMap raw) := by
  rw [List.map_flatMap]
  exact (List.flatMap_append_perm actions _ raw).symm

theorem garbage_map_newline (written : List Record) :
    garbage (written.map fun _ => newline) = 0 := by
  rw [garbage, List.countP_map, List.countP_eq_zero]
  intro r _
  show ¬ (!isBlank newline) = true
  decide

namespace Layout

theorem length_outside_history (seed : Gap) (actions : List Action) :
    (history seed actions).outside.length = (seed.bytes ++ actions.flatMap Action.raw).length +
      (history seed actions).entries.length := by
  have hwritten : (actions.flatMap Action.written).length =
      (history seed actions).entries.length := by
    rw [← map_record_history seed, List.length_map]
  have hperm := (Action.between_perm actions).append_left seed.bytes
  rw [outside_history, hperm.length_eq]
  simp only [List.length_append, List.length_map, hwritten]
  omega

theorem garbage_outside_history (seed : Gap) (actions : List Action) :
    garbage (history seed actions).outside =
      garbage (seed.bytes ++ actions.flatMap Action.raw) := by
  have hperm := (Action.between_perm actions).append_left seed.bytes
  rw [outside_history, garbage, hperm.countP_eq, ← garbage, garbage_append, garbage_append,
    garbage_map_newline, garbage_append, Nat.zero_add]

/-- **The statistics of a log after its history**: the bytes added are those of the lines and the
raw ones, and the raw ones are garbage unless they are blank. -/
theorem ofBuffer_history (seed : Gap) (actions : List Action) :
    Statistics.ofBuffer (history seed actions).bytes =
      { records := (history seed actions).entries.length
        totalBytes := (seed.bytes ++ actions.flatMap Action.raw).length +
          (linesOf ((history seed actions).entries.map Entry.record)).length
        recordBytes := ((history seed actions).entries.flatMap fun e => e.record.toObject).length
        garbageBytes := garbage (seed.bytes ++ actions.flatMap Action.raw) } := by
  rw [ofBuffer_bytes, length_outside_history, garbage_outside_history, length_linesOf,
    List.flatMap_map, List.length_map, Nat.add_left_comm]
  rfl

end Layout

/-- **What is found in a log in memory after its history.**  The log began with a gap, and then
records were written to it and gaps were added, in any order.  Writing succeeds for those records
that may be written.  The bytes are these records, in order and each behind a gap, and these are the
records found.  Outside of them there are the line ends, what the log began with, and the gaps
added. -/
theorem Log.perform_memory (seed : Gap) (actions : List Action) : ∃ l : Layout,
    (Log.memory.perform actions).run seed.bytes = (l.entries.map Layout.Entry.record, l.bytes) ∧
    l.entries.map Layout.Entry.record =
      ((actions.filterMap Action.record?).filter fun r => r.Valid) ∧
    (∀ e ∈ l.entries, e.record.encode = .ok e.record.toObject) ∧
    Log.memory.allRecords.run.run l.bytes =
      (.ok (l.entries.map fun e => e.found.record), l.bytes) ∧
    (∀ keep, (Log.memory.scan keep).run.run l.bytes =
      (.ok { records := (l.entries.map fun e => e.found.record).filter keep
             scanned := l.entries.length }, l.bytes)) ∧
    Log.memory.statistics.run.run l.bytes =
      (.ok { records := l.entries.length
             totalBytes := (seed.bytes ++ actions.flatMap Action.raw).length +
               (linesOf (l.entries.map Layout.Entry.record)).length
             recordBytes := (l.entries.flatMap fun e => e.record.toObject).length
             garbageBytes := garbage (seed.bytes ++ actions.flatMap Action.raw) }, l.bytes) := by
  let l := Layout.history seed actions
  have hrun : (Log.memory.perform actions).run seed.bytes = (_, l.bytes) :=
    Layout.run_perform_memory { entries := [], rest := seed } actions
  have hfound : (records l.bytes).map Located.record = l.entries.map fun e => e.found.record := by
    rw [l.records_bytes, List.map_map]
    rfl
  refine ⟨l, ?_, ?_, ?_, ?_, ?_, ?_⟩
  · rw [hrun, Layout.map_record_history]
  · rw [Layout.map_record_history, Action.flatMap_written]
  · intro e _
    exact Record.encode_eq_ok_iff.mpr ⟨e.valid, rfl⟩
  · rw [Log.run_allRecords_memory, hfound]
  · intro keep
    rw [Log.run_scan (Log.run_contents_memory l.bytes), ScanReport.ofBuffer, hfound,
      List.length_map]
  · rw [Log.run_statistics (Log.run_contents_memory l.bytes), Layout.ofBuffer_history]

end RecordLog
