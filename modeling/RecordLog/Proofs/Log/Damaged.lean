import RecordLog.Proofs.Log.Lines
import RecordLog.Proofs.Search.Growth

/-! # Records written to a damaged log

A log may have been cut off anywhere, so that the bytes of the next record are read as the rest of
an object begun before.  That object never comes to its end, unless the new record's first name
looks like what may follow a text.

* `Record.Guarded`: the first name of a record does not look like what may follow a text.
* `bars_linesOf`: the lines of guarded records bar.
* `allRecords_forM_append`: whatever a log holds, its records stay, and guarded records written to
  it come behind them.
-/

namespace RecordLog

open Format

/-- The first byte of the smallest name, in the order of bytes, may not follow a text. -/
def Record.Guarded (r : Record) : Prop :=
  ∀ name ∈ r.fields.keys, (∀ other ∈ r.fields.keys, Utf8.encode name ≤ Utf8.encode other) →
    ∀ b ∈ (Utf8.encode name).head?, ¬ MayFollowText b

instance (r : Record) : Decidable r.Guarded :=
  inferInstanceAs (Decidable (∀ _ ∈ _, _))

/-! ## Lines bar -/

theorem Record.encode_le_of_toList_eq {r : Record} {field : String × String}
    {fields : List (String × String)} (h : r.toList = field :: fields) {other : String}
    (hother : other ∈ r.fields.keys) : Utf8.encode field.1 ≤ Utf8.encode other := by
  have hordered := r.pairwise_keys
  have hkeys : r.fields.keys = field.1 :: fields.map Prod.fst := by
    rw [← Std.ExtTreeMap.map_fst_toList_eq_keys]
    exact congrArg (List.map Prod.fst) h
  rw [hkeys] at hordered hother
  rcases List.mem_cons.mp hother with rfl | hmem
  · exact List.le_refl _
  · exact List.lt_asymm (List.rel_of_pairwise_cons hordered hmem)

theorem Record.Guarded.bars {r : Record} (h : r.Guarded) {more : Bytes} (hmore : Bars more) :
    Bars (r.toObject ++ newline :: more) := by
  rw [Record.toObject]
  cases hfields : r.toList with
  | nil => exact bars_object_nil_append (by decide) (by decide) hmore
  | cons field fields =>
    have hmem : field.1 ∈ r.fields.keys := by
      rw [← Std.ExtTreeMap.map_fst_toList_eq_keys]
      exact List.mem_map_of_mem (by rw [← Record.toList, hfields]; exact List.mem_cons_self)
    exact bars_object_append
      (h field.1 hmem fun _ hother => Record.encode_le_of_toList_eq hfields hother) _

/-- **The lines of guarded records bar.** -/
theorem bars_linesOf {rs : List Record} (h : ∀ r ∈ rs, r.Guarded) : Bars (linesOf rs) := by
  induction rs with
  | nil => exact bars_nil
  | cons r rs ih =>
    obtain ⟨hr, hrs⟩ := List.forall_mem_cons.mp h
    rw [linesOf_cons]
    exact hr.bars (ih hrs)

/-! ## Writing to a damaged log -/

/-- **Whatever a log holds, its records stay, and guarded records written to it come behind them.**
The log may end within an object, a text or an escape. -/
theorem Log.allRecords_forM_append (buffer : Bytes) {rs : List Record}
    (h : ∀ r ∈ rs, r.Valid ∧ r.Guarded) :
    ∃ (found added : List Record) (buffer' : Bytes),
      Log.memory.allRecords.run.run buffer = (.ok found, buffer) ∧
      (rs.forM Log.memory.append).run.run buffer = (.ok (), buffer') ∧
      Log.memory.allRecords.run.run buffer' = (.ok (found ++ added), buffer') ∧
      List.Forall₂ (fun r new => new.fields = r.fields ∧ ∃ written offset,
        r.encode = .ok written ∧ new.span = some { offset, length := written.length }) rs added := by
  have hvalid : ∀ r ∈ rs, r.Valid := fun r hr => (h r hr).1
  have hbars : Bars (linesOf rs) := bars_linesOf fun r hr => (h r hr).2
  let skipped := buffer.length - covered buffer
  have hlines := WrittenAs.shiftFirst skipped (records_linesOf hvalid)
  refine ⟨_, (shiftFirst skipped (records (linesOf rs))).map Located.record, _,
    Log.run_allRecords_memory buffer, Log.run_forM_append_memory hvalid buffer, ?_, ?_⟩
  · rw [Log.run_allRecords_memory, records_append hbars, List.map_append]
  · refine List.forall₂_map_right_iff.mpr (hlines.imp fun r new h => ?_)
    obtain ⟨hfields, written, hwritten, hlength⟩ := h
    refine ⟨hfields, written, new.span.offset, hwritten, ?_⟩
    rw [Located.record, ← hlength]

/-- Behind an object cut off within an escape, an empty record and a record with a value that looks
like the end of an object. -/
theorem Log.allRecords_forM_append_torn :
    ∃ (found added : List Record) (buffer' : Bytes),
      Log.memory.allRecords.run.run [openBrace, quote, backslash] =
        (.ok found, [openBrace, quote, backslash]) ∧
      (List.forM [∅, Record.ofList [("user", "\x7d\"")]] Log.memory.append).run.run
        [openBrace, quote, backslash] = (.ok (), buffer') ∧
      Log.memory.allRecords.run.run buffer' = (.ok (found ++ added), buffer') ∧
      List.Forall₂ (fun r new => new.fields = r.fields ∧ ∃ written offset,
        r.encode = .ok written ∧ new.span = some { offset, length := written.length })
        [∅, Record.ofList [("user", "\x7d\"")]] added :=
  Log.allRecords_forM_append [openBrace, quote, backslash] (by decide +kernel)

end RecordLog
