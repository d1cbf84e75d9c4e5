import RecordLog.Proofs.Format.Spacing
import RecordLog.Proofs.Log.Account

/-! # The normal form of a log

Whatever a log holds, the records found in it may be written again.  Written as lines and nothing
else, they are a log with the same records and no garbage, and writing that log's records again
changes nothing.

* `Record.valid_of_mem_records`: every record that is found may be written.
* `normalForm`, `normalForm_eq`: the records of a buffer as lines.
* `garbageBytes_linesOf`: lines hold no garbage.
* `normalForm_linesOf`: lines are their own normal form.
-/

namespace RecordLog

open Format

/-- The records of a buffer, each written again as a line. -/
def normalForm (buffer : Bytes) : Except Error Bytes := do
  let objects ← (records buffer).mapM fun found => found.record.encode
  return objects.flatMap (· ++ [newline])

/-! ## Found records may be written -/

theorem mem_keys_fieldsOf {ms : List RawMember} {name : String} (h : name ∈ (fieldsOf ms).keys) :
    ∃ m ∈ ms, Utf8.decodeLossy m.1 = name := by
  rw [Std.ExtTreeMap.mem_keys, ← ofList_map_fieldOf, Std.ExtTreeMap.mem_ofList, List.map_map,
    List.contains_iff_mem, List.mem_map] at h
  exact h

theorem Located.valid_of_find? {bytes : Bytes} {found : Located} (h : find? bytes = some found) :
    found.record.Valid := by
  obtain ⟨gap, written, rest, ms, -, -, hw, rfl⟩ := exists_of_find?_eq_some h
  intro name hname
  obtain ⟨m, hm, rfl⟩ := mem_keys_fieldsOf hname
  exact hw m hm

/-- **Every record that is found may be written.** -/
theorem Located.valid_of_mem_records {buffer : Bytes} {found : Located}
    (h : found ∈ records buffer) : found.record.Valid :=
  forall_mem_records valid_of_find? buffer found h

theorem valid_of_mem_map_record {buffer : Bytes} {r : Record}
    (h : r ∈ (records buffer).map Located.record) : r.Valid := by
  obtain ⟨found, hfound, rfl⟩ := List.mem_map.mp h
  exact Located.valid_of_mem_records hfound

/-! ## Records as lines -/

theorem mapM_encode {rs : List Record} (h : ∀ r ∈ rs, r.Valid) :
    rs.mapM Record.encode = .ok (rs.map Record.toObject) := by
  induction rs with
  | nil => rfl
  | cons r rs ih =>
    obtain ⟨hr, hrs⟩ := List.forall_mem_cons.mp h
    rw [List.mapM_cons, Record.encode_eq_ok_iff.mpr ⟨hr, rfl⟩, ih hrs]
    rfl

/-- **The normal form of a buffer is the lines of its records.** -/
theorem normalForm_eq (buffer : Bytes) :
    normalForm buffer = .ok (linesOf ((records buffer).map Located.record)) := by
  have hencode : (records buffer).mapM (fun found => found.record.encode) =
      .ok (((records buffer).map Located.record).map Record.toObject) := by
    rw [← mapM_encode fun r => valid_of_mem_map_record, List.mapM_map]
    rfl
  rw [normalForm, hencode, linesOf]
  show Except.ok _ = Except.ok _
  rw [List.flatMap_map]

theorem isText_linesOf (rs : List Record) : IsText (linesOf rs) :=
  isText_flatMap fun r _ => (isText_object r.toList).append (isText_ascii (by decide))

theorem garbageBytes_append_linesOf {rs : List Record} (h : ∀ r ∈ rs, r.Valid) (gap : Gap)
    (hgap : garbage gap.bytes = 0) :
    (Statistics.ofBuffer (gap.bytes ++ linesOf rs)).garbageBytes = 0 := by
  induction rs generalizing gap with
  | nil =>
    rw [linesOf, List.flatMap_nil, List.append_nil,
      Statistics.ofBuffer_of_find?_eq_none (find?_of_not_mem gap.plain)]
    exact hgap
  | cons r rs ih =>
    obtain ⟨hr, hrs⟩ := List.forall_mem_cons.mp h
    let entry : Layout.Entry := { gap, record := r, valid := hr }
    have hlines : gap.bytes ++ linesOf (r :: rs) =
        entry.bytes ++ (Gap.lineEnd.bytes ++ linesOf rs) := by
      rw [linesOf_cons, ← List.append_assoc]
      rfl
    rw [hlines, entry.ofBuffer_append]
    show (Statistics.ofBuffer (Gap.lineEnd.bytes ++ linesOf rs)).garbageBytes +
      garbage gap.bytes = 0
    rw [ih hrs Gap.lineEnd (by decide), hgap]

theorem garbageBytes_linesOf {rs : List Record} (h : ∀ r ∈ rs, r.Valid) :
    (Statistics.ofBuffer (linesOf rs)).garbageBytes = 0 :=
  garbageBytes_append_linesOf h { bytes := [], plain := List.not_mem_nil } rfl

/-- **Lines are their own normal form.** -/
theorem normalForm_linesOf {rs : List Record} (h : ∀ r ∈ rs, r.Valid) :
    normalForm (linesOf rs) = .ok (linesOf rs) := by
  rw [normalForm_eq]
  refine congrArg Except.ok (linesOf_congr ?_)
  rw [List.map_map]
  exact map_fields_records_linesOf h

end RecordLog
