import RecordLog.Proofs.Format.Written
import RecordLog.Proofs.Record
import RecordLog.Proofs.Search.Steps
import RecordLog.Text.Utf8.RoundTrip

/-! # A written record is found again

* `fieldsOf_encoded`: the members of a written object are its fields.
* `find?_toObject_append`: bytes that begin with a written record have it as their first.
* `decodeAt_encode`: a written record is found in any surroundings.
-/

namespace RecordLog

open Format

theorem fieldsOf_encoded (fields : List (String × String)) :
    fieldsOf (fields.map encoded) = .ofList fields := by
  rw [Std.ExtTreeMap.ofList_eq_foldl, fieldsOf, List.foldl_map]
  simp only [encoded, Utf8.decodeLossy_encode]

theorem writable_encoded {fields : List (String × String)} :
    Writable (fields.map encoded) ↔ ∀ field ∈ fields, FieldName.Valid field.1 := by
  rw [Writable, List.forall_mem_map]
  simp only [encoded, Utf8.decodeLossy_encode]

theorem Record.Valid.writable {r : Record} (hr : r.Valid) : Writable (r.toList.map encoded) :=
  writable_encoded.mpr (Record.valid_iff.mp hr)

/-- **Bytes that begin with a written record have it as their first.** -/
theorem find?_toObject_append {r : Record} (hr : r.Valid) (rest : Bytes) :
    find? (r.toObject ++ rest) =
      some { fields := r.fields, span := { offset := 0, length := r.toObject.length } } := by
  have hobject : IsObject r.toObject (r.toList.map encoded) := isObject_object r.toList
  rw [find?_append_of_isObject hobject, if_pos hr.writable, fieldsOf_encoded, Record.toList,
    ofList_toList]

/-- **A written record is found again in any surroundings**: behind any bytes that are not looked
at, any bytes without an opening brace, and before any bytes whatever. -/
theorem decodeAt_encode {r : Record} (hr : r.Valid) (before : Bytes) {gap : Bytes}
    (hgap : openBrace ∉ gap) (rest : Bytes) :
    ∃ written, r.encode = .ok written ∧
      decodeAt (before ++ gap ++ written ++ rest) before.length =
        some { fields := r.fields, span := { offset := gap.length, length := written.length } } := by
  refine ⟨r.toObject, Record.encode_eq_ok_iff.mpr ⟨hr, rfl⟩, ?_⟩
  rw [decodeAt, List.append_assoc, List.append_assoc, List.drop_left,
    find?_append_of_not_mem hgap, find?_toObject_append hr]
  rfl

/-- A record whose value looks like one, behind an open text and a closing brace. -/
theorem decodeAt_encode_lookalike :
    (Record.ofList [("a\"", "\x7b\"b\":\"\\\"\x7d")]).Valid ∧ openBrace ∉ [quote, closeBrace] ∧
      ∃ written, (Record.ofList [("a\"", "\x7b\"b\":\"\\\"\x7d")]).encode = .ok written ∧
        decodeAt ([openBrace, quote] ++ [quote, closeBrace] ++ written ++ [backslash]) 2 =
          some { fields := (Record.ofList [("a\"", "\x7b\"b\":\"\\\"\x7d")]).fields,
                 span := { offset := 2, length := written.length } } :=
  have hr : (Record.ofList [("a\"", "\x7b\"b\":\"\\\"\x7d")]).Valid := by decide +kernel
  have hgap : openBrace ∉ [quote, closeBrace] := by decide
  ⟨hr, hgap, decodeAt_encode hr [openBrace, quote] hgap [backslash]⟩

end RecordLog
