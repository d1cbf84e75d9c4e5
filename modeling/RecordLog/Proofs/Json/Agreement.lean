import RecordLog.Proofs.Json.Lexing
import RecordLog.Proofs.Json.Misread

/-! # Where a log and JSON agree

A record stands in a log as the JSON of the same record, and each of the two is read by the other's
reader as that record, if no name or value has a character below U+0020.  With one such character
anywhere, none of this holds: JSON escapes it and a log does not, JSON does not let it stand as it
is, and a log reads the letters of the escape.

* `Record.toObject_eq_iff`: what is written to a log is JSON.
* `Record.ofJson?_toObject_iff`: JSON reads what is written to a log.
* `Record.decodeAt_toJson_iff`, `Record.decodeAt_toPrettyJson_iff`: a log reads JSON.
* `Record.agrees_with_json_iff`: all of this.
-/

namespace RecordLog.Record

open Format

variable {r : Record}

/-- What is written to a log, as a text. -/
def objectText (r : Record) : String :=
  String.ofList (objectBy Format.escapeChar {} r.toList)

theorem encode_objectText (r : Record) : Utf8.encode r.objectText = r.toObject :=
  (object_eq r.toList).symm

/-- **A log reads the JSON of a record as that record** if it has no characters below U+0020, and
only then. -/
theorem decodeAt_toJson_iff (hr : r.Valid) :
    (∃ found, decodeAt (Utf8.encode r.toJson) 0 = some found ∧ (found.record == r) = true) ↔
      r.Uncontrolled := by
  rw [toJson, Json.object_eq]
  exact find?_objectBy_iff hr Spacing.isBlank_none

/-- **A log reads the indented JSON of a record as that record** if it has no characters below
U+0020, and only then. -/
theorem decodeAt_toPrettyJson_iff (hr : r.Valid) :
    (∃ found, decodeAt (Utf8.encode r.toPrettyJson) 0 = some found ∧ (found.record == r) = true) ↔
      r.Uncontrolled := by
  obtain ⟨s, hs, hpretty⟩ := Json.exists_prettyObject_eq r.toList
  rw [toPrettyJson, hpretty]
  exact find?_objectBy_iff hr hs

/-- **JSON reads what is written of a record as that record** if it has no characters below U+0020,
and only then. -/
theorem ofJson?_toObject_iff :
    (∃ read, ofJson? r.objectText = some read ∧ (read == r) = true) ↔ r.Uncontrolled := by
  have hread (read : Record) : ofJson? r.objectText = some read ↔
      r.Uncontrolled ∧ read = { fields := r.fields } :=
    ofJson?_objectBy_iff Json.reads_escapeChar_log Spacing.isBlank_none
  constructor
  · rintro ⟨read, hsome, -⟩
    exact ((hread read).mp hsome).1
  · intro h
    exact ⟨_, (hread _).mpr ⟨h, rfl⟩, beq_iff.mpr rfl⟩

/-- **What is written of a record is its JSON** if it has no characters below U+0020, and only
then. -/
theorem toObject_eq_iff (hr : r.Valid) : r.toObject = Utf8.encode r.toJson ↔ r.Uncontrolled := by
  constructor
  · intro hjson
    have hfound := find?_toObject_append hr []
    rw [List.append_nil, hjson] at hfound
    exact (decodeAt_toJson_iff hr).mp ⟨_, hfound, beq_iff.mpr rfl⟩
  · intro h
    rw [← encode_objectText, objectText, toJson, Json.object_eq]
    have hesc {text : String} (htext : RecordLog.Uncontrolled text) :
        ∀ c ∈ text.toList, Format.escapeChar c = Json.escapeChar c :=
      fun c hc => (Json.escapeChar_of_le (htext c hc)).symm
    rw [objectBy_congr fun field hfield => ⟨hesc (h field hfield).1, hesc (h field hfield).2⟩]

/-- **A log and JSON agree on the records without control characters, and on no others.**  What is
written of a record that may be written is its JSON, JSON reads it as that record, and a log reads
the record's JSON as that record, on one line or indented: each of these holds exactly if no name or
value of the record has a character below U+0020. -/
theorem agrees_with_json_iff (hr : r.Valid) : ∃ (written : Bytes) (text : String),
    r.encode = .ok written ∧ Utf8.encode text = written ∧
    (written = Utf8.encode r.toJson ↔ r.Uncontrolled) ∧
    ((∃ read, ofJson? text = some read ∧ (read == r) = true) ↔ r.Uncontrolled) ∧
    ((∃ found, decodeAt (Utf8.encode r.toJson) 0 = some found ∧ (found.record == r) = true) ↔
      r.Uncontrolled) ∧
    ((∃ found, decodeAt (Utf8.encode r.toPrettyJson) 0 = some found ∧
      (found.record == r) = true) ↔ r.Uncontrolled) :=
  ⟨r.toObject, r.objectText, encode_eq_ok_iff.mpr ⟨hr, rfl⟩, encode_objectText r,
    toObject_eq_iff hr, ofJson?_toObject_iff, decodeAt_toJson_iff hr, decodeAt_toPrettyJson_iff hr⟩

/-- A tab in a value is enough to part the two. -/
theorem agrees_with_json_iff_tab : ∃ (r : Record) (written : Bytes) (text : String),
    r = ofList [("a\"", "\\"), ("b", "1\t2")] ∧ r.Valid ∧ ¬ r.Uncontrolled ∧
    r.encode = .ok written ∧ Utf8.encode text = written ∧ written ≠ Utf8.encode r.toJson ∧
    (¬ ∃ read, ofJson? text = some read ∧ (read == r) = true) ∧
    (¬ ∃ found, decodeAt (Utf8.encode r.toJson) 0 = some found ∧ (found.record == r) = true) ∧
    (¬ ∃ found, decodeAt (Utf8.encode r.toPrettyJson) 0 = some found ∧
      (found.record == r) = true) := by
  have hr : (ofList [("a\"", "\\"), ("b", "1\t2")]).Valid := by decide +kernel
  have hcontrol : ¬ (ofList [("a\"", "\\"), ("b", "1\t2")]).Uncontrolled := by decide +kernel
  obtain ⟨written, text, hencode, htext, hjson, hread, hfound, hpretty⟩ := agrees_with_json_iff hr
  exact ⟨_, written, text, rfl, hr, hcontrol, hencode, htext, mt hjson.mp hcontrol,
    mt hread.mp hcontrol, mt hfound.mp hcontrol, mt hpretty.mp hcontrol⟩

end RecordLog.Record
