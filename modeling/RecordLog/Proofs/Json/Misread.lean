import RecordLog.Proofs.Format.Quotation
import RecordLog.Proofs.RoundTrip
import RecordLog.Record.Json

/-! # JSON, read as a log

JSON and the format of a log escape the quote and the backslash alike, but JSON escapes the
characters below U+0020 as well, as a letter or a number behind a backslash.  In a log a backslash
only lets the next character stand for itself, so what is read of such an escape is its letters.  No
character below U+0020 ever comes out, and hence JSON of a record that has one is read as some other
record.

* `Uncontrolled`: a text without characters below U+0020; `Record.Uncontrolled`: a record of such.
* `Json.misreadChar`: what a log reads of a character of JSON.
* `Json.means_escapeChar`: that is what its escape spells.
* `find?_objectBy_iff`: JSON of a record is read as that record if the record is uncontrolled, and
  only then.
-/

namespace RecordLog

open Format

/-- A text without characters below U+0020. -/
def Uncontrolled (text : String) : Prop :=
  ∀ c ∈ text.toList, 0x20 ≤ c.toNat

instance (text : String) : Decidable (Uncontrolled text) :=
  List.decidableBAll _ _

/-- A record with no characters below U+0020 in its names and values. -/
def Record.Uncontrolled (r : Record) : Prop :=
  ∀ field ∈ r.toList, RecordLog.Uncontrolled field.1 ∧ RecordLog.Uncontrolled field.2

instance (r : Record) : Decidable r.Uncontrolled :=
  List.decidableBAll _ _

/-! ## Escapes -/

namespace Json

/-- What a log reads of a character of JSON. -/
def misreadChar (c : Char) : List Char :=
  unescaped (escapeChar c)

/-- **From U+0020 on JSON escapes the characters that a log does.** -/
theorem escapeChar_of_le {c : Char} (hc : 0x20 ≤ c.toNat) : escapeChar c = Format.escapeChar c := by
  unfold escapeChar
  split
  case h_1 | h_2 => rfl
  case h_3 | h_4 | h_5 | h_6 | h_7 => exact absurd hc (by decide)
  case h_8 hquote hbackslash _ _ _ _ _ =>
    rw [if_neg (Nat.not_lt.mpr hc), Format.escapeChar, if_neg (not_or.mpr ⟨hquote, hbackslash⟩)]

/-- **Below U+0020 a backslash stands before plain characters**, and a log reads just these. -/
theorem escapeChar_of_lt {c : Char} (hc : c.toNat < 0x20) :
    ∃ d ds, escapeChar c = '\\' :: d :: ds ∧ misreadChar c = d :: ds ∧
      ∀ e ∈ d :: ds, 0x20 ≤ e.toNat ∧ e.toNat < 0x80 ∧ e ≠ '"' ∧ e ≠ '\\' := by
  have hall : ∀ n < 0x20, (escapeChar (Char.ofNat n)).head? = some '\\' ∧
      (escapeChar (Char.ofNat n)).tail ≠ [] ∧
      (escapeChar (Char.ofNat n)).tail.all fun e => 0x20 ≤ e.toNat ∧ e.toNat < 0x80 ∧
        e ≠ '"' ∧ e ≠ '\\' := by
    decide
  obtain ⟨hhead, htail, hplain⟩ := hall c.toNat hc
  simp only [Char.ofNat_toNat, List.all_eq_true, decide_eq_true_iff] at hhead htail hplain
  obtain ⟨ds, hesc⟩ := List.head?_eq_some_iff.mp hhead
  rw [hesc, List.tail_cons] at htail hplain
  obtain ⟨d, ds, rfl⟩ := List.exists_cons_of_ne_nil htail
  refine ⟨d, ds, hesc, ?_, hplain⟩
  rw [misreadChar, hesc, unescaped_backslash,
    unescaped_eq_self fun e he => (hplain e (List.mem_cons_of_mem d he)).2.2.2]

theorem misreadChar_of_le {c : Char} (hc : 0x20 ≤ c.toNat) : misreadChar c = [c] := by
  rw [misreadChar, escapeChar_of_le hc, Format.escapeChar]
  split
  next => exact unescaped_backslash c []
  next hplain => exact unescaped_cons (fun hbackslash => hplain (.inr hbackslash)) []

/-- **No character below U+0020 is ever read.** -/
theorem le_of_mem_misreadChar (c : Char) : ∀ d ∈ misreadChar c, 0x20 ≤ d.toNat := by
  rcases Nat.lt_or_ge c.toNat 0x20 with hc | hc
  · obtain ⟨d, ds, -, hread, hplain⟩ := escapeChar_of_lt hc
    rw [hread]
    exact fun e he => (hplain e he).1
  · rw [misreadChar_of_le hc]
    exact List.forall_mem_singleton.mpr hc

/-- **A log reads the escapes of JSON** as what stands behind their backslashes. -/
theorem means_escapeChar : Means escapeChar misreadChar := by
  intro c
  rcases Nat.lt_or_ge c.toNat 0x20 with hc | hc
  · obtain ⟨d, ds, hesc, hread, hplain⟩ := escapeChar_of_lt hc
    obtain ⟨⟨-, hd, -⟩, hds⟩ := List.forall_mem_cons.mp hplain
    rw [hread, hesc, List.flatMap_cons, List.flatMap_cons, Utf8.utf8EncodeChar_of_lt hd]
    exact .escaped _ (spells_encode fun e he => (hds e he).2.2)
  · rw [misreadChar_of_le hc, escapeChar_of_le hc]
    exact Format.means_escapeChar c

end Json

/-! ## Records -/

/-- What a log reads of a field of JSON. -/
abbrev misreadField : String × String → String × String :=
  meantField Json.misreadChar

theorem uncontrolled_meantText (text : String) :
    Uncontrolled (meantText Json.misreadChar text) := by
  intro d hd
  rw [meantText, String.toList_ofList] at hd
  obtain ⟨c, -, hd⟩ := List.mem_flatMap.mp hd
  exact Json.le_of_mem_misreadChar c d hd

theorem Uncontrolled.meantText_eq {text : String} (h : Uncontrolled text) :
    meantText Json.misreadChar text = text := by
  have hread : text.toList.flatMap Json.misreadChar = text.toList.flatMap fun c => [c] :=
    List.flatMap_congr fun c hc => Json.misreadChar_of_le (h c hc)
  rw [meantText, hread, List.flatMap_singleton', String.ofList_toList]

theorem Record.Uncontrolled.map_misreadField {r : Record} (h : r.Uncontrolled) :
    r.toList.map misreadField = r.toList := by
  have hfield : ∀ field ∈ r.toList, misreadField field = field := fun field hmem =>
    Prod.ext (h field hmem).1.meantText_eq (h field hmem).2.meantText_eq
  rw [List.map_congr_left hfield, List.map_id']

/-- **JSON of a record is read as that record** if the record has no characters below U+0020, and
only then. -/
theorem find?_objectBy_iff {r : Record} (hr : r.Valid) {s : Spacing} (hs : s.IsBlank) :
    (∃ found, find? (Utf8.encode (String.ofList (objectBy Json.escapeChar s r.toList))) =
      some found ∧ (found.record == r) = true) ↔ r.Uncontrolled := by
  have hobject := isObject_objectBy Json.means_escapeChar hs r.toList
  generalize Utf8.encode (String.ofList (objectBy Json.escapeChar s r.toList)) = bytes at hobject ⊢
  have hmembers : (r.toList.map fun f => encoded (misreadField f)) =
      (r.toList.map misreadField).map encoded := by
    rw [List.map_map]
    rfl
  have hfind := find?_append_of_isObject hobject []
  rw [List.append_nil, hmembers, fieldsOf_encoded, find?_nil, Option.map_none] at hfind
  rw [hfind]
  constructor
  · rintro ⟨found, hfound, hequal⟩
    obtain ⟨-, hfound⟩ := Option.ite_none_right_eq_some.mp hfound
    obtain rfl := Option.some.inj hfound
    have hfields : (.ofList (r.toList.map misreadField) : Fields) = r.fields :=
      Record.beq_iff.mp hequal
    -- every field of the record is then one that was read
    intro field hfield
    rw [Record.toList, ← hfields] at hfield
    obtain ⟨field, -, rfl⟩ := List.mem_map.mp (mem_of_mem_toList_ofList hfield)
    exact ⟨uncontrolled_meantText field.1, uncontrolled_meantText field.2⟩
  · intro h
    rw [h.map_misreadField, if_pos hr.writable, Record.toList, ofList_toList]
    exact ⟨_, rfl, Record.beq_iff.mpr rfl⟩

end RecordLog
