import Mathlib.Data.List.Basic
import RecordLog.Format.Object
import RecordLog.Json.Printer
import RecordLog.Proofs.Format.Text

/-! # Objects with other escapes and blanks

The fields of a record can be written as one object in several ways: as they stand in a log, as JSON
on one line, and as indented JSON.  These differ in how a character is escaped and in the blanks
between the parts, and in nothing else.

* `Spacing`: the blanks that an object is written with.
* `objectBy`: an object, written with some escapes and some blanks.
* `Format.object_eq`, `Json.object_eq`, `Json.exists_prettyObject_eq`: the three ways.
* `isText_object`: the bytes of an object are those of a text.
-/

namespace RecordLog

open Json (separated)

/-- The blanks of an object: before each name, before each value, and before the closing brace. -/
structure Spacing where
  name : List Char := []
  value : List Char := []
  close : List Char := []

/-- The blanks of JSON. -/
def Json.blanks : List Char := [' ', '\t', '\n', '\r']

/-- Nothing but blanks. -/
structure Spacing.IsBlank (s : Spacing) : Prop where
  name : ∀ c ∈ s.name, c ∈ Json.blanks
  value : ∀ c ∈ s.value, c ∈ Json.blanks
  close : ∀ c ∈ s.close, c ∈ Json.blanks

theorem Spacing.isBlank_none : IsBlank {} :=
  ⟨List.forall_mem_nil _, List.forall_mem_nil _, List.forall_mem_nil _⟩

/-- A text in quotes, each character written in some way. -/
def quotedBy (esc : Char → List Char) (text : String) : List Char :=
  '"' :: text.toList.flatMap esc ++ ['"']

/-- A name and its value. -/
def memberBy (esc : Char → List Char) (s : Spacing) (field : String × String) : List Char :=
  quotedBy esc field.1 ++ ':' :: (s.value ++ quotedBy esc field.2)

/-- An object, with these escapes and blanks. -/
def objectBy (esc : Char → List Char) (s : Spacing) (fields : List (String × String)) : List Char :=
  '{' :: (s.name ++ separated (',' :: s.name) (fields.map (memberBy esc s))) ++ (s.close ++ ['}'])

theorem objectBy_nil (esc : Char → List Char) (s : Spacing) :
    objectBy esc s [] = '{' :: s.name ++ (s.close ++ ['}']) := by
  simp [objectBy, separated]

theorem objectBy_cons (esc : Char → List Char) (s : Spacing) (field : String × String)
    (fields : List (String × String)) :
    objectBy esc s (field :: fields) = '{' :: (s.name ++ (memberBy esc s field ++
      fields.flatMap fun f => ',' :: (s.name ++ memberBy esc s f))) ++ (s.close ++ ['}']) := by
  simp [objectBy, separated, List.flatMap_map]

theorem objectBy_congr {esc esc' : Char → List Char} {fields : List (String × String)}
    {s : Spacing} (h : ∀ field ∈ fields,
      (∀ c ∈ field.1.toList, esc c = esc' c) ∧ ∀ c ∈ field.2.toList, esc c = esc' c) :
    objectBy esc s fields = objectBy esc' s fields := by
  have hquoted {text : String} (htext : ∀ c ∈ text.toList, esc c = esc' c) :
      quotedBy esc text = quotedBy esc' text := by
    rw [quotedBy, quotedBy, List.flatMap_congr htext]
  rw [objectBy, objectBy]
  congr 4
  refine List.map_congr_left fun field hfield => ?_
  obtain ⟨hname, hvalue⟩ := h field hfield
  rw [memberBy, memberBy, hquoted hname, hquoted hvalue]

/-! ## JSON -/

namespace Json

theorem object_eq (fields : List (String × String)) :
    object fields = objectBy escapeChar {} fields := rfl

/-- The blanks of an indented object. -/
def indented : Spacing where
  name := newLine 1
  value := [' ']
  close := newLine 0

theorem isBlank_indented : indented.IsBlank :=
  ⟨by simp [indented, newLine, blanks], by simp [indented, blanks],
    by simp [indented, newLine, blanks]⟩

theorem prettyObject_cons (field : String × String) (fields : List (String × String)) :
    prettyObject 0 (field :: fields) = objectBy escapeChar indented (field :: fields) := by
  have hmember : prettyMember = memberBy escapeChar indented := rfl
  rw [prettyObject, hmember, objectBy]
  simp [block, indented]

theorem exists_prettyObject_eq (fields : List (String × String)) :
    ∃ s : Spacing, s.IsBlank ∧ prettyObject 0 fields = objectBy escapeChar s fields := by
  cases fields with
  | nil => exact ⟨{}, Spacing.isBlank_none, rfl⟩
  | cons field fields => exact ⟨indented, isBlank_indented, prettyObject_cons field fields⟩

end Json

/-! ## The object of a log -/

namespace Format

/-- A character of a name or value as it stands between the quotes. -/
def escapeChar (c : Char) : List Char :=
  if c = '"' ∨ c = '\\' then ['\\', c] else [c]

theorem escape_eq_self {bytes : Bytes} (h : ∀ b ∈ bytes, b ≠ quote ∧ b ≠ backslash) :
    escape bytes = bytes := by
  induction bytes with
  | nil => rfl
  | cons b bytes ih =>
    obtain ⟨hb, hbytes⟩ := List.forall_mem_cons.mp h
    rw [escape, List.flatMap_cons, escapeByte, if_neg (not_or.mpr hb)]
    exact congrArg (b :: ·) (ih hbytes)

theorem escape_utf8EncodeChar (c : Char) :
    escape (String.utf8EncodeChar c) = (escapeChar c).flatMap String.utf8EncodeChar := by
  by_cases hquote : c = '"'
  · subst hquote
    decide
  by_cases hbackslash : c = '\\'
  · subst hbackslash
    decide
  rw [escapeChar, if_neg (not_or.mpr ⟨hquote, hbackslash⟩), List.flatMap_singleton,
    escape_eq_self]
  intro b hb
  -- an ASCII byte of the character is the character itself
  have hascii (d : Char) (hd : d.toNat < 0x80) (hne : c ≠ d) : b ≠ UInt8.ofNat d.toNat := by
    intro hbd
    have htoNat : b.toNat = d.toNat := by
      rw [hbd, Utf8.toNat_ofNat_of_lt (by omega)]
    rcases Utf8.toNat_of_mem_utf8EncodeChar c b hb with heq | hge
    · exact hne (Char.toNat_inj.mp (heq.symm.trans htoNat))
    · omega
  exact ⟨hascii '"' (by decide) hquote, hascii '\\' (by decide) hbackslash⟩

theorem quoted_eq_encode (text : String) :
    quoted text = (quotedBy escapeChar text).flatMap String.utf8EncodeChar := by
  have htext : escape (Utf8.encode text) =
      (text.toList.flatMap escapeChar).flatMap String.utf8EncodeChar := by
    rw [escape, Utf8.encode, List.flatMap_assoc, List.flatMap_assoc]
    exact List.flatMap_congr fun c _ => escape_utf8EncodeChar c
  rw [quoted, appendEscaped, htext, quotedBy, List.flatMap_append, List.flatMap_cons]
  rfl

theorem member_eq_encode (field : String × String) :
    member field = (memberBy escapeChar {} field).flatMap String.utf8EncodeChar := by
  rw [member, quoted_eq_encode, quoted_eq_encode, memberBy, List.flatMap_append]
  rfl

/-- **The object of a log** has the escapes above and no blanks. -/
theorem object_eq (fields : List (String × String)) :
    object fields = Utf8.encode (String.ofList (objectBy escapeChar {} fields)) := by
  rw [Utf8.encode_ofList]
  cases fields with
  | nil => decide
  | cons field fields =>
    have hmore : (fields.flatMap fun f => comma :: member f) =
        (fields.flatMap fun f => ',' :: memberBy escapeChar {} f).flatMap
          String.utf8EncodeChar := by
      rw [List.flatMap_assoc]
      refine List.flatMap_congr fun f _ => ?_
      rw [member_eq_encode, List.flatMap_cons]
      rfl
    rw [object, members, hmore, member_eq_encode, objectBy_cons]
    simp only [List.flatMap_append, List.flatMap_cons]
    rfl

end Format

/-- **The bytes of an object are those of a text.** -/
theorem isText_object (fields : List (String × String)) : IsText (Format.object fields) :=
  ⟨_, (Format.object_eq fields).symm⟩

end RecordLog
