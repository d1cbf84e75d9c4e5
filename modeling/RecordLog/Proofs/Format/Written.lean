import RecordLog.Format.Grammar
import RecordLog.Proofs.Format.Spacing

/-! # What is written is an object

An object may be written with any blanks between its parts, and with any escapes for its characters
as long as a reading can make something of them.  What it makes of them are then the members of the
object.

* `spells_escape`: escaped bytes stand for the bytes that were escaped.
* `isObject_objectBy`: an object is one by the grammar, with what its escapes mean as its members.
* `isObject_object`: the object of a log has its fields as its members.
-/

namespace RecordLog.Format

/-- The bytes of a field's name and of its value. -/
def encoded (field : String × String) : RawMember :=
  (Utf8.encode field.1, Utf8.encode field.2)

theorem Spells.append {written meant written' meant' : Bytes} (h : Spells written meant)
    (h' : Spells written' meant') : Spells (written ++ written') (meant ++ meant') := by
  induction h with
  | nil => exact h'
  | plain hquote hbackslash _ ih => exact .plain hquote hbackslash ih
  | escaped b _ ih => exact .escaped b ih

theorem spells_escape (bytes : Bytes) : Spells (escape bytes) bytes := by
  induction bytes with
  | nil => exact .nil
  | cons b bytes ih =>
    rw [escape, List.flatMap_cons, escapeByte]
    by_cases hb : b = quote ∨ b = backslash
    · rw [if_pos hb]
      exact .escaped b ih
    · rw [if_neg hb]
      obtain ⟨hquote, hbackslash⟩ := not_or.mp hb
      exact .plain hquote hbackslash ih

theorem quoted_eq (text : String) :
    quoted text = quote :: escape (Utf8.encode text) ++ [quote] := rfl

/-! ## Any escapes and blanks -/

/-- What is written for each character spells what is meant by it. -/
def Means (esc meant : Char → List Char) : Prop :=
  ∀ c, Spells ((esc c).flatMap String.utf8EncodeChar) ((meant c).flatMap String.utf8EncodeChar)

/-- What is meant by a text. -/
def meantText (meant : Char → List Char) (text : String) : String :=
  String.ofList (text.toList.flatMap meant)

/-- What is meant by a field. -/
def meantField (meant : Char → List Char) (field : String × String) : String × String :=
  (meantText meant field.1, meantText meant field.2)

section

variable {esc meant : Char → List Char} {s : Spacing}

theorem Means.flatMap (h : Means esc meant) (cs : List Char) :
    Spells ((cs.flatMap esc).flatMap String.utf8EncodeChar)
      ((cs.flatMap meant).flatMap String.utf8EncodeChar) := by
  induction cs with
  | nil => exact .nil
  | cons c cs ih =>
    rw [List.flatMap_cons, List.flatMap_cons, List.flatMap_append, List.flatMap_append]
    exact (h c).append ih

theorem Means.spells (h : Means esc meant) (text : String) :
    Spells ((text.toList.flatMap esc).flatMap String.utf8EncodeChar)
      (Utf8.encode (meantText meant text)) := by
  rw [meantText, Utf8.encode_ofList]
  exact h.flatMap text.toList

theorem encode_quotedBy (text : String) : (quotedBy esc text).flatMap String.utf8EncodeChar =
    quote :: (text.toList.flatMap esc).flatMap String.utf8EncodeChar ++ [quote] := by
  rw [quotedBy, List.flatMap_append, List.flatMap_cons]
  rfl

theorem blank_encode {cs : List Char} (h : ∀ c ∈ cs, c ∈ Json.blanks) :
    Blank (cs.flatMap String.utf8EncodeChar) := by
  have hblank : ∀ c ∈ Json.blanks, Blank (String.utf8EncodeChar c) := by
    intro c hc
    simp only [Json.blanks, List.mem_cons, List.not_mem_nil, or_false] at hc
    rcases hc with rfl | rfl | rfl | rfl <;> exact blank_cons.mpr ⟨rfl, blank_nil⟩
  intro b hb
  obtain ⟨c, hc, hb⟩ := List.mem_flatMap.mp hb
  exact hblank c (h c hc) b hb

theorem isMember_of_spells {name value gap nameMeant valueMeant : Bytes}
    (hname : Spells name nameMeant) (hgap : Blank gap) (hvalue : Spells value valueMeant) :
    IsMember (quote :: name ++ [quote] ++ colon :: (gap ++ (quote :: value ++ [quote])))
      (nameMeant, valueMeant) := by
  have hmember : IsMember _ (nameMeant, valueMeant) := .mk hname blank_nil hgap hvalue
  simpa using hmember

theorem isMember_memberBy (h : Means esc meant) (hs : s.IsBlank) (field : String × String) :
    IsMember ((memberBy esc s field).flatMap String.utf8EncodeChar)
      (encoded (meantField meant field)) := by
  have hcolon : String.utf8EncodeChar ':' = [colon] := rfl
  rw [memberBy, List.flatMap_append, List.flatMap_cons, List.flatMap_append, encode_quotedBy,
    encode_quotedBy, hcolon, encoded, meantField]
  exact isMember_of_spells (h.spells field.1) (blank_encode hs.value) (h.spells field.2)

theorem areMore_flatMap (h : Means esc meant) (hs : s.IsBlank) (fields : List (String × String)) :
    AreMore ((fields.flatMap fun f => ',' :: (s.name ++ memberBy esc s f)).flatMap
        String.utf8EncodeChar)
      (fields.map fun f => encoded (meantField meant f)) := by
  induction fields with
  | nil => exact .nil
  | cons field fields ih =>
    have hmore := AreMore.cons blank_nil (blank_encode hs.name) (isMember_memberBy h hs field) ih
    have hcomma : String.utf8EncodeChar ',' = [comma] := rfl
    rw [List.flatMap_cons, List.cons_append, List.flatMap_cons, List.flatMap_append,
      List.flatMap_append, hcomma]
    simpa using hmore

/-- **An object is one by the grammar**, with what its escapes mean as its members. -/
theorem isObject_objectBy (h : Means esc meant) (hs : s.IsBlank)
    (fields : List (String × String)) :
    IsObject (Utf8.encode (String.ofList (objectBy esc s fields)))
      (fields.map fun f => encoded (meantField meant f)) := by
  have hopen : String.utf8EncodeChar '{' = [openBrace] := rfl
  have hclose : String.utf8EncodeChar '}' = [closeBrace] := rfl
  rw [Utf8.encode_ofList]
  cases fields with
  | nil =>
    have hobject := IsObject.empty (blank_encode (List.forall_mem_append.mpr ⟨hs.name, hs.close⟩))
    rw [objectBy_nil]
    simpa [hopen, hclose] using hobject
  | cons field fields =>
    have hobject := IsObject.members (blank_encode hs.name) (isMember_memberBy h hs field)
      (areMore_flatMap h hs fields) (blank_encode hs.close)
    rw [objectBy_cons]
    simpa [hopen, hclose] using hobject

end

/-! ## The object of a log -/

theorem means_escapeChar : Means escapeChar fun c => [c] := by
  intro c
  rw [← escape_utf8EncodeChar, List.flatMap_singleton]
  exact spells_escape _

theorem spells_encode {cs : List Char} (h : ∀ c ∈ cs, c ≠ '"' ∧ c ≠ '\\') :
    Spells (cs.flatMap String.utf8EncodeChar) (cs.flatMap String.utf8EncodeChar) := by
  have hesc : cs.flatMap escapeChar = cs.flatMap fun c => [c] :=
    List.flatMap_congr fun c hc => if_neg (not_or.mpr (h c hc))
  have hspells := means_escapeChar.flatMap cs
  rwa [hesc, List.flatMap_singleton'] at hspells

/-- **The object of some fields has these fields as its members.** -/
theorem isObject_object (fields : List (String × String)) :
    IsObject (object fields) (fields.map encoded) := by
  have hobject := isObject_objectBy means_escapeChar Spacing.isBlank_none fields
  have hmeant (field : String × String) : meantField (fun c => [c]) field = field := by
    rw [meantField, meantText, meantText, List.flatMap_singleton', List.flatMap_singleton',
      String.ofList_toList, String.ofList_toList]
  rw [← object_eq] at hobject
  simpa only [hmeant] using hobject

end RecordLog.Format
