import RecordLog.Proofs.Format.Completion

/-! # Bytes above the ASCII range have no part in the shape of an object

All that gives an object its shape is ASCII, and whatever else stands in it can only stand in names
and values.  So when all bytes above the ASCII range are made the same, a reading takes the same
steps and ends after as many bytes, and only the names and values that it has collected differ.

* `masked`: bytes, with those above the ASCII range made the same.
* `State.step_masked`: a step of a reading, when the byte and what was read are masked.
* `read_masked`: a whole reading, when the bytes are masked.
* `IsObject.masked`: a masked object is an object.
-/

namespace RecordLog.Format

/-- A byte, where all above the ASCII range are the same. -/
def maskedByte (b : UInt8) : UInt8 :=
  if b.toNat < 0x80 then b else 0x80

/-- Bytes, with all above the ASCII range made the same. -/
def masked (bytes : Bytes) : Bytes :=
  bytes.map maskedByte

def maskedMember (m : RawMember) : RawMember :=
  (masked m.1, masked m.2)

def State.masked : State → State
  | opening => opening
  | nameDue done => nameDue (done.map maskedMember)
  | name done text => name (done.map maskedMember) (Format.masked text)
  | nameEscape done text => nameEscape (done.map maskedMember) (Format.masked text)
  | colonDue done key => colonDue (done.map maskedMember) (Format.masked key)
  | valueDue done key => valueDue (done.map maskedMember) (Format.masked key)
  | value done key text => value (done.map maskedMember) (Format.masked key) (Format.masked text)
  | valueEscape done key text =>
    valueEscape (done.map maskedMember) (Format.masked key) (Format.masked text)
  | separatorDue done => separatorDue (done.map maskedMember)

def Step.masked : Step → Step
  | next state => next state.masked
  | close members => close (members.map maskedMember)
  | fail => fail

def Reading.masked : Reading → Reading
  | object members length => object (members.map maskedMember) length
  | malformed => malformed
  | truncated => truncated

/-! ## Bytes -/

theorem maskedByte_eq_iff {b mark : UInt8} (hmark : mark.toNat < 0x80) :
    maskedByte b = mark ↔ b = mark := by
  rw [maskedByte]
  split
  next => rfl
  next hb =>
    constructor
    · rintro rfl
      exact absurd hmark (by decide)
    · rintro rfl
      exact absurd hmark hb

theorem isBlank_maskedByte (b : UInt8) : isBlank (maskedByte b) = isBlank b := by
  have hblank (mark : UInt8) (hmark : mark.toNat < 0x80) : (maskedByte b == mark) = (b == mark) :=
    Bool.eq_iff_iff.mpr (by rw [beq_iff_eq, beq_iff_eq, maskedByte_eq_iff hmark])
  rw [isBlank, isBlank, hblank 9 (by decide), hblank 10 (by decide), hblank 12 (by decide),
    hblank 13 (by decide), hblank 32 (by decide)]

theorem length_masked (bytes : Bytes) : (masked bytes).length = bytes.length :=
  List.length_map _

/-! ## Readings -/

/-- **A step goes the same way when bytes are masked.** -/
theorem State.step_masked (state : State) (b : UInt8) :
    state.masked.step (maskedByte b) = (state.step b).masked := by
  have hquote : maskedByte b = quote ↔ b = quote := maskedByte_eq_iff (by decide)
  have hcomma : maskedByte b = comma ↔ b = comma := maskedByte_eq_iff (by decide)
  have hcolon : maskedByte b = colon ↔ b = colon := maskedByte_eq_iff (by decide)
  have hbackslash : maskedByte b = backslash ↔ b = backslash := maskedByte_eq_iff (by decide)
  have hclose : maskedByte b = closeBrace ↔ b = closeBrace := maskedByte_eq_iff (by decide)
  cases state <;>
    simp only [State.masked, State.step, hquote, hcomma, hcolon, hbackslash, hclose,
      isBlank_maskedByte, apply_ite Step.masked] <;>
    simp only [Step.masked, State.masked, List.map_cons, List.map_nil, List.map_reverse,
      Format.masked, maskedMember]

theorem State.run_masked (state : State) (taken : Nat) (bytes : Bytes) :
    state.masked.run taken (Format.masked bytes) = (state.run taken bytes).masked := by
  induction bytes generalizing state taken with
  | nil => cases state <;> rfl
  | cons b bytes ih =>
    rw [Format.masked, List.map_cons, run, run, step_masked]
    cases state.step b with
    | next state' => exact ih state' (taken + 1)
    | close ms => rfl
    | fail => rfl

/-- **A reading ends the same way when bytes are masked**, after as many bytes. -/
theorem read_masked (bytes : Bytes) : read (masked bytes) = (read bytes).masked := by
  cases bytes with
  | nil => rfl
  | cons b bytes =>
    have hopen : maskedByte b = openBrace ↔ b = openBrace := maskedByte_eq_iff (by decide)
    rw [masked, List.map_cons, read, read]
    by_cases hb : b = openBrace
    · rw [if_pos hb, if_pos (hopen.mpr hb)]
      exact State.run_masked .opening 1 bytes
    · rw [if_neg hb, if_neg (mt hopen.mp hb)]
      rfl

theorem IsObject.masked {written : Bytes} {ms : List RawMember} (h : IsObject written ms) :
    IsObject (Format.masked written) (ms.map maskedMember) := by
  have hread := h.read_append []
  rw [List.append_nil] at hread
  have hmasked := read_masked written
  rw [hread] at hmasked
  obtain ⟨object, rest, e, hlength, hobject⟩ := read_eq_object_iff.mp hmasked
  have hrest := congrArg List.length e
  rw [List.length_append, length_masked] at hrest
  obtain rfl := List.length_eq_zero_iff.mp (show rest.length = 0 by omega)
  rwa [e, List.append_nil]

end RecordLog.Format
