import RecordLog.Format.Reading

/-! # Names and values under way

Within a name or value a reading is in one of two states, past a backslash or not, and both of them
go with the name or value that is being read and with the bytes of it that were read so far.  There
every byte but a quote leads on to one of the two states; past a backslash a quote does so too.

* `Slot`: a name or a value, and what was read before it.
* `Slot.within`, `Slot.withinEscape`: the two states, past these bytes of it.
* `State.Quoted`: within a name or value, in either of them.
* `State.Quoted.exists_slot`: such a state is one of the two of a slot.
* `Slot.step_within`, `Slot.step_within_backslash`, `Slot.step_withinEscape`: where a byte leads.
-/

namespace RecordLog.Format

/-- A name or a value that is being read, and what was read before it. -/
inductive Slot where
  | name (done : List RawMember)
  | value (done : List RawMember) (key : Bytes)
  deriving DecidableEq, Repr

/-- Within the name or value, past these bytes of it. -/
def Slot.within (bytes : Bytes) : Slot → State
  | name done => .name done bytes.reverse
  | value done key => .value done key bytes.reverse

/-- The same, and past a backslash. -/
def Slot.withinEscape (bytes : Bytes) : Slot → State
  | name done => .nameEscape done bytes.reverse
  | value done key => .valueEscape done key bytes.reverse

/-- Within a name or value, past a backslash or not. -/
def State.Quoted : State → Prop
  | name _ _ | nameEscape _ _ | value _ _ _ | valueEscape _ _ _ => True
  | opening | nameDue _ | colonDue _ _ | valueDue _ _ | separatorDue _ => False

instance : DecidablePred State.Quoted
  | .name _ _ | .nameEscape _ _ | .value _ _ _ | .valueEscape _ _ _ => .isTrue trivial
  | .opening | .nameDue _ | .colonDue _ _ | .valueDue _ _ | .separatorDue _ => .isFalse id

section

variable {slot slot' : Slot} {b : UInt8} {bytes bytes' : Bytes}

/-- **The four states within a name or value are the two of a slot**, past some bytes of it. -/
theorem State.Quoted.exists_slot {state : State} (h : state.Quoted) :
    ∃ (slot : Slot) (bytes : Bytes),
      state = slot.within bytes ∨ state = slot.withinEscape bytes := by
  cases state with
  | name done text =>
    exact ⟨.name done, text.reverse, .inl (by rw [Slot.within, List.reverse_reverse])⟩
  | nameEscape done text =>
    exact ⟨.name done, text.reverse, .inr (by rw [Slot.withinEscape, List.reverse_reverse])⟩
  | value done key text =>
    exact ⟨.value done key, text.reverse, .inl (by rw [Slot.within, List.reverse_reverse])⟩
  | valueEscape done key text =>
    exact ⟨.value done key, text.reverse, .inr (by rw [Slot.withinEscape, List.reverse_reverse])⟩
  | opening | nameDue _ | colonDue _ _ | valueDue _ _ | separatorDue _ => exact h.elim

theorem Slot.quoted_within (slot : Slot) (bytes : Bytes) : (slot.within bytes).Quoted := by
  cases slot <;> trivial

theorem Slot.quoted_withinEscape (slot : Slot) (bytes : Bytes) :
    (slot.withinEscape bytes).Quoted := by
  cases slot <;> trivial

theorem Slot.within_inj (h : slot.within bytes = slot'.within bytes') :
    slot = slot' ∧ bytes = bytes' := by
  cases slot <;> cases slot' <;> simp_all [within]

theorem Slot.withinEscape_ne (slot slot' : Slot) (bytes bytes' : Bytes) :
    slot.withinEscape bytes ≠ slot'.within bytes' := by
  cases slot <;> cases slot' <;> exact State.noConfusion

/-! ## One byte -/

theorem Slot.step_within_backslash :
    (slot.within bytes).step backslash = .next (slot.withinEscape bytes) := by
  cases slot <;> rfl

theorem Slot.step_within (hquote : b ≠ quote) (hbackslash : b ≠ backslash) :
    (slot.within bytes).step b = .next (slot.within (bytes ++ [b])) := by
  cases slot <;>
    rw [within, State.step, if_neg hbackslash, if_neg hquote, within, List.reverse_concat]

theorem Slot.step_withinEscape :
    (slot.withinEscape bytes).step b = .next (slot.within (bytes ++ [b])) := by
  cases slot <;> rw [withinEscape, State.step, within, List.reverse_concat]

end

end RecordLog.Format
