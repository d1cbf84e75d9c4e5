import RecordLog.Format.Grammar

/-! # Reading one object

One object is read byte by byte from its opening brace, with no byte looked at twice and none past
the closing brace.

* `State.step`: what one byte does to a reading under way.
* `Reading`: how a reading ends — at the closing brace, at a byte that fits no object, or at the
  end of the bytes.
* `read`: the reading of the object that bytes begin with.
* `length_pos_of_read`: an object takes at least one byte.
-/

namespace RecordLog.Format

/-- Where in an object a reading stands.  Members and bytes read so far are kept last first. -/
inductive State where
  /-- Just past the opening brace: a name or the closing brace comes next. -/
  | opening
  /-- Past a comma: a name comes next. -/
  | nameDue (done : List RawMember)
  /-- Inside a name. -/
  | name (done : List RawMember) (text : Bytes)
  /-- Inside a name, past a backslash. -/
  | nameEscape (done : List RawMember) (text : Bytes)
  /-- Past a name: a colon comes next. -/
  | colonDue (done : List RawMember) (key : Bytes)
  /-- Past a colon: a value comes next. -/
  | valueDue (done : List RawMember) (key : Bytes)
  /-- Inside a value. -/
  | value (done : List RawMember) (key text : Bytes)
  /-- Inside a value, past a backslash. -/
  | valueEscape (done : List RawMember) (key text : Bytes)
  /-- Past a value: a comma or the closing brace comes next. -/
  | separatorDue (done : List RawMember)
  deriving DecidableEq, Repr

/-- What one byte does to a reading. -/
inductive Step where
  /-- The reading goes on. -/
  | next (state : State)
  /-- The byte is the closing brace of an object with these members. -/
  | close (members : List RawMember)
  /-- The byte fits no object here. -/
  | fail
  deriving DecidableEq, Repr

/-- Reads one byte. -/
def State.step (b : UInt8) : State → Step
  | opening =>
    if b = quote then .next (name [] [])
    else if b = closeBrace then .close []
    else if isBlank b then .next opening
    else .fail
  | nameDue done =>
    if b = quote then .next (name done [])
    else if isBlank b then .next (nameDue done)
    else .fail
  | name done text =>
    if b = backslash then .next (nameEscape done text)
    else if b = quote then .next (colonDue done text.reverse)
    else .next (name done (b :: text))
  | nameEscape done text => .next (name done (b :: text))
  | colonDue done key =>
    if b = colon then .next (valueDue done key)
    else if isBlank b then .next (colonDue done key)
    else .fail
  | valueDue done key =>
    if b = quote then .next (value done key [])
    else if isBlank b then .next (valueDue done key)
    else .fail
  | value done key text =>
    if b = backslash then .next (valueEscape done key text)
    else if b = quote then .next (separatorDue ((key, text.reverse) :: done))
    else .next (value done key (b :: text))
  | valueEscape done key text => .next (value done key (b :: text))
  | separatorDue done =>
    if b = comma then .next (nameDue done)
    else if b = closeBrace then .close done.reverse
    else if isBlank b then .next (separatorDue done)
    else .fail

/-- How the reading of an object ends. -/
inductive Reading where
  /-- An object with these members, of this many bytes. -/
  | object (members : List RawMember) (length : Nat)
  /-- A byte fits no object. -/
  | malformed
  /-- The bytes end within the object. -/
  | truncated
  deriving DecidableEq, Repr

/-- Goes on with a reading that has taken `taken` bytes. -/
def State.run (taken : Nat) : State → Bytes → Reading
  | _, [] => .truncated
  | state, b :: rest =>
    match state.step b with
    | .next state => state.run (taken + 1) rest
    | .close members => .object members (taken + 1)
    | .fail => .malformed

/-- Reads the object that bytes begin with. -/
def read : Bytes → Reading
  | [] => .truncated
  | b :: rest => if b = openBrace then State.opening.run 1 rest else .malformed

/-! ## An object takes some bytes -/

theorem length_pos_of_run {taken n : Nat} {bytes : Bytes} {members : List RawMember} :
    ∀ {state : State}, state.run taken bytes = .object members n → 0 < n := by
  induction bytes generalizing taken with
  | nil => intro state h; simp [State.run] at h
  | cons b rest ih =>
    intro state h
    unfold State.run at h
    split at h
    · exact ih h
    · cases h; omega
    · cases h

theorem length_pos_of_read {n : Nat} {bytes : Bytes} {members : List RawMember}
    (h : read bytes = .object members n) : 0 < n := by
  unfold read at h
  split at h
  · cases h
  · split at h
    · exact length_pos_of_run h
    · cases h

end RecordLog.Format
