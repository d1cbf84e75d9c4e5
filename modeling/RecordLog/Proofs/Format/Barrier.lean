import RecordLog.Format.Object
import RecordLog.Proofs.Format.Slot

/-! # Bytes that no object begun before them survives

Bytes may be cut off anywhere, and what is written behind them is then read from any state.  An
opening brace fits no state but those within a name or value, and there the first quote behind it
closes the text; so what comes next decides.

* `Bars`: no object that began before these bytes ends within them.
* `State.Quoted.run_openBrace`, `Slot.run_quote`: what a brace and a quote do within a name or value.
* `bars_object_append`: written fields bar if the first byte of the first name may not follow a
  text.
* `bars_object_nil_append`: the object of no fields bars if what follows does.
-/

namespace RecordLog.Format

/-- No object that began before these bytes ends within them. -/
def Bars (bytes : Bytes) : Prop :=
  ∀ (state : State) (taken n : Nat) (ms : List RawMember), state.run taken bytes ≠ .object ms n

/-- A byte that may follow the closing quote of a name or value. -/
def MayFollowText (b : UInt8) : Prop :=
  isBlank b = true ∨ b = comma ∨ b = colon ∨ b = closeBrace

instance : DecidablePred MayFollowText :=
  fun _ => inferInstanceAs (Decidable (_ ∨ _))

/-! ## What a brace and a quote do -/

theorem State.run_openBrace_of_not_quoted {state : State} (h : ¬ state.Quoted) (taken : Nat)
    (bytes : Bytes) : state.run taken (openBrace :: bytes) = .malformed := by
  cases state with
  | opening | nameDue | colonDue | valueDue | separatorDue => rfl
  | name | nameEscape | value | valueEscape => exact absurd trivial h

theorem Slot.run_within {slot : Slot} {text : Bytes} {b : UInt8} (hquote : b ≠ quote)
    (hbackslash : b ≠ backslash) (taken : Nat) (bytes : Bytes) :
    (slot.within text).run taken (b :: bytes) =
      (slot.within (text ++ [b])).run (taken + 1) bytes := by
  rw [State.run, step_within hquote hbackslash]

/-- **An opening brace is read as a byte of a name or value**, also past a backslash. -/
theorem State.Quoted.run_openBrace {state : State} (h : state.Quoted) (taken : Nat)
    (bytes : Bytes) : ∃ (slot : Slot) (text : Bytes),
    state.run taken (openBrace :: bytes) = (slot.within text).run (taken + 1) bytes := by
  obtain ⟨slot, text, rfl | rfl⟩ := h.exists_slot
  · exact ⟨slot, text ++ [openBrace], Slot.run_within (by decide) (by decide) taken bytes⟩
  · refine ⟨slot, text ++ [openBrace], ?_⟩
    rw [State.run, Slot.step_withinEscape]

/-- **A quote closes a name or value**, and not every byte may follow one. -/
theorem Slot.run_quote {slot : Slot} {text : Bytes} {c : UInt8} (hc : ¬ MayFollowText c)
    (taken : Nat) (bytes : Bytes) :
    (slot.within text).run taken (quote :: c :: bytes) = .malformed := by
  obtain ⟨hblank, hcomma, hcolon, hclose⟩ : ¬ isBlank c = true ∧ c ≠ comma ∧ c ≠ colon ∧
      c ≠ closeBrace := by simpa [MayFollowText] using hc
  cases slot with
  | name done =>
    show State.run (taken + 1) (.colonDue done text.reverse.reverse) (c :: bytes) = .malformed
    rw [State.run, State.step, if_neg hcolon, if_neg hblank]
  | value done key =>
    show State.run (taken + 1) (.separatorDue ((key, text.reverse.reverse) :: done)) (c :: bytes) =
      .malformed
    rw [State.run, State.step, if_neg hcomma, if_neg hclose, if_neg hblank]

/-! ## Written objects -/

theorem escape_cons (b : UInt8) (bytes : Bytes) :
    escape (b :: bytes) = escapeByte b ++ escape bytes := List.flatMap_cons

/-- The byte behind the first quote of written fields is a backslash, a quote or the first byte of
the first name. -/
theorem object_cons_eq {field : String × String}
    (h : ∀ b ∈ (Utf8.encode field.1).head?, ¬ MayFollowText b) (fields : List (String × String)) :
    ∃ c bytes, object (field :: fields) = openBrace :: quote :: c :: bytes ∧ ¬ MayFollowText c := by
  rw [object, members, member, quoted, appendEscaped]
  cases hname : Utf8.encode field.1 with
  | nil => exact ⟨quote, _, rfl, by decide⟩
  | cons b bytes =>
    rw [escape_cons, escapeByte]
    by_cases hb : b = quote ∨ b = backslash
    · rw [if_pos hb]
      exact ⟨backslash, _, rfl, by decide⟩
    · rw [if_neg hb]
      exact ⟨b, _, rfl, h b (by rw [hname]; rfl)⟩

/-- **Written fields bar if the first byte of the first name may not follow a text.** -/
theorem bars_object_append {field : String × String} {fields : List (String × String)}
    (h : ∀ b ∈ (Utf8.encode field.1).head?, ¬ MayFollowText b) (more : Bytes) :
    Bars (object (field :: fields) ++ more) := by
  obtain ⟨c, bytes, e, hc⟩ := object_cons_eq h fields
  intro state taken n ms hobject
  rw [e, List.cons_append] at hobject
  by_cases hquoted : state.Quoted
  · obtain ⟨slot, text, hrun⟩ := hquoted.run_openBrace taken (quote :: c :: bytes ++ more)
    rw [hrun, List.cons_append, List.cons_append, Slot.run_quote hc] at hobject
    cases hobject
  · rw [State.run_openBrace_of_not_quoted hquoted] at hobject
    cases hobject

theorem bars_object_nil_append {b : UInt8} (hquote : b ≠ quote) (hbackslash : b ≠ backslash)
    {more : Bytes} (h : Bars more) : Bars (object [] ++ b :: more) := by
  intro state taken n ms hobject
  change state.run taken (openBrace :: closeBrace :: b :: more) = _ at hobject
  by_cases hquoted : state.Quoted
  · -- the closing brace and `b` are read as bytes of a text, so that `h` is about another state
    obtain ⟨slot, text, hrun⟩ := hquoted.run_openBrace taken (closeBrace :: b :: more)
    rw [hrun, Slot.run_within (by decide) (by decide), Slot.run_within hquote hbackslash] at hobject
    exact h _ _ _ _ hobject
  · rw [State.run_openBrace_of_not_quoted hquoted] at hobject
    cases hobject

theorem bars_nil : Bars [] := fun _ _ _ _ h => by cases h

end RecordLog.Format
