import RecordLog.Proofs.Format.Barrier
import RecordLog.Proofs.Format.Extension
import RecordLog.Proofs.Format.Written

/-! # Escaping and reading undo each other

Within a name or value every byte but a quote leads on within it.  So what a reading takes in before
the closing quote is cut up in one way into single bytes and pairs of a backslash and a byte, which
is what `Spells` says of a spelling.  Escaping gives the shortest spelling: it takes a pair where
nothing else will do.

* `State.StaysQuoted`: a reading is within a name or value through all of these bytes.
* `Spells.staysQuoted`, `spells_of_staysQuoted`: what it takes in there is what these bytes spell.
* `Spells.length_escape_le`: no spelling is shorter than the escaped bytes.
* `appendEscaped_inverse`: what is written of a text is read as that text, and any spelling that is
  read as a text is read as what is written of it.
-/

namespace RecordLog.Format

/-! ## Readings that stay within -/

/-- A reading goes on through all of these bytes, and is within a name or value all the time. -/
def State.StaysQuoted (state : State) (bytes : Bytes) : Prop :=
  ∀ taken, taken <+: bytes → ∃ state', state.after taken = some state' ∧ state'.Quoted

section

variable {slot slot' : Slot} {b : UInt8} {bytes bytes' written meant : Bytes} {state state' : State}

theorem State.after_cons (hstep : state.step b = .next state') (bytes : Bytes) :
    state.after (b :: bytes) = state'.after bytes := by
  rw [after, hstep]

theorem State.StaysQuoted.tail (hstep : state.step b = .next state')
    (h : state.StaysQuoted (b :: bytes)) : state'.StaysQuoted bytes := by
  rintro taken ⟨rest, rfl⟩
  obtain ⟨last, hlast, hquoted⟩ := h (b :: taken) ⟨rest, rfl⟩
  exact ⟨last, by rwa [after_cons hstep] at hlast, hquoted⟩

theorem State.StaysQuoted.cons (hquoted : state.Quoted) (hstep : state.step b = .next state')
    (h : state'.StaysQuoted bytes) : state.StaysQuoted (b :: bytes) := by
  rintro taken ⟨rest, htaken⟩
  cases taken with
  | nil => exact ⟨state, rfl, hquoted⟩
  | cons c taken =>
    obtain ⟨rfl, rfl⟩ := List.cons.inj htaken
    rw [after_cons hstep]
    exact h taken ⟨rest, rfl⟩

theorem State.staysQuoted_nil (hquoted : state.Quoted) : state.StaysQuoted [] := by
  intro taken htaken
  rw [List.prefix_nil] at htaken
  exact ⟨state, by rw [htaken, after], hquoted⟩

theorem Slot.not_staysQuoted_quote : ¬ (slot.within bytes).StaysQuoted (quote :: written) := by
  intro h
  obtain ⟨last, hlast, hquoted⟩ := h [quote] ⟨written, rfl⟩
  cases slot <;> cases hlast <;> exact hquoted

/-- **A spelling is read within a name or value**, and adds what it means. -/
theorem Spells.staysQuoted (h : Spells written meant) (slot : Slot) (bytes : Bytes) :
    (slot.within bytes).StaysQuoted written ∧
      (slot.within bytes).after written = some (slot.within (bytes ++ meant)) := by
  induction h generalizing bytes with
  | nil =>
    rw [List.append_nil]
    exact ⟨State.staysQuoted_nil (slot.quoted_within bytes), rfl⟩
  | @plain b written meant hquote hbackslash _ ih =>
    obtain ⟨hstays, hafter⟩ := ih (bytes ++ [b])
    have hstep : (slot.within bytes).step b = _ := Slot.step_within hquote hbackslash
    rw [List.append_assoc] at hafter
    exact ⟨.cons (slot.quoted_within bytes) hstep hstays, (State.after_cons hstep _).trans hafter⟩
  | @escaped b written meant _ ih =>
    obtain ⟨hstays, hafter⟩ := ih (bytes ++ [b])
    have hstep : (slot.within bytes).step backslash = _ := Slot.step_within_backslash
    have hstep' : (slot.withinEscape bytes).step b = _ := Slot.step_withinEscape
    rw [List.append_assoc] at hafter
    rw [State.after_cons hstep, State.after_cons hstep']
    exact ⟨.cons (slot.quoted_within bytes) hstep
      (.cons (slot.quoted_withinEscape bytes) hstep' hstays), hafter⟩

/-- **What is read within a name or value is a spelling of what it adds.** -/
theorem spells_of_staysQuoted (h : (slot.within bytes).StaysQuoted written)
    (hafter : (slot.within bytes).after written = some (slot'.within bytes')) :
    slot = slot' ∧ ∃ meant, bytes' = bytes ++ meant ∧ Spells written meant := by
  -- the readings that begin past a backslash are carried along: that backslash is part of what is
  -- spelled, and the first byte is meant as itself
  suffices hboth : ∀ bytes,
      ((slot.within bytes).StaysQuoted written →
        (slot.within bytes).after written = some (slot'.within bytes') →
        slot = slot' ∧ ∃ meant, bytes' = bytes ++ meant ∧ Spells written meant) ∧
      ((slot.withinEscape bytes).StaysQuoted written →
        (slot.withinEscape bytes).after written = some (slot'.within bytes') →
        slot = slot' ∧ ∃ meant, bytes' = bytes ++ meant ∧ Spells (backslash :: written) meant) from
    (hboth bytes).1 h hafter
  clear h hafter
  induction written with
  | nil =>
    refine fun bytes => ⟨fun _ hafter => ?_, fun _ hafter => ?_⟩
    · obtain ⟨rfl, rfl⟩ := Slot.within_inj (Option.some.inj hafter)
      exact ⟨rfl, [], (List.append_nil bytes).symm, .nil⟩
    · exact absurd (Option.some.inj hafter) (slot.withinEscape_ne slot' bytes bytes')
  | cons b written ih =>
    refine fun bytes => ⟨fun hstays hafter => ?_, fun hstays hafter => ?_⟩
    · by_cases hquote : b = quote
      · subst hquote
        exact absurd hstays Slot.not_staysQuoted_quote
      by_cases hbackslash : b = backslash
      · subst hbackslash
        rw [State.after_cons Slot.step_within_backslash] at hafter
        exact (ih bytes).2 (hstays.tail Slot.step_within_backslash) hafter
      · have hstep : (slot.within bytes).step b = _ := Slot.step_within hquote hbackslash
        rw [State.after_cons hstep] at hafter
        obtain ⟨hslot, meant, rfl, hspells⟩ := (ih _).1 (hstays.tail hstep) hafter
        exact ⟨hslot, b :: meant, List.append_assoc _ _ _, .plain hquote hbackslash hspells⟩
    · rw [State.after_cons Slot.step_withinEscape] at hafter
      obtain ⟨hslot, meant, rfl, hspells⟩ := (ih _).1 (hstays.tail Slot.step_withinEscape) hafter
      exact ⟨hslot, b :: meant, List.append_assoc _ _ _, .escaped b hspells⟩

/-! ## The shortest spelling -/

theorem length_escapeByte_le (b : UInt8) : (escapeByte b).length ≤ 2 := by
  rw [escapeByte]
  split <;> simp

/-- **No spelling is shorter than the escaped bytes.** -/
theorem Spells.length_escape_le (h : Spells written meant) :
    (escape meant).length ≤ written.length := by
  induction h with
  | nil => exact Nat.le_refl 0
  | @plain b written meant hquote hbackslash _ ih =>
    have hone : escapeByte b = [b] := if_neg (not_or.mpr ⟨hquote, hbackslash⟩)
    rw [escape_cons, hone, List.length_append, List.length_cons]
    simp only [List.length_cons, List.length_nil]
    omega
  | @escaped b written meant _ ih =>
    have htwo := length_escapeByte_le b
    rw [escape_cons, List.length_append, List.length_cons, List.length_cons]
    omega

end

/-! ## Texts -/

/-- **Escaping and reading undo each other.**  What is written of a text comes behind what was
written before, and is the same bytes each time.  Read anywhere within a name or value, they add the
bytes of the text to it, and the reading neither leaves the name or value nor ends past a backslash.
The other way round, take any bytes that a reading takes in within a name or value, and of which it
makes the bytes of the text: what is written of the text is no longer than these, and leaves the
reading where they leave it. -/
theorem appendEscaped_inverse (text : String) : ∃ added : Bytes,
    (∀ written, appendEscaped written text = written ++ added) ∧
    (∀ (slot : Slot) (bytes : Bytes), (slot.within bytes).StaysQuoted added ∧
      (slot.within bytes).after added = some (slot.within (bytes ++ Utf8.encode text))) ∧
    ∀ (slot slot' : Slot) (written : Bytes), (slot.within []).StaysQuoted written →
      (slot.within []).after written = some (slot'.within (Utf8.encode text)) →
      added.length ≤ written.length ∧
        (slot.within []).after added = some (slot'.within (Utf8.encode text)) := by
  have hadded := (spells_escape (Utf8.encode text)).staysQuoted
  refine ⟨escape (Utf8.encode text), fun written => rfl, hadded,
    fun slot slot' written hstays hafter => ?_⟩
  obtain ⟨rfl, meant, hmeant, hspells⟩ := spells_of_staysQuoted hstays hafter
  rw [List.nil_append] at hmeant
  subst hmeant
  exact ⟨hspells.length_escape_le, (hadded slot []).2⟩

/-- Backslashes stand before both bytes of one character, so that what is read as a text is no text
itself. -/
theorem appendEscaped_inverse_needless : ∃ (slot : Slot) (written : Bytes),
    written = [backslash, 0xC3, backslash, 0xA9, backslash, quote] ∧
    (slot.within []).StaysQuoted written ∧
    (slot.within []).after written = some (slot.within (Utf8.encode "é\"")) ∧
    (appendEscaped [] "é\"").length ≤ written.length ∧
    (slot.within []).after (appendEscaped [] "é\"") = some (slot.within (Utf8.encode "é\"")) := by
  have hmeant : Utf8.encode "é\"" = [0xC3, 0xA9, quote] := by decide
  have hspells : Spells [backslash, 0xC3, backslash, 0xA9, backslash, quote] (Utf8.encode "é\"") :=
    hmeant ▸ .escaped _ (.escaped _ (.escaped _ .nil))
  obtain ⟨hstays, hafter⟩ := hspells.staysQuoted (.value [] []) []
  obtain ⟨added, hadded, -, hshortest⟩ := appendEscaped_inverse "é\""
  rw [hadded, List.nil_append]
  obtain ⟨hlength, hread⟩ := hshortest _ _ _ hstays hafter
  exact ⟨.value [] [], _, rfl, hstays, hafter, hlength, hread⟩

end RecordLog.Format
