import RecordLog.Proofs.Format.Extension
import RecordLog.Proofs.Format.Written

/-! # What stands between two quotes

A reading collects the bytes of a name or value one at a time, and lets go of the backslash before an
escaped one.  It does so without regard to characters: the byte behind a backslash may be the first
of several that make one character, and the others are then read without a backslash.  Still, what
it takes away is ASCII and stood between characters, so that of a text it leaves a text.

* `State.Closes`: a quote closes a name or value here, and these are its bytes.
* `exists_of_closes`: what it closes was spelled behind an opening quote.
* `unescaped`, `Spells.of_encode`: what spells a text means that text without the backslashes.
* `exists_source_of_closes`: what is closed in a text is a text.
* `IsObject.exists_sources`: and so are the names and values of an object in a text.
-/

namespace RecordLog.Format

/-! ## Names and values that a reading closes -/

/-- A quote closes a name or value here, and these are the bytes that are kept of it. -/
def State.Closes (state : State) (bytes : Bytes) : Prop :=
  (∃ done, state.step quote = .next (colonDue done bytes)) ∨
    ∃ done key, state.step quote = .next (separatorDue ((key, bytes) :: done))

/-- The bytes end with a quote and what spells a text, of which the meaning is kept last first. -/
def Collects (taken text : Bytes) : Prop :=
  ∃ before written, taken = before ++ quote :: written ∧ Spells written text.reverse

/-- What the bytes that were read have to do with the text that a reading stands in. -/
def State.Within (taken : Bytes) : State → Prop
  | name _ text | value _ _ text => Collects taken text
  | nameEscape _ text | valueEscape _ _ text =>
    ∃ before, taken = before ++ [backslash] ∧ Collects before text
  | opening | nameDue _ | colonDue _ _ | valueDue _ _ | separatorDue _ => True

section

variable {taken text : Bytes} {b : UInt8}

theorem collects_quote (taken : Bytes) : Collects (taken ++ [quote]) [] :=
  ⟨taken, [], rfl, .nil⟩

theorem Collects.append {written : Bytes} (h : Collects taken text) (hb : Spells written [b]) :
    Collects (taken ++ written) (b :: text) := by
  obtain ⟨before, earlier, rfl, hearlier⟩ := h
  refine ⟨before, earlier ++ written, by simp, ?_⟩
  rw [List.reverse_cons]
  exact hearlier.append hb

theorem Collects.plain (h : Collects taken text) (hbackslash : b ≠ backslash)
    (hquote : b ≠ quote) : Collects (taken ++ [b]) (b :: text) :=
  h.append (.plain hquote hbackslash .nil)

theorem Collects.escaped (h : Collects taken text) (b : UInt8) :
    Collects (taken ++ [backslash] ++ [b]) (b :: text) := by
  rw [List.append_assoc]
  exact h.append (.escaped b .nil)

/-- **One byte leaves what was read and the text within in step.** -/
theorem State.Within.step {state state' : State} (h : state.Within taken)
    (hstep : state.step b = .next state') : state'.Within (taken ++ [b]) := by
  cases state with
  | opening =>
    rw [State.step] at hstep
    split at hstep
    next hb => cases hstep; exact hb ▸ collects_quote taken
    split at hstep
    · cases hstep
    split at hstep
    · cases hstep; trivial
    · cases hstep
  | nameDue done | valueDue done key =>
    rw [State.step] at hstep
    split at hstep
    next hb => cases hstep; exact hb ▸ collects_quote taken
    split at hstep
    · cases hstep; trivial
    · cases hstep
  | name done text | value done key text =>
    rw [State.step] at hstep
    split at hstep
    next hb => cases hstep; exact ⟨taken, hb ▸ rfl, h⟩
    next hbackslash =>
      split at hstep
      next => cases hstep; trivial
      next hquote => cases hstep; exact Collects.plain h hbackslash hquote
  | nameEscape done text | valueEscape done key text =>
    cases hstep
    obtain ⟨before, rfl, hbefore⟩ := h
    exact hbefore.escaped b
  | colonDue done key =>
    rw [State.step] at hstep
    split at hstep
    · cases hstep; trivial
    split at hstep
    · cases hstep; trivial
    · cases hstep
  | separatorDue done =>
    rw [State.step] at hstep
    split at hstep
    · cases hstep; trivial
    split at hstep
    · cases hstep
    split at hstep
    · cases hstep; trivial
    · cases hstep

/-- **Any bytes leave what was read and the text within in step.** -/
theorem State.Within.after {state state' : State} {bytes : Bytes} (h : state.Within taken)
    (hafter : state.after bytes = some state') : state'.Within (taken ++ bytes) := by
  induction bytes generalizing state taken with
  | nil =>
    obtain rfl := Option.some.inj hafter
    rwa [List.append_nil]
  | cons b bytes ih =>
    rw [State.after] at hafter
    cases hstep : state.step b with
    | next state'' =>
      rw [hstep] at hafter
      have hmore := ih (h.step hstep) hafter
      rwa [List.append_assoc] at hmore
    | close ms =>
      rw [hstep] at hafter
      cases hafter
    | fail =>
      rw [hstep] at hafter
      cases hafter

theorem State.Within.of_closes {state : State} {bytes : Bytes} (h : state.Within taken)
    (hcloses : state.Closes bytes) : Collects taken bytes.reverse := by
  cases state with
  | name done text | value done key text =>
    have hbytes : bytes = text.reverse := by
      rcases hcloses with ⟨_, hstep⟩ | ⟨_, _, hstep⟩ <;> cases hstep
      rfl
    rw [hbytes, List.reverse_reverse]
    exact h
  | _ => rcases hcloses with ⟨_, hstep⟩ | ⟨_, _, hstep⟩ <;> cases hstep

end

/-- **What a reading closes was spelled behind an opening quote.** -/
theorem exists_of_closes {taken bytes : Bytes} {state : State}
    (hafter : State.opening.after taken = some state) (hcloses : state.Closes bytes) :
    ∃ before written, taken = before ++ quote :: written ∧ Spells written bytes := by
  have hwithin : State.opening.Within [] := trivial
  obtain ⟨before, written, htaken, hspells⟩ := (hwithin.after hafter).of_closes hcloses
  rw [List.reverse_reverse] at hspells
  exact ⟨before, written, htaken, hspells⟩

/-! ## Characters -/

/-- Characters without the backslash before each escaped one. -/
def unescaped : List Char → List Char
  | [] => []
  | c :: cs =>
    if c = '\\' then
      match cs with
      | [] => []
      | d :: cs => d :: unescaped cs
    else c :: unescaped cs

theorem unescaped_backslash (c : Char) (cs : List Char) :
    unescaped ('\\' :: c :: cs) = c :: unescaped cs := rfl

theorem unescaped_cons {c : Char} (hc : c ≠ '\\') (cs : List Char) :
    unescaped (c :: cs) = c :: unescaped cs := by
  rw [unescaped.eq_def]
  exact if_neg hc

theorem unescaped_eq_self {cs : List Char} (h : ∀ c ∈ cs, c ≠ '\\') : unescaped cs = cs := by
  induction cs with
  | nil => rfl
  | cons c cs ih =>
    obtain ⟨hc, hcs⟩ := List.forall_mem_cons.mp h
    rw [unescaped_cons hc, ih hcs]

theorem Spells.of_append {bytes rest meant : Bytes} (hbytes : ∀ b ∈ bytes, b ≠ backslash)
    (h : Spells (bytes ++ rest) meant) : ∃ more, meant = bytes ++ more ∧ Spells rest more := by
  induction bytes generalizing meant with
  | nil => exact ⟨meant, rfl, h⟩
  | cons b bytes ih =>
    obtain ⟨hb, hbytes⟩ := List.forall_mem_cons.mp hbytes
    rw [List.cons_append] at h
    generalize htail : bytes ++ rest = tail at h
    cases h with
    | plain hquote hbackslash h =>
      subst htail
      obtain ⟨more, rfl, hmore⟩ := ih hbytes h
      exact ⟨more, rfl, hmore⟩
    | escaped c h => exact absurd rfl hb

theorem ne_backslash_of_mem {c : Char} (hc : c ≠ '\\') :
    ∀ b ∈ String.utf8EncodeChar c, b ≠ backslash := by
  intro b hb hbackslash
  have hone := Utf8.utf8EncodeChar_of_mem (by rw [hbackslash]; decide) hb
  rcases Utf8.toNat_of_mem_utf8EncodeChar c b hb with heq | hge
  · rw [hbackslash] at heq
    exact hc (Char.toNat_inj.mp heq.symm)
  · rw [hbackslash] at hge
    exact absurd hge (by decide)

theorem ne_backslash_of_mem_tail (c : Char) :
    ∀ b ∈ (String.utf8EncodeChar c).tail, b ≠ backslash := by
  by_cases hc : c = '\\'
  · subst hc
    exact List.forall_mem_nil _
  · exact fun b hb => ne_backslash_of_mem hc b (List.mem_of_mem_tail hb)

/-- **What spells a text means that text without the backslashes.** -/
theorem Spells.of_encode {cs : List Char} {meant : Bytes}
    (h : Spells (cs.flatMap String.utf8EncodeChar) meant) :
    meant = (unescaped cs).flatMap String.utf8EncodeChar := by
  induction cs using unescaped.induct generalizing meant with
  | case1 =>
    cases h
    rfl
  | case2 =>
    cases h with
    | plain _ hbackslash _ => exact absurd rfl hbackslash
  | case3 d cs ih =>
    -- the bytes of `d` are its first, which the backslash stands before, and others
    cases hd : String.utf8EncodeChar d with
    | nil => exact absurd hd String.utf8EncodeChar_ne_nil
    | cons b bytes =>
      have hbytes := ne_backslash_of_mem_tail d
      rw [hd, List.tail_cons] at hbytes
      have hspells : Spells (backslash :: b :: (bytes ++ cs.flatMap String.utf8EncodeChar))
          meant := by
        rw [List.flatMap_cons, List.flatMap_cons, hd] at h
        exact h
      rw [unescaped_backslash, List.flatMap_cons, hd]
      cases hspells with
      | plain _ hbackslash _ => exact absurd rfl hbackslash
      | escaped _ hrest =>
        obtain ⟨more, rfl, hmore⟩ := hrest.of_append hbytes
        rw [ih hmore]
        rfl
  | case4 c cs hc ih =>
    rw [List.flatMap_cons] at h
    obtain ⟨more, rfl, hmore⟩ := h.of_append (ne_backslash_of_mem hc)
    rw [unescaped_cons hc, List.flatMap_cons, ih hmore]

/-- **What stands between two quotes of a text is a text**, and means that text without the
backslashes. -/
theorem Spells.exists_source {before written rest meant : Bytes} (h : Spells written meant)
    (htext : IsText (before ++ quote :: (written ++ quote :: rest))) :
    ∃ source : String, written = Utf8.encode source ∧
      meant = Utf8.encode (String.ofList (unescaped source.toList)) := by
  obtain ⟨-, hbehind⟩ := htext.of_append_cons (by decide)
  obtain ⟨⟨source, rfl⟩, -⟩ := hbehind.of_append_cons (by decide)
  refine ⟨source, rfl, ?_⟩
  rw [Utf8.encode_ofList]
  exact h.of_encode

/-- **What a reading closes in a text is a text.** -/
theorem exists_source_of_closes {taken rest bytes : Bytes} {state : State}
    (htext : IsText (taken ++ quote :: rest)) (hafter : State.opening.after taken = some state)
    (hcloses : state.Closes bytes) :
    ∃ (before : Bytes) (source : String), taken = before ++ quote :: Utf8.encode source ∧
      Spells (Utf8.encode source) bytes ∧
      bytes = Utf8.encode (String.ofList (unescaped source.toList)) := by
  obtain ⟨before, written, rfl, hspells⟩ := exists_of_closes hafter hcloses
  rw [List.append_assoc] at htext
  obtain ⟨source, rfl, hbytes⟩ := hspells.exists_source htext
  exact ⟨before, source, rfl, hspells, hbytes⟩

/-! ## Members of objects -/

theorem AreMore.exists_of_mem {more : Bytes} {ms : List RawMember} {m : RawMember}
    (h : AreMore more ms) (hm : m ∈ ms) :
    ∃ before written rest, more = before ++ (written ++ rest) ∧ IsMember written m := by
  induction h with
  | nil => cases hm
  | @cons gap gap' written more first ms _ _ hfirst _ ih =>
    rcases List.mem_cons.mp hm with rfl | hm
    · exact ⟨gap ++ comma :: gap', written, more, by simp, hfirst⟩
    · obtain ⟨before, written', rest, rfl, hmember⟩ := ih hm
      exact ⟨gap ++ comma :: gap' ++ written ++ before, written', rest, by simp, hmember⟩

theorem IsObject.exists_of_mem {object : Bytes} {ms : List RawMember} {m : RawMember}
    (h : IsObject object ms) (hm : m ∈ ms) :
    ∃ before written rest, object = before ++ (written ++ rest) ∧ IsMember written m := by
  cases h with
  | empty _ => cases hm
  | @members gap gap' written more first ms _ hfirst hmore _ =>
    rcases List.mem_cons.mp hm with rfl | hm
    · exact ⟨openBrace :: gap, written, more ++ gap' ++ [closeBrace], by simp, hfirst⟩
    · obtain ⟨before, written', rest, rfl, hmember⟩ := hmore.exists_of_mem hm
      exact ⟨openBrace :: gap ++ written ++ before, written', rest ++ gap' ++ [closeBrace],
        by simp, hmember⟩

/-- **The names and values of an object in a text are texts.** -/
theorem IsObject.exists_sources {before object rest : Bytes} {ms : List RawMember}
    (h : IsObject object ms) (htext : IsText (before ++ (object ++ rest))) :
    ∀ m ∈ ms, ∃ name value : String,
      Spells (Utf8.encode name) m.1 ∧ Spells (Utf8.encode value) m.2 ∧
      m.1 = Utf8.encode (String.ofList (unescaped name.toList)) ∧
      m.2 = Utf8.encode (String.ofList (unescaped value.toList)) := by
  intro m hm
  obtain ⟨left, _, right, rfl, hmember⟩ := h.exists_of_mem hm
  cases hmember with
  | @mk name value gap gap' _ hname _ _ hvalue =>
    have hnameText : IsText (before ++ left ++ quote :: (name ++ quote ::
        (gap ++ colon :: gap' ++ quote :: value ++ [quote] ++ right ++ rest))) := by
      simpa using htext
    have hvalueText : IsText (before ++ left ++ quote :: name ++ quote :: gap ++ colon :: gap' ++
        quote :: (value ++ quote :: (right ++ rest))) := by
      simpa using htext
    obtain ⟨nameSource, rfl, hnameMeant⟩ := hname.exists_source hnameText
    obtain ⟨valueSource, rfl, hvalueMeant⟩ := hvalue.exists_source hvalueText
    exact ⟨nameSource, valueSource, hname, hvalue, hnameMeant, hvalueMeant⟩

end RecordLog.Format
