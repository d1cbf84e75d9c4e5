import RecordLog.Proofs.Text.Ascii

/-! # Bytes that are text

A record is read and written byte by byte.  Still what is written are the bytes of a text, which
showing them as text and taking the bytes of that does not change.

* `IsText`: bytes that are those of a text.
* `IsText.encode_decodeLossy`: such bytes are read as the text that they are the bytes of.
* `isText_ascii`, `IsText.append`, `isText_flatMap`: how the bytes of a text are put together.
* `IsText.of_append_cons`: bytes of a text come apart at an ASCII byte into those of two texts.
-/

namespace RecordLog

/-- Bytes that are those of a text. -/
def IsText (bytes : Bytes) : Prop :=
  ∃ text : String, Utf8.encode text = bytes

namespace Utf8

theorem encode_append (text more : String) :
    encode (text ++ more) = encode text ++ encode more := by
  rw [encode, String.toList_append, List.flatMap_append]
  rfl

theorem encode_ofList (cs : List Char) :
    encode (String.ofList cs) = cs.flatMap String.utf8EncodeChar := by
  rw [encode, String.toList_ofList]

end Utf8

theorem IsText.encode_decodeLossy {bytes : Bytes} (h : IsText bytes) :
    Utf8.encode (Utf8.decodeLossy bytes) = bytes := by
  obtain ⟨text, rfl⟩ := h
  rw [Utf8.decodeLossy_encode]

theorem IsText.decodeLossy_append {bytes more : Bytes} (h : IsText bytes) (hmore : IsText more) :
    Utf8.decodeLossy (bytes ++ more) = Utf8.decodeLossy bytes ++ Utf8.decodeLossy more := by
  obtain ⟨text, rfl⟩ := h
  obtain ⟨rest, rfl⟩ := hmore
  rw [← Utf8.encode_append, Utf8.decodeLossy_encode, Utf8.decodeLossy_encode,
    Utf8.decodeLossy_encode]

theorem isText_nil : IsText [] := ⟨"", rfl⟩

theorem IsText.append {bytes more : Bytes} (h : IsText bytes) (hmore : IsText more) :
    IsText (bytes ++ more) := by
  obtain ⟨text, rfl⟩ := h
  obtain ⟨rest, rfl⟩ := hmore
  exact ⟨text ++ rest, Utf8.encode_append text rest⟩

theorem isText_flatMap {α : Type} {xs : List α} {f : α → Bytes} (h : ∀ x ∈ xs, IsText (f x)) :
    IsText (xs.flatMap f) := by
  induction xs with
  | nil => exact isText_nil
  | cons x xs ih =>
    obtain ⟨hx, hxs⟩ := List.forall_mem_cons.mp h
    rw [List.flatMap_cons]
    exact hx.append (ih hxs)

theorem isText_utf8EncodeChar (c : Char) : IsText (String.utf8EncodeChar c) :=
  ⟨String.ofList [c], by rw [Utf8.encode_ofList, List.flatMap_singleton]⟩

theorem isText_ascii {b : UInt8} (h : b.toNat < 0x80) : IsText [b] := by
  have hval : (Char.ofNat b.toNat).toNat = b.toNat := Utf8.toNat_charOfNat (.inl (by omega))
  have hbytes : String.utf8EncodeChar (Char.ofNat b.toNat) = [b] := by
    rw [Utf8.utf8EncodeChar_of_lt (by omega), hval, UInt8.ofNat_toNat]
  rw [← hbytes]
  exact isText_utf8EncodeChar _

/-- Bytes of a text come apart at an ASCII byte into those of two texts. -/
theorem IsText.of_append_cons {before after : Bytes} {b : UInt8} (hb : b.toNat < 0x80)
    (h : IsText (before ++ b :: after)) : IsText before ∧ IsText after := by
  obtain ⟨text, e⟩ := h
  rw [Utf8.encode] at e
  generalize text.toList = cs at e
  induction cs generalizing before with
  | nil => simp at e
  | cons c cs ih =>
    rw [List.flatMap_cons] at e
    rcases List.append_eq_append_iff.mp e with ⟨more, rfl, hmore⟩ | ⟨more, hc, hmore⟩
    · obtain ⟨hbefore, hafter⟩ := ih hmore
      exact ⟨(isText_utf8EncodeChar c).append hbefore, hafter⟩
    -- the byte is the first behind the character, or one of its own and then its only one
    cases more with
    | nil =>
      rw [List.append_nil] at hc
      obtain ⟨-, hafter⟩ := @ih [] hmore.symm
      exact ⟨hc ▸ isText_utf8EncodeChar c, hafter⟩
    | cons d more =>
      obtain ⟨rfl, rfl⟩ := List.cons.inj hmore
      have hone := Utf8.utf8EncodeChar_of_mem hb (by rw [hc]; simp)
      rw [hone] at hc
      have hlength := congrArg List.length hc
      simp only [List.length_append, List.length_cons, List.length_nil] at hlength
      obtain rfl := List.length_eq_zero_iff.mp (show before.length = 0 by omega)
      obtain rfl := List.length_eq_zero_iff.mp (show more.length = 0 by omega)
      exact ⟨isText_nil, String.ofList cs, Utf8.encode_ofList cs⟩

end RecordLog
