import RecordLog.Text.Utf8.RoundTrip

/-! # ASCII bytes of a text

The bytes of a longer character all lie above the ASCII range, so an ASCII byte of a text stands for
a character of its own.

* `toNat_of_mem_utf8EncodeChar`: a byte of a character is that character, or no ASCII byte.
* `utf8EncodeChar_of_mem`: a character with an ASCII byte has no other byte.
* `mem_of_mem_encode`: an ASCII byte of a text is a character of the text.
-/

namespace RecordLog.Utf8

theorem toNat_of_mem_utf8EncodeChar (c : Char) :
    ∀ b ∈ String.utf8EncodeChar c, b.toNat = c.toNat ∨ 0x80 ≤ b.toNat := by
  have hv := toNat_bounds c
  have hc : c.val.toNat = c.toNat := rfl
  unfold String.utf8EncodeChar
  simp only [hc]
  -- one case for each length of the character
  repeat' split
  all_goals
    simp (disch := omega) only [List.forall_mem_cons, toNat_ofNat_of_lt, List.not_mem_nil,
      false_implies, implies_true, and_true, true_or]
  all_goals omega

theorem utf8EncodeChar_of_lt {c : Char} (hc : c.toNat < 0x80) :
    String.utf8EncodeChar c = [UInt8.ofNat c.toNat] := by
  have hval : c.val.toNat = c.toNat := rfl
  simp only [String.utf8EncodeChar, hval]
  rw [if_pos (by omega)]

theorem utf8EncodeChar_of_mem {c : Char} {b : UInt8} (hb : b.toNat < 0x80)
    (h : b ∈ String.utf8EncodeChar c) : String.utf8EncodeChar c = [b] := by
  rcases toNat_of_mem_utf8EncodeChar c b h with hc | hge
  · rw [utf8EncodeChar_of_lt (by omega), ← hc, UInt8.ofNat_toNat]
  · omega

theorem mem_of_mem_encode {text : String} {c : Char} (hc : c.toNat < 0x80)
    (h : UInt8.ofNat c.toNat ∈ encode text) : c ∈ text.toList := by
  obtain ⟨d, hd, hmem⟩ := List.mem_flatMap.mp h
  have hb : (UInt8.ofNat c.toNat).toNat = c.toNat := toNat_ofNat_of_lt (by omega)
  rcases toNat_of_mem_utf8EncodeChar d _ hmem with e | hge
  · rw [hb] at e
    rwa [Char.toNat_inj.mp e]
  · omega

end RecordLog.Utf8
