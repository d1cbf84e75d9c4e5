import RecordLog.Text.Utf8

/-! # Decoding undoes encoding

* `Utf8.foldl_step_utf8EncodeChar`: between two characters, the bytes of a character are read as
  that character.
* `Utf8.decodeLossy_encode`: the bytes of a text are read as that text.
-/

namespace RecordLog.Utf8

/-! ## One byte -/

theorem toNat_ofNat_of_lt {n : Nat} (h : n < 256) : (UInt8.ofNat n).toNat = n := by
  rw [UInt8.toNat_ofNat']; omega

theorem Decoder.step_lead {w : List Char} {n : Nat} {c : Begun} (hn : 0x80 ≤ n) (hn' : n < 256)
    (hc : Begun.ofLead? n = some c) :
    Decoder.step { written := w } (UInt8.ofNat n) = { written := w, begun := some c } := by
  simp only [Decoder.step, Decoder.lead, toNat_ofNat_of_lt hn']
  rw [if_neg (by omega)]
  simp only [hc]

theorem Decoder.step_more {w : List Char} {n : Nat} {c : Begun} (hn' : n < 256)
    (hl : c.low ≤ n) (hh : n ≤ c.high) (hd : 1 < c.due) :
    Decoder.step { written := w, begun := some c } (UInt8.ofNat n) =
      { written := w, begun := some ⟨c.bits * 64 + n % 64, c.due - 1, 0x80, 0xBF⟩ } := by
  simp only [Decoder.step, toNat_ofNat_of_lt hn']
  rw [if_pos ⟨hl, hh⟩, if_neg (by omega)]

theorem Decoder.step_last {w : List Char} {n : Nat} {c : Begun} (hn' : n < 256)
    (hl : c.low ≤ n) (hh : n ≤ c.high) (hd : c.due = 1) :
    Decoder.step { written := w, begun := some c } (UInt8.ofNat n) =
      { written := Char.ofNat (c.bits * 64 + n % 64) :: w } := by
  simp only [Decoder.step, toNat_ofNat_of_lt hn']
  rw [if_pos ⟨hl, hh⟩, if_pos (by omega)]

/-! ## One character -/

theorem ofNat_eq {n : Nat} {c : Char} (h : n = c.toNat) : Char.ofNat n = c := by
  rw [h, Char.ofNat_toNat]

theorem toNat_charOfNat {n : Nat} (hn : n.isValidChar) : (Char.ofNat n).toNat = n := by
  rw [Char.ofNat, dif_pos hn]
  rfl

theorem toNat_bounds (c : Char) : c.toNat < 0xD800 ∨ (0xDFFF < c.toNat ∧ c.toNat < 0x110000) := by
  have := c.valid
  simp only [UInt32.isValidChar, Nat.isValidChar] at this
  exact this

/-- Between two characters, the bytes of a character are read as that character. -/
theorem foldl_step_utf8EncodeChar (c : Char) (w : List Char) :
    (String.utf8EncodeChar c).foldl Decoder.step { written := w } = { written := c :: w } := by
  have hv := toNat_bounds c
  have hc : c.val.toNat = c.toNat := rfl
  unfold String.utf8EncodeChar
  simp only [hc]
  split
  · simp only [List.foldl_cons, List.foldl_nil, Decoder.step, Decoder.lead]
    rw [toNat_ofNat_of_lt (by omega), if_pos (by omega), Char.ofNat_toNat]
  split
  · have hlead : Begun.ofLead? (c.toNat / 64 % 32 + 192) = some ⟨c.toNat / 64, 1, 0x80, 0xBF⟩ := by
      unfold Begun.ofLead?
      rw [if_pos (by omega)]
      congr 2; omega
    simp only [List.foldl_cons, List.foldl_nil]
    rw [Decoder.step_lead (by omega) (by omega) hlead,
      Decoder.step_last (by omega) (by simp only; omega) (by simp only; omega) rfl,
      ofNat_eq (c := c) (by simp only; omega)]
  split
  · have hlead : ∃ low high, Begun.ofLead? (c.toNat / 4096 % 16 + 224)
        = some ⟨c.toNat / 4096, 2, low, high⟩ ∧ low ≤ c.toNat / 64 % 64 + 128 ∧
        c.toNat / 64 % 64 + 128 ≤ high := by
      unfold Begun.ofLead?
      rw [if_neg (by omega)]
      split
      · exact ⟨_, _, by congr 2; omega, by omega, by omega⟩
      split
      · exact ⟨_, _, by congr 2; omega, by omega, by omega⟩
      rw [if_pos (by omega)]
      exact ⟨_, _, by congr 2; omega, by omega, by omega⟩
    obtain ⟨low, high, hlead, hl, hh⟩ := hlead
    simp only [List.foldl_cons, List.foldl_nil]
    rw [Decoder.step_lead (by omega) (by omega) hlead,
      Decoder.step_more (by omega) hl hh (by simp only; omega),
      Decoder.step_last (by omega) (by simp only; omega) (by simp only; omega) rfl,
      ofNat_eq (c := c) (by simp only; omega)]
  · have hlead : ∃ low high, Begun.ofLead? (c.toNat / 262144 % 8 + 240)
        = some ⟨c.toNat / 262144, 3, low, high⟩ ∧ low ≤ c.toNat / 4096 % 64 + 128 ∧
        c.toNat / 4096 % 64 + 128 ≤ high := by
      unfold Begun.ofLead?
      rw [if_neg (by omega), if_neg (by omega), if_neg (by omega), if_neg (by omega)]
      split
      · exact ⟨_, _, by congr 2; omega, by omega, by omega⟩
      split
      · exact ⟨_, _, by congr 2; omega, by omega, by omega⟩
      rw [if_pos (by omega)]
      exact ⟨_, _, by congr 2; omega, by omega, by omega⟩
    obtain ⟨low, high, hlead, hl, hh⟩ := hlead
    simp only [List.foldl_cons, List.foldl_nil]
    rw [Decoder.step_lead (by omega) (by omega) hlead,
      Decoder.step_more (by omega) hl hh (by simp only; omega),
      Decoder.step_more (by omega) (by simp only; omega) (by simp only; omega)
        (by simp only; omega),
      Decoder.step_last (by omega) (by simp only; omega) (by simp only; omega) rfl,
      ofNat_eq (c := c) (by simp only; omega)]

/-! ## All characters -/

/-- Between two characters, the bytes of characters are read as those characters. -/
theorem foldl_step_encode (cs : List Char) (w : List Char) :
    (cs.flatMap String.utf8EncodeChar).foldl Decoder.step { written := w } =
      { written := cs.reverse ++ w } := by
  induction cs generalizing w with
  | nil => rfl
  | cons c cs ih =>
    rw [List.flatMap_cons, List.foldl_append, foldl_step_utf8EncodeChar, ih, List.reverse_cons,
      List.append_assoc]
    rfl

/-- The bytes of a text are read as that text. -/
theorem decodeLossy_encode (text : String) : decodeLossy (encode text) = text := by
  unfold decodeLossy encode
  rw [foldl_step_encode]
  simp [Decoder.finish]

end RecordLog.Utf8
