import RecordLog.Text.Utf8.RoundTrip

/-! # Texts are ordered as their bytes

Names are kept in the order of their characters.  UTF-8 keeps that order: the bytes of two texts
compare as the texts do.

* `utf8EncodeChar_append_lt`: of two characters, the bytes of the smaller come first, whatever
  follows.
* `encode_lt_encode`: texts compare as their bytes.
-/

namespace RecordLog.Utf8

/-- Numbers in base 64 compare by the digits before the last, and then by the last. -/
theorem div_lt_div_or {m n : Nat} (h : m < n) :
    m / 64 < n / 64 ∨ m / 64 = n / 64 ∧ m % 64 < n % 64 := by
  omega

theorem utf8EncodeChar_append_lt {c d : Char} (h : c < d) (x y : Bytes) :
    String.utf8EncodeChar c ++ x < String.utf8EncodeChar d ++ y := by
  have hlt : c.val.toNat < d.val.toNat := UInt32.lt_iff_toNat_lt.mp h
  have hd : d.val.toNat < 0x110000 := by
    rcases toNat_bounds d with hd | hd
    · exact Nat.lt_of_lt_of_le hd (by decide)
    · exact hd.2
  unfold String.utf8EncodeChar
  generalize c.val.toNat = m at hlt
  generalize d.val.toNat = n at hlt hd
  have hdigit := div_lt_div_or hlt
  have hdigit' := div_lt_div_or (m := m / 64) (n := n / 64)
  have hdigit'' := div_lt_div_or (m := m / 64 / 64) (n := n / 64 / 64)
  simp only [Nat.div_div_eq_div_mul, Nat.reduceMul] at hdigit' hdigit''
  have htop : m / 262144 % 8 = m / 262144 := Nat.mod_eq_of_lt (by omega)
  have htop' : n / 262144 % 8 = n / 262144 := Nat.mod_eq_of_lt (by omega)
  dsimp only
  -- one case for each two lengths of the characters
  repeat' split
  all_goals
    simp (disch := omega) only [List.cons_append, List.nil_append, List.cons_lt_cons_iff,
      UInt8.lt_iff_toNat_lt, ← UInt8.toNat_inj, toNat_ofNat_of_lt]
    omega

theorem flatMap_utf8EncodeChar_lt {cs ds : List Char} (h : cs < ds) :
    cs.flatMap String.utf8EncodeChar < ds.flatMap String.utf8EncodeChar := by
  induction cs generalizing ds with
  | nil =>
    cases ds with
    | nil => exact absurd h (List.lt_irrefl _)
    | cons d ds =>
      rw [List.flatMap_nil, List.flatMap_cons]
      cases hd : String.utf8EncodeChar d with
      | nil => exact absurd hd String.utf8EncodeChar_ne_nil
      | cons b bytes => exact List.nil_lt_cons b _
  | cons c cs ih =>
    cases ds with
    | nil => exact absurd h (List.not_lt_nil _)
    | cons d ds =>
      rw [List.flatMap_cons, List.flatMap_cons]
      rcases List.cons_lt_cons_iff.mp h with hcd | ⟨rfl, htail⟩
      · exact utf8EncodeChar_append_lt hcd _ _
      · exact List.append_left_lt (ih htail)

/-- **The bytes of the smaller of two texts come first.** -/
theorem encode_lt_encode {s t : String} (h : s < t) : encode s < encode t :=
  flatMap_utf8EncodeChar_lt h

end RecordLog.Utf8
