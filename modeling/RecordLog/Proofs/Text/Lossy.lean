import Mathlib.Algebra.GroupWithZero.Nat
import RecordLog.Text.Utf8.RoundTrip

/-! # The first character of any bytes

Bytes above the ASCII range may spell anything or nothing, but they spell no ASCII character, and
none of them is passed over in silence.  So the first character of bytes tells the first byte where
that is ASCII, and tells that it is not where it is not.

* `Begun.Sound`: what a begun character may come to is a character above the ASCII range.
* `head?_decodeLossy_of_lt`: the first character of bytes that begin with an ASCII byte.
* `exists_head?_decodeLossy`: the first character of bytes that begin with another.
-/

namespace RecordLog.Utf8

/-! ## Characters begun -/

namespace Begun

/-- The least number that a begun character may come to. -/
def least (c : Begun) : Nat :=
  (c.bits * 64 + c.low % 64) * 64 ^ (c.due - 1)

/-- All numbers that a begun character may come to lie below this one. -/
def bound (c : Begun) : Nat :=
  (c.bits * 64 + c.high % 64 + 1) * 64 ^ (c.due - 1)

/-- All that a begun character may come to are characters above the ASCII range. -/
structure Sound (c : Begun) : Prop where
  le_low : 0x80 ≤ c.low
  high_le : c.high ≤ 0xBF
  le_least : 0x80 ≤ c.least
  valid : c.bound ≤ 0xD800 ∨ 0xE000 ≤ c.least ∧ c.bound ≤ 0x110000

/-- **The first byte of a character leaves only characters to come to.** -/
theorem sound_ofLead? {n : Nat} {c : Begun} (h : ofLead? n = some c) : c.Sound := by
  unfold ofLead? at h
  -- one case for each class of first bytes
  repeat' split at h
  all_goals cases h
  all_goals
    constructor <;> simp only [least, bound, Nat.reduceMod, Nat.reduceSub, Nat.reducePow] <;> omega

variable {c : Begun} {n : Nat}

theorem Sound.mod_le (h : c.Sound) (hl : c.low ≤ n) (hh : n ≤ c.high) :
    c.low % 64 ≤ n % 64 ∧ n % 64 ≤ c.high % 64 := by
  have := h.le_low
  have := h.high_le
  omega

/-- **A further byte leaves fewer of them.** -/
theorem Sound.more (h : c.Sound) (hl : c.low ≤ n) (hh : n ≤ c.high) (hd : 1 < c.due) :
    Sound ⟨c.bits * 64 + n % 64, c.due - 1, 0x80, 0xBF⟩ := by
  obtain ⟨hlow, hhigh⟩ := h.mod_le hl hh
  have hpow : 64 ^ (c.due - 1) = 64 * 64 ^ (c.due - 1 - 1) := by
    rw [← Nat.pow_succ']
    congr 1
    omega
  have hleast : c.least ≤ least ⟨c.bits * 64 + n % 64, c.due - 1, 0x80, 0xBF⟩ := by
    simp only [least, hpow, ← Nat.mul_assoc]
    exact Nat.mul_le_mul_right _ (by omega)
  have hbound : bound ⟨c.bits * 64 + n % 64, c.due - 1, 0x80, 0xBF⟩ ≤ c.bound := by
    simp only [bound, hpow, ← Nat.mul_assoc]
    exact Nat.mul_le_mul_right _ (by omega)
  have hvalid := h.valid
  exact ⟨Nat.le_refl _, Nat.le_refl _, Nat.le_trans h.le_least hleast, by omega⟩

theorem Sound.last (h : c.Sound) (hl : c.low ≤ n) (hh : n ≤ c.high) (hd : c.due ≤ 1) :
    0x80 ≤ (Char.ofNat (c.bits * 64 + n % 64)).toNat := by
  obtain ⟨hlow, hhigh⟩ := h.mod_le hl hh
  have hleast := h.le_least
  have hvalid := h.valid
  simp only [least, bound, show c.due - 1 = 0 by omega, Nat.pow_zero, Nat.mul_one] at hleast hvalid
  have hchar : (c.bits * 64 + n % 64).isValidChar := by
    unfold Nat.isValidChar
    omega
  rw [toNat_charOfNat hchar]
  omega

end Begun

/-! ## The first character -/

namespace Decoder

variable {d : Decoder} {c : Char}

theorem getLast?_cons_of {w : List Char} (h : w.getLast? = some c) (d : Char) :
    (d :: w).getLast? = some c := by
  rw [List.getLast?_cons, h]
  rfl

theorem getLast?_lead {w : List Char} (h : w.getLast? = some c) (b : UInt8) :
    (lead w b).written.getLast? = some c := by
  unfold lead
  split
  · exact getLast?_cons_of h _
  · split
    · exact h
    · exact getLast?_cons_of h _

theorem getLast?_step (h : d.written.getLast? = some c) (b : UInt8) :
    (d.step b).written.getLast? = some c := by
  unfold step
  split
  · exact getLast?_lead h b
  · split
    · dsimp only
      split
      · exact getLast?_cons_of h _
      · exact h
    · exact getLast?_lead (getLast?_cons_of h _) b

theorem head?_finish (h : d.written.getLast? = some c) : d.finish.head? = some c := by
  unfold finish
  split
  · rw [List.head?_reverse, h]
  · rw [List.head?_reverse, getLast?_cons_of h]

theorem head?_finish_foldl (h : d.written.getLast? = some c) (bytes : Bytes) :
    (bytes.foldl step d).finish.head? = some c := by
  induction bytes generalizing d with
  | nil => exact head?_finish h
  | cons b bytes ih => exact ih (getLast?_step h b)

theorem exists_head?_finish_foldl {begun : Begun} (h : begun.Sound) (bytes : Bytes) :
    ∃ c, (bytes.foldl step { begun := some begun }).finish.head? = some c ∧ 0x80 ≤ c.toNat := by
  induction bytes generalizing begun with
  | nil => exact ⟨replacement, rfl, by decide⟩
  | cons b bytes ih =>
    rw [List.foldl_cons, step]
    split
    · next hnone => cases hnone
    next c hc =>
      obtain rfl := Option.some.inj hc
      split
      next hrange =>
        dsimp only
        split
        next hdue => exact ⟨_, head?_finish_foldl rfl bytes, h.last hrange.1 hrange.2 hdue⟩
        next hdue => exact ih (h.more hrange.1 hrange.2 (by omega))
      next =>
        have hlead : (lead [replacement] b).written.getLast? = some replacement :=
          getLast?_lead rfl b
        exact ⟨replacement, head?_finish_foldl hlead bytes, by decide⟩

end Decoder

/-- **An ASCII byte at the beginning is the first character.** -/
theorem head?_decodeLossy_of_lt {b : UInt8} (hb : b.toNat < 0x80) (bytes : Bytes) :
    (decodeLossy (b :: bytes)).toList.head? = some (Char.ofNat b.toNat) := by
  rw [decodeLossy, String.toList_ofList, List.foldl_cons]
  refine Decoder.head?_finish_foldl ?_ bytes
  show (Decoder.lead [] b).written.getLast? = _
  rw [Decoder.lead, if_pos hb]
  rfl

/-- **Another byte at the beginning is part of a first character above the ASCII range.** -/
theorem exists_head?_decodeLossy {b : UInt8} (hb : 0x80 ≤ b.toNat) (bytes : Bytes) :
    ∃ c, (decodeLossy (b :: bytes)).toList.head? = some c ∧ 0x80 ≤ c.toNat := by
  rw [decodeLossy, String.toList_ofList, List.foldl_cons]
  show ∃ c, (bytes.foldl Decoder.step (Decoder.lead [] b)).finish.head? = some c ∧ _
  rw [Decoder.lead, if_neg (by omega)]
  cases hlead : Begun.ofLead? b.toNat with
  | none => exact ⟨replacement, Decoder.head?_finish_foldl rfl bytes, by decide⟩
  | some begun => exact Decoder.exists_head?_finish_foldl (Begun.sound_ofLead? hlead) bytes

end RecordLog.Utf8
