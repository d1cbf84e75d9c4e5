import RecordLog.Proofs.Search.Attempts

/-! # Searches begun later

A search sees nothing of what stands before it.  Begun later, but not behind the record that an
earlier search found, it goes through what the earlier one still had before it, and so it finds the
same record.  The exception is a search begun within an object that the earlier one passed over
whole: there it looks at braces which the earlier one did not.

* `PassedOver`: an index lies within an object that a search passed over.
* `find?_eq_map_drop`: of a search and one begun `k` bytes later.
* `decodeAt_of_not_passedOver`: the same of searches from two indices of a buffer.
-/

namespace RecordLog

open Format

/-- The attempt came upon an object of which a name may not be written, and `k` bytes from the start
of the search lies a byte of it: one behind its opening brace, up to its closing brace. -/
def Attempt.passesOver (t : Attempt) (k : Nat) : Bool :=
  match t.verdict with
  | .reserved length => t.offset < k && k < t.offset + length
  | .record _ _ | .malformed | .truncated => false

/-- The search passes over an object whole, and `k` bytes from its start it is within that. -/
def PassedOver (bytes : Bytes) (k : Nat) : Prop :=
  ∃ t ∈ attempts bytes, t.passesOver k

instance (bytes : Bytes) (k : Nat) : Decidable (PassedOver bytes k) :=
  inferInstanceAs (Decidable (∃ t ∈ _, _))

/-! ## What a search passes over -/

theorem Attempt.passesOver_shift (n k : Nat) (t : Attempt) :
    (t.shift n).passesOver (n + k) = t.passesOver k := by
  have hverdict : (t.shift n).verdict = t.verdict := rfl
  rw [passesOver, passesOver, hverdict]
  cases t.verdict with
  | reserved length => simp only [shift, Nat.add_lt_add_iff_left, Nat.add_assoc]
  | _ => rfl

theorem PassedOver.of_map_shift {bytes rest : Bytes} {n k : Nat}
    (hmem : ∀ t ∈ (attempts rest).map (Attempt.shift n), t ∈ attempts bytes)
    (h : PassedOver rest k) : PassedOver bytes (n + k) := by
  obtain ⟨t, ht, hpasses⟩ := h
  exact ⟨t.shift n, hmem _ (List.mem_map_of_mem ht), by rwa [Attempt.passesOver_shift]⟩

theorem PassedOver.cons {b : UInt8} {bytes : Bytes} {k : Nat}
    (hrefuses : (inspect (b :: bytes)).Refuses) (h : PassedOver bytes k) :
    PassedOver (b :: bytes) (k + 1) := by
  rw [Nat.add_comm]
  refine h.of_map_shift fun t ht => ?_
  by_cases hb : b = openBrace
  · subst hb
    rw [attempts_cons_of_refuses hrefuses]
    exact List.mem_cons_of_mem _ ht
  · rwa [attempts_cons_of_ne hb]

section

variable {written : Bytes} {ms : List RawMember}

theorem PassedOver.append (hobject : IsObject written ms) (hw : ¬ Writable ms) {rest : Bytes}
    {k : Nat} (h : PassedOver rest k) : PassedOver (written ++ rest) (written.length + k) := by
  refine h.of_map_shift fun t ht => ?_
  rw [attempts_append_of_isObject hobject, if_neg hw]
  exact List.mem_cons_of_mem _ ht

theorem passedOver_of_lt (hobject : IsObject written ms) (hw : ¬ Writable ms) (rest : Bytes)
    {k : Nat} (hpos : 0 < k) (hlt : k < written.length) : PassedOver (written ++ rest) k := by
  let first : Attempt := { offset := 0, bytes := written ++ rest }
  have hverdict : first.verdict = .reserved written.length := by
    rw [Attempt.verdict, inspect_append hobject, if_neg hw]
  refine ⟨first, ?_, ?_⟩
  · rw [attempts_append_of_isObject hobject]
    exact List.mem_cons_self
  · rw [Attempt.passesOver, hverdict]
    simp only [first, Nat.zero_add, hpos, hlt, decide_true, Bool.and_self]

end

/-! ## Two searches -/

/-- **A search begun later finds the same record**, where it is not begun behind that record or
within an object that was passed over. -/
theorem find?_eq_map_drop {bytes : Bytes} {k : Nat} (hpassed : ¬ PassedOver bytes k)
    (hbefore : ∀ found, find? bytes = some found → k ≤ found.span.offset) :
    find? bytes = (find? (bytes.drop k)).map (Located.shift k) := by
  induction bytes using search_induction generalizing k with
  | nil =>
    rw [List.drop_nil]
    rfl
  | refuses b bytes h ih =>
    cases k with
    | zero => rw [List.drop_zero, Located.map_shift_zero]
    | succ k =>
      rw [find?_cons_of_refuses h] at hbefore
      have hrest : find? bytes = (find? (bytes.drop k)).map (Located.shift k) := by
        refine ih (mt (PassedOver.cons h) hpassed) fun found hfound => ?_
        have hle := hbefore (found.shift 1) (by rw [hfound, Option.map_some])
        rw [Located.shift_offset] at hle
        omega
      rw [find?_cons_of_refuses h, List.drop_succ_cons, hrest, Located.map_shift_map_shift,
        Nat.add_comm]
  | record written ms rest hobject hw =>
    -- the record stands at the start of the first search, so the second begins there too
    rw [find?_append_of_isObject hobject, if_pos hw] at hbefore
    obtain rfl := Nat.le_zero.mp (hbefore _ rfl)
    rw [List.drop_zero, Located.map_shift_zero]
  | reserved written ms rest hobject hw ih =>
    rw [find?_append_of_isObject hobject, if_neg hw] at hbefore
    rcases Nat.eq_zero_or_pos k with rfl | hpos
    · rw [List.drop_zero, Located.map_shift_zero]
    rcases Nat.lt_or_ge k written.length with hlt | hge
    · exact absurd (passedOver_of_lt hobject hw rest hpos hlt) hpassed
    obtain ⟨k, rfl⟩ := Nat.exists_eq_add_of_le hge
    have hrest : find? rest = (find? (rest.drop k)).map (Located.shift k) := by
      refine ih (mt (PassedOver.append hobject hw) hpassed) fun found hfound => ?_
      have hle := hbefore (found.shift written.length) (by rw [hfound, Option.map_some])
      rw [Located.shift_offset] at hle
      omega
    rw [find?_append_of_isObject hobject, if_neg hw, hrest, Located.map_shift_map_shift,
      ← List.drop_drop, List.drop_left]

/-- **What a search finds depends on what lies before it, and not on where in a gap it begins.**
Bytes before its start play no part.  Begun later, but not behind the record it finds and not within
a reserved object that it passes over, it finds that record, at an offset that counts from where it
begins; and nothing, if it finds nothing. -/
theorem decodeAt_of_not_passedOver :
    (∀ before bytes : Bytes, decodeAt (before ++ bytes) before.length = decodeAt bytes 0) ∧
    ∀ (buffer : Bytes) (start later : Nat), start ≤ later →
      ¬ PassedOver (buffer.drop start) (later - start) →
      (∀ found, decodeAt buffer start = some found → later ≤ start + found.span.offset →
        decodeAt buffer later = some
          { fields := found.fields
            span := { offset := start + found.span.offset - later
                      length := found.span.length } }) ∧
      (decodeAt buffer start = none → decodeAt buffer later = none) := by
  refine ⟨fun before bytes => ?_, fun buffer start later hle hpassed => ?_⟩
  · rw [decodeAt, decodeAt, List.drop_left, List.drop_zero]
  have hdrop : (buffer.drop start).drop (later - start) = buffer.drop later := by
    rw [List.drop_drop, Nat.add_sub_cancel' hle]
  refine ⟨fun found hfound hbefore => ?_, fun hnone => ?_⟩
  · have hfind := find?_eq_map_drop hpassed fun first hfirst => by
      obtain rfl := Option.some.inj (hfirst.symm.trans hfound)
      omega
    rw [decodeAt] at hfound
    rw [hfound, hdrop] at hfind
    obtain ⟨same, hsame, rfl⟩ := Option.map_eq_some_iff.mp hfind.symm
    have hoffset : start + (same.shift (later - start)).span.offset - later = same.span.offset := by
      rw [Located.shift_offset]
      omega
    rw [decodeAt, hsame, hoffset]
    rfl
  · have hfind := find?_eq_map_drop hpassed fun first hfirst => by
      cases hfirst.symm.trans hnone
    rw [decodeAt] at hnone
    rw [hnone, hdrop] at hfind
    exact Option.map_eq_none_iff.mp hfind.symm

/-- A stray byte, a reserved object with braces in a value, a blank and a record: searches from the
stray byte, from the blank, and from behind the record. -/
theorem decodeAt_of_not_passedOver_reserved : ∃ (buffer : Bytes) (found : Located),
    buffer = Utf8.encode "x\x7b\"_\":\"\x7b\x7d\"\x7d \x7b\"a\":\"b\"\x7d" ∧
    decodeAt buffer 0 = some found ∧ found.span = { offset := 12, length := 9 } ∧
    ¬ PassedOver (buffer.drop 0) (11 - 0) ∧
    decodeAt buffer 11 = some { fields := found.fields, span := { offset := 1, length := 9 } } ∧
    ¬ PassedOver (buffer.drop 13) (20 - 13) ∧
    decodeAt buffer 13 = none ∧ decodeAt buffer 20 = none := by
  let buffer : Bytes := Utf8.encode "x\x7b\"_\":\"\x7b\x7d\"\x7d \x7b\"a\":\"b\"\x7d"
  have hspan : (decodeAt buffer 0).map Located.span = some { offset := 12, length := 9 } := by
    decide +kernel
  obtain ⟨found, hfound, hlocated⟩ := Option.map_eq_some_iff.mp hspan
  have hblank : ¬ PassedOver (buffer.drop 0) (11 - 0) := by decide +kernel
  have hbehind : ¬ PassedOver (buffer.drop 13) (20 - 13) := by decide +kernel
  have hnone : decodeAt buffer 13 = none := by
    have hsome : (decodeAt buffer 13).isNone = true := by decide +kernel
    exact Option.isNone_iff_eq_none.mp hsome
  have hlater := (decodeAt_of_not_passedOver.2 buffer 0 11 (by decide) hblank).1 found hfound
    (by rw [hlocated]; decide)
  rw [hlocated] at hlater
  exact ⟨buffer, found, rfl, hfound, hlocated, hblank, hlater, hbehind, hnone,
    (decodeAt_of_not_passedOver.2 buffer 13 20 (by decide) hbehind).2 hnone⟩

/-- Begun within a reserved object, a search may find what stands in its values. -/
example : (decodeAt (Utf8.encode "\x7b\"_\":\"\x7b\x7d\"\x7d") 0).map Located.span = none ∧
    (decodeAt (Utf8.encode "\x7b\"_\":\"\x7b\x7d\"\x7d") 1).map Located.span =
      some { offset := 5, length := 2 } := by
  decide +kernel

end RecordLog
