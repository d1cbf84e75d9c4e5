import RecordLog.Proofs.Search.Objects

/-! # A search, one index at a time

`findFrom` carries how many bytes were passed over and how many are still to be.  Here a search is
told by searches of what is left: the record is the same, and the bytes passed over add to its
offset.

* `Located.shift`: a record found behind further bytes.
* `find?_cons_of_refuses`, `find?_append_of_isObject`: what a search does first.
* `search_induction`: induction along a search.
* `find?_append_of_not_mem`: bytes without an opening brace are passed over.
* `exists_of_find?_eq_some`: a found record is an object, behind the bytes passed over.
* `reach_le_of_find?`: a found record lies within the bytes.
-/

namespace RecordLog

open Format

/-- A found record as seen from `n` bytes before. -/
def Located.shift (n : Nat) (found : Located) : Located :=
  { found with span := { found.span with offset := n + found.span.offset } }

namespace Located

@[simp] theorem shift_fields (n : Nat) (found : Located) : (found.shift n).fields = found.fields :=
  rfl

@[simp] theorem shift_offset (n : Nat) (found : Located) :
    (found.shift n).span.offset = n + found.span.offset := rfl

@[simp] theorem shift_length (n : Nat) (found : Located) :
    (found.shift n).span.length = found.span.length := rfl

@[simp] theorem shift_reach (n : Nat) (found : Located) :
    (found.shift n).span.reach = n + found.span.reach := by
  simp only [Span.reach, shift_offset, shift_length]
  omega

theorem shift_shift (m n : Nat) (found : Located) :
    (found.shift n).shift m = found.shift (m + n) := by
  simp only [shift, Nat.add_assoc]

theorem shift_zero (found : Located) : found.shift 0 = found := by
  simp only [shift, Nat.zero_add]

theorem map_shift_map_shift (m n : Nat) (found : Option Located) :
    (found.map (shift n)).map (shift m) = found.map (shift (m + n)) := by
  rw [Option.map_map]
  congr 1
  funext f
  exact shift_shift m n f

theorem map_shift_zero (found : Option Located) : found.map (shift 0) = found := by
  cases found with
  | none => rfl
  | some f => rw [Option.map_some, shift_zero]

end Located

/-! ## Bytes passed over -/

theorem findFrom_add (n : Nat) (bytes : Bytes) : ∀ passed skip : Nat,
    findFrom (n + passed) skip bytes = (findFrom passed skip bytes).map (Located.shift n) := by
  induction bytes with
  | nil => intro passed skip; rfl
  | cons b bytes ih =>
    intro passed skip
    cases skip with
    | succ skip =>
      rw [findFrom, findFrom]
      exact ih (passed + 1) skip
    | zero =>
      rw [findFrom, findFrom]
      by_cases hb : b = openBrace
      · rw [if_pos hb, if_pos hb]
        cases inspect (b :: bytes) with
        | record fields length => rfl
        | reserved length => exact ih (passed + 1) (length - 1)
        | malformed => exact ih (passed + 1) 0
        | truncated => exact ih (passed + 1) 0
      · rw [if_neg hb, if_neg hb]
        exact ih (passed + 1) 0

theorem findFrom_eq (bytes : Bytes) : ∀ passed skip : Nat,
    findFrom passed skip bytes = (find? (bytes.drop skip)).map (Located.shift (passed + skip)) := by
  induction bytes with
  | nil =>
    intro passed skip
    rw [List.drop_nil]
    rfl
  | cons b bytes ih =>
    intro passed skip
    cases skip with
    | succ skip =>
      rw [findFrom, ih, List.drop_succ_cons, Nat.add_right_comm]
      rfl
    | zero =>
      -- no induction here: this is the search of `find?` itself, with `passed` bytes before it
      rw [List.drop_zero, find?, ← findFrom_add]
      rfl

/-! ## What a search does first -/

theorem inspect_cons_of_ne {b : UInt8} (hb : b ≠ openBrace) (bytes : Bytes) :
    inspect (b :: bytes) = .malformed := by
  rw [inspect, Format.read, if_neg hb]

theorem find?_nil : find? [] = none := rfl

theorem find?_cons (b : UInt8) (bytes : Bytes) :
    find? (b :: bytes) =
      match inspect (b :: bytes) with
      | .record fields n => some { fields, span := { offset := 0, length := n } }
      | .reserved n => (find? ((b :: bytes).drop n)).map (Located.shift n)
      | .malformed | .truncated => (find? bytes).map (Located.shift 1) := by
  rw [find?, findFrom]
  by_cases hb : b = openBrace
  · rw [if_pos hb]
    cases hinspect : inspect (b :: bytes) with
    | record fields n => rfl
    | reserved n =>
      obtain ⟨_, rest, ms, -, hobject, -, rfl⟩ := of_inspect_eq_reserved hinspect
      obtain ⟨tail, rfl, -⟩ := isObject_iff.mp hobject
      show findFrom 1 tail.length bytes = _
      rw [findFrom_eq, Nat.add_comm 1]
      rfl
    | malformed => exact findFrom_eq bytes 1 0
    | truncated => exact findFrom_eq bytes 1 0
  · rw [if_neg hb, inspect_cons_of_ne hb]
    exact findFrom_eq bytes 1 0

/-- **Where no object stands, one byte is passed over.** -/
theorem find?_cons_of_refuses {b : UInt8} {bytes : Bytes} (h : (inspect (b :: bytes)).Refuses) :
    find? (b :: bytes) = (find? bytes).map (Located.shift 1) := by
  rw [find?_cons]
  rcases h with h | h <;> rw [h]

/-- **An object is found, or passed over whole if one of its names may not be written.** -/
theorem find?_append_of_isObject {written : Bytes} {ms : List RawMember}
    (h : IsObject written ms) (rest : Bytes) :
    find? (written ++ rest) =
      if Writable ms then
        some { fields := fieldsOf ms, span := { offset := 0, length := written.length } }
      else (find? rest).map (Located.shift written.length) := by
  have hinspect := inspect_append h rest
  have hdrop : (written ++ rest).drop written.length = rest := List.drop_left
  obtain ⟨tail, rfl, -⟩ := isObject_iff.mp h
  rw [List.cons_append] at hinspect hdrop ⊢
  rw [find?_cons, hinspect]
  by_cases hw : Writable ms
  · rw [if_pos hw, if_pos hw]
  · rw [if_neg hw, if_neg hw]
    simp only [hdrop]

/-- Induction along a search: past a byte where no object stands, and past an object whose names
may not all be written. -/
theorem search_induction {motive : Bytes → Prop} (nil : motive [])
    (refuses : ∀ b bytes, (inspect (b :: bytes)).Refuses → motive bytes → motive (b :: bytes))
    (record : ∀ written ms rest, IsObject written ms → Writable ms → motive (written ++ rest))
    (reserved : ∀ written ms rest, IsObject written ms → ¬ Writable ms → motive rest →
      motive (written ++ rest)) (bytes : Bytes) : motive bytes := by
  induction hn : bytes.length using Nat.strongRecOn generalizing bytes with
  | ind n ih =>
    cases bytes with
    | nil => exact nil
    | cons b bytes =>
      rcases inspect_refuses_or (b :: bytes) with h | ⟨written, rest, ms, e, hobject⟩
      · exact refuses b bytes h (ih bytes.length (by rw [← hn]; exact Nat.lt_succ_self _) bytes rfl)
      · rw [e]
        by_cases hw : Writable ms
        · exact record written ms rest hobject hw
        · refine reserved written ms rest hobject hw (ih rest.length ?_ rest rfl)
          obtain ⟨tail, rfl, -⟩ := isObject_iff.mp hobject
          rw [← hn, e, List.length_append, List.length_cons]
          omega

/-! ## Bytes that hold no record -/

theorem find?_append_of_not_mem {gap : Bytes} (h : openBrace ∉ gap) (rest : Bytes) :
    find? (gap ++ rest) = (find? rest).map (Located.shift gap.length) := by
  induction gap with
  | nil => exact (Located.map_shift_zero _).symm
  | cons b gap ih =>
    obtain ⟨hb, hgap⟩ := not_or.mp (mt List.mem_cons.mpr h)
    rw [List.cons_append, find?_cons_of_refuses (.inl (inspect_cons_of_ne (Ne.symm hb) _)),
      ih hgap, Located.map_shift_map_shift, List.length_cons, Nat.add_comm]

theorem find?_of_not_mem {gap : Bytes} (h : openBrace ∉ gap) : find? gap = none := by
  rw [← List.append_nil gap, find?_append_of_not_mem h, find?_nil, Option.map_none]

/-! ## Where a record was found -/

/-- **A found record is an object** behind as many bytes as its offset tells, and has the fields of
its members. -/
theorem exists_of_find?_eq_some {bytes : Bytes} {found : Located} (h : find? bytes = some found) :
    ∃ gap written rest ms, bytes = gap ++ (written ++ rest) ∧ IsObject written ms ∧ Writable ms ∧
      found = ⟨fieldsOf ms, { offset := gap.length, length := written.length }⟩ := by
  induction bytes using search_induction generalizing found with
  | nil => cases h
  | refuses b bytes hrefuses ih =>
    rw [find?_cons_of_refuses hrefuses] at h
    obtain ⟨found', hfound', rfl⟩ := Option.map_eq_some_iff.mp h
    obtain ⟨gap, written, rest, ms, rfl, hobject, hw, rfl⟩ := ih hfound'
    refine ⟨b :: gap, written, rest, ms, rfl, hobject, hw, ?_⟩
    rw [Located.shift, List.length_cons, Nat.add_comm]
  | record written ms rest hobject hw =>
    rw [find?_append_of_isObject hobject, if_pos hw] at h
    exact ⟨[], written, rest, ms, rfl, hobject, hw, (Option.some.inj h).symm⟩
  | reserved reserved _ rest hreserved hnot ih =>
    rw [find?_append_of_isObject hreserved, if_neg hnot] at h
    obtain ⟨found', hfound', rfl⟩ := Option.map_eq_some_iff.mp h
    obtain ⟨gap, written, rest, ms, rfl, hobject, hw, rfl⟩ := ih hfound'
    refine ⟨reserved ++ gap, written, rest, ms, (List.append_assoc _ _ _).symm, hobject, hw, ?_⟩
    rw [Located.shift, List.length_append]

theorem reach_le_of_find? {bytes : Bytes} {found : Located} (h : find? bytes = some found) :
    found.span.reach ≤ bytes.length := by
  obtain ⟨gap, written, rest, ms, rfl, -, -, rfl⟩ := exists_of_find?_eq_some h
  rw [Span.reach]
  simp only [List.length_append]
  omega

theorem two_le_length_of_find? {bytes : Bytes} {found : Located} (h : find? bytes = some found) :
    2 ≤ found.span.length := by
  obtain ⟨gap, written, rest, ms, -, hobject, -, rfl⟩ := exists_of_find?_eq_some h
  exact hobject.two_le_length

theorem braces_of_find? {bytes : Bytes} {found : Located} (h : find? bytes = some found) :
    bytes[found.span.offset]? = some openBrace ∧
      bytes[found.span.offset + found.span.length - 1]? = some closeBrace := by
  obtain ⟨gap, written, rest, ms, rfl, hobject, -, rfl⟩ := exists_of_find?_eq_some h
  obtain ⟨between, rfl⟩ := hobject.exists_between
  constructor
  · simp
  · have hlast : gap.length + (openBrace :: between ++ [closeBrace]).length - 1 =
        (gap ++ openBrace :: between).length := by simp
    have hbytes : gap ++ (openBrace :: between ++ [closeBrace] ++ rest) =
        (gap ++ openBrace :: between) ++ closeBrace :: rest := by simp
    rw [hlast, hbytes, List.getElem?_append_right (Nat.le_refl _), Nat.sub_self]
    rfl

end RecordLog
