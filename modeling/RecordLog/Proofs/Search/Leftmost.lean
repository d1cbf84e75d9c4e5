import Mathlib.Data.Nat.Find
import RecordLog.Proofs.Search.Steps

/-! # A search finds the leftmost record

What a search is to find, said by the grammar and without a cursor: the leftmost object at or after
an index is the record, unless one of its names may not be written; then the search goes on behind
it, and nothing that begins within it is looked at.

* `Leftmost`: an object with none before it.
* `Finds`: what a search from an index is to find.
* `decodeAt_of_no_object`, `decodeAt_of_objectAt`: indices where nothing stands add to the offset,
  and an object ends the search or moves it.
* `decodeAt_eq_iff`: a search finds that, and nothing else.
-/

namespace RecordLog

open Format

/-- The leftmost object that begins at `start` or behind it. -/
structure Leftmost (buffer : Bytes) (start first last : Nat) (ms : List RawMember) : Prop where
  le : start ≤ first
  objectAt : ObjectAt buffer first last ms
  none_before : ∀ q, start ≤ q → q < first → ∀ last ms, ¬ ObjectAt buffer q last ms

/-- What a search from an index is to find. -/
inductive Finds (buffer : Bytes) : Nat → Option Located → Prop
  /-- There is no object. -/
  | nothing {start : Nat} : (∀ q, start ≤ q → ∀ last ms, ¬ ObjectAt buffer q last ms) →
      Finds buffer start none
  /-- The leftmost object is a record. -/
  | record {start first last : Nat} {ms : List RawMember} :
      Leftmost buffer start first last ms → Writable ms →
      Finds buffer start (some
        { fields := fieldsOf ms, span := { offset := first - start, length := last + 1 - first } })
  /-- One of its names is empty or reserved: what is found from behind it is found, with an offset
  that counts from `start`. -/
  | reserved {start first last : Nat} {ms : List RawMember} {found : Option Located} :
      Leftmost buffer start first last ms → ¬ Writable ms → Finds buffer (last + 1) found →
      Finds buffer start (found.map (Located.shift (last + 1 - start)))

theorem exists_leftmost {buffer : Bytes} {start q last : Nat} {ms : List RawMember}
    (hq : start ≤ q) (h : ObjectAt buffer q last ms) :
    ∃ first last ms, Leftmost buffer start first last ms := by
  classical
  have hex : ∃ q, start ≤ q ∧ ∃ last ms, ObjectAt buffer q last ms := ⟨q, hq, last, ms, h⟩
  obtain ⟨hle, last, ms, hobject⟩ := Nat.find_spec hex
  refine ⟨Nat.find hex, last, ms, hle, hobject, fun q' hq' hlt last' ms' h' => ?_⟩
  exact Nat.find_min hex hlt ⟨hq', last', ms', h'⟩

/-! ## Searches from two indices -/

theorem decodeAt_of_no_object {buffer : Bytes} {start first : Nat} (hle : start ≤ first)
    (h : ∀ q, start ≤ q → q < first → ∀ last ms, ¬ ObjectAt buffer q last ms) :
    decodeAt buffer start = (decodeAt buffer first).map (Located.shift (first - start)) := by
  induction first, hle using Nat.le_induction with
  | base => rw [Nat.sub_self, Located.map_shift_zero]
  | succ first hle ih =>
    rw [ih fun q hq hlt => h q hq (by omega)]
    have hstep : decodeAt buffer first =
        (decodeAt buffer (first + 1)).map (Located.shift 1) := by
      have hrefuses := inspect_drop_refuses (h first hle (Nat.lt_succ_self first))
      rw [decodeAt, decodeAt, ← List.drop_drop]
      cases hdrop : buffer.drop first with
      | nil => rfl
      | cons b bytes =>
        rw [hdrop] at hrefuses
        exact find?_cons_of_refuses hrefuses
    rw [hstep, Located.map_shift_map_shift]
    congr 2
    omega

theorem decodeAt_of_objectAt {buffer : Bytes} {first last : Nat} {ms : List RawMember}
    (h : ObjectAt buffer first last ms) : decodeAt buffer first =
      if Writable ms then
        some { fields := fieldsOf ms, span := { offset := 0, length := last + 1 - first } }
      else (decodeAt buffer (last + 1)).map (Located.shift (last + 1 - first)) := by
  obtain ⟨written, rest, e, hobject, hlast⟩ := objectAt_iff.mp h
  have hdrop : buffer.drop (last + 1) = rest := by
    rw [hlast, ← List.drop_drop, e, List.drop_left]
  rw [decodeAt, decodeAt, e, find?_append_of_isObject hobject, hdrop, hlast,
    Nat.add_sub_cancel_left]

theorem decodeAt_of_finds {buffer : Bytes} {start : Nat} {found : Option Located}
    (h : Finds buffer start found) : decodeAt buffer start = found := by
  induction h with
  | @nothing start hno =>
    rw [decodeAt_of_no_object (Nat.le_add_right start buffer.length)
      fun q hq _ => hno q hq, decodeAt, List.drop_eq_nil_of_le (Nat.le_add_left _ _), find?_nil]
    rfl
  | @record start first last ms hleft hw =>
    rw [decodeAt_of_no_object hleft.le hleft.none_before, decodeAt_of_objectAt hleft.objectAt,
      if_pos hw]
    rfl
  | @reserved start first last ms found hleft hw _ ih =>
    have hle := hleft.le
    have hfirst := hleft.objectAt.first_le
    rw [decodeAt_of_no_object hle hleft.none_before, decodeAt_of_objectAt hleft.objectAt, if_neg hw,
      ih, Located.map_shift_map_shift]
    congr 2
    omega

theorem exists_finds (buffer : Bytes) (start : Nat) : ∃ found, Finds buffer start found := by
  -- on how many bytes are left: a reserved object leaves fewer behind it
  induction hn : buffer.length - start using Nat.strong_induction_on generalizing start with
  | _ n ih =>
    by_cases h : ∃ q last ms, start ≤ q ∧ ObjectAt buffer q last ms
    · obtain ⟨q, last, ms, hq, hobject⟩ := h
      obtain ⟨first, last, ms, hleft⟩ := exists_leftmost hq hobject
      by_cases hw : Writable ms
      · exact ⟨_, .record hleft hw⟩
      · have hlt : buffer.length - (last + 1) < n := by
          have := hleft.le
          have := hleft.objectAt.first_le
          have := hleft.objectAt.1
          omega
        obtain ⟨found, hfound⟩ := ih _ hlt (last + 1) rfl
        exact ⟨_, .reserved hleft hw hfound⟩
    · exact ⟨none, .nothing fun q hq last ms hobject => h ⟨q, last, ms, hq, hobject⟩⟩

/-- **A search finds the leftmost record, as `Finds` tells it, and nothing else.** -/
theorem decodeAt_eq_iff {buffer : Bytes} {start : Nat} {found : Option Located} :
    decodeAt buffer start = found ↔ Finds buffer start found := by
  constructor
  · rintro rfl
    obtain ⟨found, h⟩ := exists_finds buffer start
    rwa [decodeAt_of_finds h]
  · exact decodeAt_of_finds

end RecordLog
