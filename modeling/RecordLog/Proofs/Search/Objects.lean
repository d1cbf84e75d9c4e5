import RecordLog.Proofs.Format.Completion
import RecordLog.Search

/-! # What stands at an opening brace

`inspect` says what it is by a reading.  This file says it by the grammar alone: an object and its
members, or nothing.

* `ObjectAt`: the bytes from one index of a buffer to another are an object.
* `ObjectAt.unique`: an object that begins at an index ends at one index and has one list of
  members.
* `inspect_append`: what is made of an object, by its names.
* `inspect_drop`: at every index of every buffer, `inspect` agrees with the grammar.
-/

namespace RecordLog

open Format

/-- The fields of some members, set from left to right, so that the last of two with one name
stands. -/
def fieldsOf (ms : List RawMember) : Fields :=
  ms.foldl (fun fields m => fields.insert (Utf8.decodeLossy m.1) (Utf8.decodeLossy m.2)) ∅

/-- Every name may be written: none is empty or reserved. -/
def Writable (ms : List RawMember) : Prop :=
  ∀ m ∈ ms, FieldName.Valid (Utf8.decodeLossy m.1)

instance (ms : List RawMember) : Decidable (Writable ms) :=
  inferInstanceAs (Decidable (∀ _ ∈ _, _))

/-- The verdict that no object stands here: a byte fits none, or the bytes end within one. -/
def Verdict.Refuses (v : Verdict) : Prop :=
  v = .malformed ∨ v = .truncated

/-! ## Bytes that begin with an object -/

theorem ofList_map_fieldOf (ms : List RawMember) :
    (.ofList (ms.map fieldOf) : Fields) = fieldsOf ms := by
  rw [Std.ExtTreeMap.ofList_eq_foldl, List.foldl_map]
  rfl

theorem inspect_append {written : Bytes} {ms : List RawMember} (h : IsObject written ms)
    (rest : Bytes) : inspect (written ++ rest) =
      if Writable ms then .record (fieldsOf ms) written.length else .reserved written.length := by
  have hnames : (∀ f ∈ ms.map fieldOf, FieldName.Valid f.1) ↔ Writable ms := by
    rw [List.forall_mem_map]
    rfl
  rw [inspect, h.read_append]
  simp only [ofList_map_fieldOf]
  by_cases hw : Writable ms
  · rw [if_pos (hnames.mpr hw), if_pos hw]
  · rw [if_neg (mt hnames.mp hw), if_neg hw]

theorem inspect_refuses_iff {bytes : Bytes} :
    (inspect bytes).Refuses ↔ ∀ ms n, Format.read bytes ≠ .object ms n := by
  constructor
  · intro h ms n hread
    obtain ⟨written, rest, rfl, -, hobject⟩ := read_eq_object_iff.mp hread
    rw [inspect_append hobject] at h
    by_cases hw : Writable ms
    · rw [if_pos hw] at h
      rcases h with h | h <;> cases h
    · rw [if_neg hw] at h
      rcases h with h | h <;> cases h
  · intro h
    rw [inspect]
    cases hread : Format.read bytes with
    | object ms n => exact absurd hread (h ms n)
    | malformed => exact .inl rfl
    | truncated => exact .inr rfl

theorem inspect_refuses {bytes : Bytes}
    (h : ∀ written rest ms, bytes = written ++ rest → ¬ IsObject written ms) :
    (inspect bytes).Refuses := by
  refine inspect_refuses_iff.mpr fun ms n hread => ?_
  obtain ⟨written, rest, e, -, hobject⟩ := read_eq_object_iff.mp hread
  exact h written rest ms e hobject

theorem inspect_refuses_or (bytes : Bytes) : (inspect bytes).Refuses ∨
    ∃ written rest ms, bytes = written ++ rest ∧ IsObject written ms := by
  by_cases h : ∃ written rest ms, bytes = written ++ rest ∧ IsObject written ms
  · exact .inr h
  · exact .inl (inspect_refuses fun written rest ms e hobject => h ⟨written, rest, ms, e, hobject⟩)

theorem of_inspect_eq_reserved {bytes : Bytes} {n : Nat} (h : inspect bytes = .reserved n) :
    ∃ written rest ms, bytes = written ++ rest ∧ IsObject written ms ∧ ¬ Writable ms ∧
      n = written.length := by
  rcases inspect_refuses_or bytes with hno | ⟨written, rest, ms, rfl, hobject⟩
  · rw [h] at hno
    rcases hno with hno | hno <;> cases hno
  · rw [inspect_append hobject] at h
    by_cases hw : Writable ms
    · rw [if_pos hw] at h
      cases h
    · rw [if_neg hw] at h
      obtain rfl := Verdict.reserved.inj h
      exact ⟨written, rest, ms, rfl, hobject, hw, rfl⟩

/-! ## Objects in a buffer -/

/-- The bytes from the index `first` to the index `last` of a buffer are an object. -/
def ObjectAt (buffer : Bytes) (first last : Nat) (ms : List RawMember) : Prop :=
  last < buffer.length ∧ IsObject (buffer.extract first (last + 1)) ms

theorem objectAt_iff {buffer : Bytes} {first last : Nat} {ms : List RawMember} :
    ObjectAt buffer first last ms ↔ ∃ written rest, buffer.drop first = written ++ rest ∧
      IsObject written ms ∧ last + 1 = first + written.length := by
  rw [ObjectAt, List.extract_eq_take_drop]
  constructor
  · rintro ⟨hlast, h⟩
    refine ⟨_, _, (List.take_append_drop (last + 1 - first) (buffer.drop first)).symm, h, ?_⟩
    obtain ⟨rest, e, -⟩ := isObject_iff.mp h
    have hlength := congrArg List.length e
    simp only [List.length_take, List.length_drop, List.length_cons] at hlength ⊢
    omega
  · rintro ⟨written, rest, e, h, hlast⟩
    have hlength := congrArg List.length e
    obtain ⟨tail, rfl, -⟩ := isObject_iff.mp h
    simp only [List.length_drop, List.length_append, List.length_cons] at hlength hlast
    refine ⟨by omega, ?_⟩
    rw [e, hlast, Nat.add_sub_cancel_left, ← List.length_cons, List.take_left]
    exact h

theorem ObjectAt.first_le {buffer : Bytes} {first last : Nat} {ms : List RawMember}
    (h : ObjectAt buffer first last ms) : first ≤ last := by
  obtain ⟨written, rest, -, hobject, hlast⟩ := objectAt_iff.mp h
  obtain ⟨tail, rfl, -⟩ := isObject_iff.mp hobject
  simp only [List.length_cons] at hlast
  omega

/-- **An object that begins at an index has one end and one list of members.** -/
theorem ObjectAt.unique {buffer : Bytes} {first last last' : Nat} {ms ms' : List RawMember}
    (h : ObjectAt buffer first last ms) (h' : ObjectAt buffer first last' ms') :
    last = last' ∧ ms = ms' := by
  obtain ⟨written, rest, e, hobject, hlast⟩ := objectAt_iff.mp h
  obtain ⟨written', rest', e', hobject', hlast'⟩ := objectAt_iff.mp h'
  obtain ⟨rfl, rfl⟩ := hobject.eq_of_append_eq hobject' (e.symm.trans e')
  exact ⟨by omega, rfl⟩

theorem inspect_drop_of_objectAt {buffer : Bytes} {first last : Nat} {ms : List RawMember}
    (h : ObjectAt buffer first last ms) : inspect (buffer.drop first) =
      if Writable ms then .record (fieldsOf ms) (last + 1 - first)
      else .reserved (last + 1 - first) := by
  obtain ⟨written, rest, e, hobject, hlast⟩ := objectAt_iff.mp h
  rw [e, inspect_append hobject, hlast, Nat.add_sub_cancel_left]

theorem inspect_drop_refuses {buffer : Bytes} {first : Nat}
    (h : ∀ last ms, ¬ ObjectAt buffer first last ms) : (inspect (buffer.drop first)).Refuses := by
  refine inspect_refuses fun written rest ms e hobject => ?_
  obtain ⟨tail, rfl, -⟩ := isObject_iff.mp hobject
  exact h (first + tail.length) ms (objectAt_iff.mpr ⟨_, rest, e, hobject, rfl⟩)

/-- **What stands at an index is decided by the grammar.**  An object that begins there ends at one
index and has one list of members.  Where none begins, none is found.  Where one does, it is found
with its end: as reserved if one of its names is empty or reserved, and else as a record with the
fields of its members. -/
theorem inspect_drop (buffer : Bytes) (first : Nat) :
    (∀ last last' ms ms', ObjectAt buffer first last ms → ObjectAt buffer first last' ms' →
      last = last' ∧ ms = ms') ∧
    ((∀ last ms, ¬ ObjectAt buffer first last ms) → (inspect (buffer.drop first)).Refuses) ∧
    (∀ last ms, ObjectAt buffer first last ms → inspect (buffer.drop first) =
      if ∃ m ∈ ms, ¬ FieldName.Valid (Utf8.decodeLossy m.1) then .reserved (last + 1 - first)
      else .record (fieldsOf ms) (last + 1 - first)) := by
  refine ⟨fun last last' ms ms' h h' => h.unique h', inspect_drop_refuses, fun last ms h => ?_⟩
  rw [inspect_drop_of_objectAt h]
  by_cases hw : Writable ms
  · rw [if_pos hw, if_neg (by rintro ⟨m, hm, hname⟩; exact hname (hw m hm))]
  · rw [if_neg hw, if_pos (by simpa [Writable] using hw)]

end RecordLog
