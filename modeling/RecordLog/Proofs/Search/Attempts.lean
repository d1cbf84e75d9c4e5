import RecordLog.Proofs.Cursor

/-! # The attempts of a search

A search tries to read an object at each opening brace it comes to, and most of what it does is to
give such an attempt up.  Here the attempts are listed, those that found nothing among them, so that
it can be said which of them met the end of the bytes.

* `attempts`: the attempts of one search, the last of which found the record if there is one.
* `allAttempts`: the attempts of all searches that go through a buffer record by record.
* `Attempt.decided`: the attempt ended before the bytes did.
* `attempts_standIn`: an attempt was made at an opening brace of the bytes.
* `pairwise_attempts`: each attempt was made behind the one before.
* `filterMap_attempts`: what the attempts of a search found is what the search found.
-/

namespace RecordLog

open Format

/-- An attempt to read an object: how many bytes the search had passed over before, and the bytes
from there on. -/
structure Attempt where
  offset : Nat
  bytes : Bytes

namespace Attempt

def verdict (t : Attempt) : Verdict :=
  inspect t.bytes

/-- An attempt as seen from `n` bytes before. -/
def shift (n : Nat) (t : Attempt) : Attempt :=
  { t with offset := n + t.offset }

/-- The record that an attempt found. -/
def found? (t : Attempt) : Option Located :=
  match t.verdict with
  | .record fields length => some { fields, span := { offset := t.offset, length } }
  | .reserved _ | .malformed | .truncated => none

/-- The attempt did not run out of bytes. -/
def decided (t : Attempt) : Bool :=
  match t.verdict with
  | .record _ _ | .reserved _ | .malformed => true
  | .truncated => false

theorem found?_shift (n : Nat) (t : Attempt) :
    (t.shift n).found? = t.found?.map (Located.shift n) := by
  have hverdict : (t.shift n).verdict = t.verdict := rfl
  rw [found?, found?, hverdict]
  cases t.verdict <;> rfl

theorem decided_of_found {t : Attempt} {found : Located} (h : t.found? = some found) :
    t.decided = true := by
  rw [found?] at h
  rw [decided]
  cases hverdict : t.verdict with
  | record fields length => rfl
  | reserved length => rfl
  | malformed => rfl
  | truncated =>
    rw [hverdict] at h
    cases h

theorem decided_iff {t : Attempt} : t.decided = true ↔ t.verdict ≠ .truncated := by
  rw [decided]
  cases t.verdict <;> simp

end Attempt

/-- The attempts of a search, up to the one that found a record. -/
def attempts : Bytes → List Attempt
  | [] => []
  | b :: rest =>
    if b = openBrace then
      { offset := 0, bytes := b :: rest } ::
        match inspect (b :: rest) with
        | .record _ _ => []
        | .reserved length => (attempts (rest.drop (length - 1))).map (Attempt.shift length)
        | .malformed | .truncated => (attempts rest).map (Attempt.shift 1)
    else (attempts rest).map (Attempt.shift 1)
  termination_by bytes => bytes.length

/-- The attempts of all searches through a buffer, each of which begins where a record ended. -/
def allAttempts (bytes : Bytes) : List Attempt :=
  attempts bytes ++
    match _h : find? bytes with
    | some found => allAttempts (bytes.drop found.span.reach)
    | none => []
  termination_by bytes.length
  decreasing_by exact length_drop_reach_lt _h

/-! ## What a search tries first -/

theorem attempts_nil : attempts [] = [] := by
  rw [attempts]

theorem attempts_cons_of_ne {b : UInt8} (hb : b ≠ openBrace) (bytes : Bytes) :
    attempts (b :: bytes) = (attempts bytes).map (Attempt.shift 1) := by
  rw [attempts, if_neg hb]

theorem attempts_cons_of_refuses {bytes : Bytes} (h : (inspect (openBrace :: bytes)).Refuses) :
    attempts (openBrace :: bytes) = { offset := 0, bytes := openBrace :: bytes } ::
      (attempts bytes).map (Attempt.shift 1) := by
  rw [attempts, if_pos rfl]
  rcases h with h | h <;> rw [h]

theorem attempts_append_of_isObject {written : Bytes} {ms : List RawMember}
    (h : IsObject written ms) (rest : Bytes) :
    attempts (written ++ rest) = { offset := 0, bytes := written ++ rest } ::
      if Writable ms then [] else (attempts rest).map (Attempt.shift written.length) := by
  have hinspect := inspect_append h rest
  obtain ⟨tail, rfl, -⟩ := isObject_iff.mp h
  rw [List.cons_append] at hinspect ⊢
  rw [attempts, if_pos rfl, hinspect]
  by_cases hw : Writable ms
  · rw [if_pos hw, if_pos hw]
  · rw [if_neg hw, if_neg hw]
    simp only [List.length_cons, Nat.add_sub_cancel, List.drop_left]

theorem Attempt.map_shift_map_shift (m n : Nat) (ts : List Attempt) :
    (ts.map (Attempt.shift n)).map (Attempt.shift m) = ts.map (Attempt.shift (m + n)) := by
  rw [List.map_map]
  refine List.map_congr_left fun t _ => ?_
  simp only [Function.comp_apply, shift, Nat.add_assoc]

theorem attempts_append_of_not_mem {gap : Bytes} (h : openBrace ∉ gap) (rest : Bytes) :
    attempts (gap ++ rest) = (attempts rest).map (Attempt.shift gap.length) := by
  induction gap with
  | nil =>
    have hzero : Attempt.shift 0 = id := funext fun t => by rw [Attempt.shift, Nat.zero_add, id]
    rw [List.nil_append, List.length_nil, hzero, List.map_id]
  | cons b gap ih =>
    obtain ⟨hb, hgap⟩ := not_or.mp (mt List.mem_cons.mpr h)
    rw [List.cons_append, attempts_cons_of_ne (Ne.symm hb), ih hgap, Attempt.map_shift_map_shift,
      List.length_cons, Nat.add_comm]

/-! ## Where attempts stand -/

/-- The attempt was made at an opening brace of these bytes. -/
def Attempt.StandsIn (bytes : Bytes) (t : Attempt) : Prop :=
  bytes.drop t.offset = t.bytes ∧ t.bytes.head? = some openBrace

theorem Attempt.StandsIn.shift {rest : Bytes} {t : Attempt} (h : t.StandsIn rest) (gap : Bytes) :
    (t.shift gap.length).StandsIn (gap ++ rest) := by
  have hdrop : (gap ++ rest).drop (gap.length + t.offset) = rest.drop t.offset := by
    rw [← List.drop_drop, List.drop_left]
  exact ⟨hdrop.trans h.1, h.2⟩

theorem Attempt.StandsIn.map_shift {rest : Bytes} (h : ∀ t ∈ attempts rest, t.StandsIn rest)
    (gap : Bytes) :
    ∀ t ∈ (attempts rest).map (Attempt.shift gap.length), t.StandsIn (gap ++ rest) :=
  List.forall_mem_map.mpr fun t ht => (h t ht).shift gap

/-- **Each attempt was made at an opening brace.** -/
theorem attempts_standIn (bytes : Bytes) : ∀ t ∈ attempts bytes, t.StandsIn bytes := by
  induction bytes using search_induction with
  | nil =>
    rw [attempts_nil]
    exact List.forall_mem_nil _
  | refuses b bytes h ih =>
    have hrest := Attempt.StandsIn.map_shift ih [b]
    by_cases hb : b = openBrace
    · subst hb
      rw [attempts_cons_of_refuses h, List.forall_mem_cons]
      exact ⟨⟨rfl, rfl⟩, hrest⟩
    · rw [attempts_cons_of_ne hb]
      exact hrest
  | record written ms rest hobject hw =>
    obtain ⟨tail, rfl, -⟩ := isObject_iff.mp hobject
    rw [attempts_append_of_isObject hobject, if_pos hw, List.forall_mem_cons]
    exact ⟨⟨rfl, rfl⟩, List.forall_mem_nil _⟩
  | reserved written ms rest hobject hw ih =>
    have hrest := Attempt.StandsIn.map_shift ih written
    obtain ⟨tail, rfl, -⟩ := isObject_iff.mp hobject
    rw [attempts_append_of_isObject hobject, if_neg hw, List.forall_mem_cons]
    exact ⟨⟨rfl, rfl⟩, hrest⟩

theorem pairwise_map_shift {ts : List Attempt} (h : ts.Pairwise fun t u => t.offset < u.offset)
    (n : Nat) : (ts.map (Attempt.shift n)).Pairwise fun t u => t.offset < u.offset :=
  List.pairwise_map.mpr (h.imp fun hlt => Nat.add_lt_add_left hlt n)

theorem lt_offset_of_mem_map_shift {ts : List Attempt} {n : Nat} (hn : 0 < n) :
    ∀ t ∈ ts.map (Attempt.shift n), 0 < t.offset :=
  List.forall_mem_map.mpr fun t _ => Nat.add_pos_left hn t.offset

/-- **Each attempt is made behind the one before**, so that none is made twice. -/
theorem pairwise_attempts (bytes : Bytes) :
    (attempts bytes).Pairwise fun t u => t.offset < u.offset := by
  induction bytes using search_induction with
  | nil =>
    rw [attempts_nil]
    exact .nil
  | refuses b bytes h ih =>
    have hrest := pairwise_map_shift ih 1
    by_cases hb : b = openBrace
    · subst hb
      rw [attempts_cons_of_refuses h]
      exact hrest.cons (lt_offset_of_mem_map_shift Nat.one_pos)
    · rw [attempts_cons_of_ne hb]
      exact hrest
  | record written ms rest hobject hw =>
    rw [attempts_append_of_isObject hobject, if_pos hw]
    exact List.pairwise_singleton _ _
  | reserved written ms rest hobject hw ih =>
    have hpos : 0 < written.length := Nat.lt_of_lt_of_le Nat.two_pos hobject.two_le_length
    rw [attempts_append_of_isObject hobject, if_neg hw]
    exact (pairwise_map_shift ih written.length).cons (lt_offset_of_mem_map_shift hpos)

/-! ## What attempts found -/

theorem found?_of_refuses {t : Attempt} (h : t.verdict.Refuses) : t.found? = none := by
  rw [Attempt.found?]
  rcases h with h | h <;> rw [h]

theorem found?_of_isObject {written rest : Bytes} {ms : List RawMember}
    (h : IsObject written ms) (n : Nat) : (Attempt.mk n (written ++ rest)).found? =
      if Writable ms then
        some { fields := fieldsOf ms, span := { offset := n, length := written.length } }
      else none := by
  rw [Attempt.found?, Attempt.verdict, inspect_append h]
  by_cases hw : Writable ms
  · rw [if_pos hw, if_pos hw]
  · rw [if_neg hw, if_neg hw]

theorem found?_eq_none_map_shift {ts : List Attempt} (h : ∀ t ∈ ts, t.found? = none) (n : Nat) :
    ∀ t ∈ ts.map (Attempt.shift n), t.found? = none := by
  refine List.forall_mem_map.mpr fun t ht => ?_
  rw [Attempt.found?_shift, h t ht]
  rfl

theorem map_found?_map_shift {last : Option Attempt} {found : Option Located}
    (h : last.map Attempt.found? = found.map some) (n : Nat) :
    (last.map (Attempt.shift n)).map Attempt.found? = (found.map (Located.shift n)).map some := by
  have hshift : Attempt.found? ∘ Attempt.shift n = Option.map (Located.shift n) ∘ Attempt.found? :=
    funext (Attempt.found?_shift n)
  rw [Option.map_map, hshift, ← Option.map_map, h]
  cases found <;> rfl

theorem eq_none_or_eq_some_of_map {last : Option Attempt} {found : Option Located}
    (h : last.map Attempt.found? = found.map some) : last = none ∧ found = none ∨
      ∃ t f, last = some t ∧ t.found? = some f ∧ found = some f := by
  cases found with
  | none => exact .inl ⟨Option.map_eq_none_iff.mp h, rfl⟩
  | some f =>
    obtain ⟨t, hlast, hfound⟩ := Option.map_eq_some_iff.mp h
    exact .inr ⟨t, f, hlast, hfound, rfl⟩

/-- **All attempts of a search but the one that found its record were in vain.** -/
theorem attempts_eq (bytes : Bytes) : ∃ (vain : List Attempt) (last : Option Attempt),
    (∀ t ∈ vain, t.found? = none) ∧ attempts bytes = vain ++ last.toList ∧
      last.map Attempt.found? = (find? bytes).map some := by
  induction bytes using search_induction with
  | nil => exact ⟨[], none, List.forall_mem_nil _, attempts_nil, rfl⟩
  | refuses b bytes h ih =>
    obtain ⟨vain, last, hvain, e, hlast⟩ := ih
    have hrest := found?_eq_none_map_shift hvain 1
    have hmap : (attempts bytes).map (Attempt.shift 1) =
        vain.map (Attempt.shift 1) ++ (last.map (Attempt.shift 1)).toList := by
      rw [e, List.map_append, Option.toList_map]
    rw [find?_cons_of_refuses h]
    by_cases hb : b = openBrace
    · subst hb
      let first : Attempt := { offset := 0, bytes := openBrace :: bytes }
      have hfirst : first.found? = none := found?_of_refuses h
      refine ⟨first :: vain.map (Attempt.shift 1), _, List.forall_mem_cons.mpr ⟨hfirst, hrest⟩, ?_,
        map_found?_map_shift hlast 1⟩
      rw [attempts_cons_of_refuses h, hmap]
      rfl
    · exact ⟨_, _, hrest, by rw [attempts_cons_of_ne hb, hmap], map_found?_map_shift hlast 1⟩
  | record written ms rest hobject hw =>
    refine ⟨[], some { offset := 0, bytes := written ++ rest }, List.forall_mem_nil _, ?_, ?_⟩
    · rw [attempts_append_of_isObject hobject, if_pos hw]
      rfl
    · rw [Option.map_some, found?_of_isObject hobject, find?_append_of_isObject hobject, if_pos hw,
        if_pos hw]
      rfl
  | reserved written ms rest hobject hw ih =>
    obtain ⟨vain, last, hvain, e, hlast⟩ := ih
    let first : Attempt := { offset := 0, bytes := written ++ rest }
    have hfirst : first.found? = none := by rw [found?_of_isObject hobject, if_neg hw]
    have hrest := found?_eq_none_map_shift hvain written.length
    refine ⟨first :: vain.map (Attempt.shift written.length),
      last.map (Attempt.shift written.length), List.forall_mem_cons.mpr ⟨hfirst, hrest⟩, ?_, ?_⟩
    · rw [attempts_append_of_isObject hobject, if_neg hw, e, List.map_append, Option.toList_map]
      rfl
    · rw [find?_append_of_isObject hobject, if_neg hw]
      exact map_found?_map_shift hlast written.length

/-- **What the attempts of a search found is what the search found.** -/
theorem filterMap_attempts (bytes : Bytes) :
    (attempts bytes).filterMap Attempt.found? = (find? bytes).toList := by
  obtain ⟨vain, last, hvain, e, hlast⟩ := attempts_eq bytes
  rw [e, List.filterMap_append, List.filterMap_eq_nil_iff.mpr hvain, List.nil_append]
  rcases eq_none_or_eq_some_of_map hlast with ⟨rfl, hfind⟩ | ⟨t, found, rfl, ht, hfind⟩
  · rw [hfind]
    rfl
  · rw [hfind, Option.toList_some, List.filterMap_cons_some ht]
    rfl

/-! ## Attempts that did not run out of bytes -/

/-- The records found before an attempt ran out of bytes. -/
def settled (ts : List Attempt) : List Located :=
  (ts.takeWhile Attempt.decided).filterMap Attempt.found?

theorem settled_cons_of_found {t : Attempt} {found : Located} (h : t.found? = some found)
    (ts : List Attempt) : settled (t :: ts) = found :: settled ts := by
  rw [settled, List.takeWhile_cons_of_pos (Attempt.decided_of_found h), List.filterMap_cons_some h]
  rfl

theorem settled_append_of_vain {vain : List Attempt} (h : ∀ t ∈ vain, t.found? = none)
    (ts : List Attempt) :
    settled (vain ++ ts) = if vain.all Attempt.decided then settled ts else [] := by
  induction vain with
  | nil => rfl
  | cons t vain ih =>
    obtain ⟨ht, hvain⟩ := List.forall_mem_cons.mp h
    rw [List.cons_append, settled, List.takeWhile_cons, List.all_cons]
    cases t.decided with
    | true =>
      rw [if_pos rfl, List.filterMap_cons_none ht, Bool.true_and]
      exact ih hvain
    | false => rfl

/-- **The records found before an attempt ran out of bytes** are that of the first search and those
of the later ones, if no attempt of the first ran out, and else none. -/
theorem settled_attempts_append (bytes : Bytes) (ts : List Attempt) :
    settled (attempts bytes ++ ts) =
      if (attempts bytes).all Attempt.decided then (find? bytes).toList ++ settled ts else [] := by
  obtain ⟨vain, last, hvain, e, hlast⟩ := attempts_eq bytes
  rw [e, List.append_assoc, settled_append_of_vain hvain, List.all_append]
  rcases eq_none_or_eq_some_of_map hlast with ⟨rfl, hfind⟩ | ⟨t, found, rfl, ht, hfind⟩
  · rw [hfind]
    exact congrArg (fun b : Bool => if b then settled ts else []) (Bool.and_true _).symm
  · have hlastDecided : [t].all Attempt.decided = true := by
      rw [List.all_cons, Attempt.decided_of_found ht]
      rfl
    rw [hfind, Option.toList_some, Option.toList_some, hlastDecided, Bool.and_true]
    exact congrArg (fun found => if vain.all Attempt.decided then found else [])
      (settled_cons_of_found ht ts)

/-! ## All searches through a buffer -/

theorem allAttempts_of_find?_eq_none {bytes : Bytes} (h : find? bytes = none) :
    allAttempts bytes = attempts bytes := by
  rw [allAttempts]
  split
  next found hfound =>
    rw [h] at hfound
    cases hfound
  next => exact List.append_nil _

theorem allAttempts_of_find?_eq_some {bytes : Bytes} {found : Located}
    (h : find? bytes = some found) :
    allAttempts bytes = attempts bytes ++ allAttempts (bytes.drop found.span.reach) := by
  rw [allAttempts]
  split
  next found' hfound' =>
    rw [h] at hfound'
    cases hfound'
    rfl
  next hnone =>
    rw [h] at hnone
    cases hnone

/-- **What the attempts of all searches found are the records of the buffer.** -/
theorem filterMap_allAttempts (bytes : Bytes) :
    (allAttempts bytes).filterMap Attempt.found? = records bytes := by
  induction bytes using records_induction with
  | none bytes h =>
    rw [allAttempts_of_find?_eq_none h, filterMap_attempts, h, records_of_find?_eq_none h]
    rfl
  | some bytes found h ih =>
    rw [allAttempts_of_find?_eq_some h, List.filterMap_append, filterMap_attempts, h, ih,
      records_of_find?_eq_some h]
    rfl

end RecordLog
