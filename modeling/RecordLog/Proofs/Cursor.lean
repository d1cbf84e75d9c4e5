import RecordLog.Cursor
import RecordLog.Proofs.Search.Steps

/-! # The records of a buffer

`records` moves a cursor from one found record to the next.  Here it is told by `find?` alone.

* `records_of_find?_eq_none`, `records_of_find?_eq_some`: the records of a buffer are the first one
  and those behind it.
* `records_induction`: induction along the records of a buffer.
* `forall_mem_records`: what holds of every record that a search finds holds of all of them.
* `records_append_of_not_mem`: bytes without an opening brace add to the first record's offset.
-/

namespace RecordLog

open Format

namespace Cursor

theorem drain_of_find?_eq_none {c : Cursor} (h : find? c.rest = none) : c.drain = [] := by
  rw [drain]
  split
  next found c' hnext =>
    rw [next, h] at hnext
    cases hnext
  next => rfl

theorem drain_of_find?_eq_some {c : Cursor} {found : Located} (h : find? c.rest = some found) :
    c.drain = found :: (Cursor.mk (c.position + found.span.reach)
      (c.rest.drop found.span.reach)).drain := by
  rw [drain]
  split
  next found' c' hnext =>
    rw [next, h] at hnext
    cases hnext
    rfl
  next c' hnext =>
    rw [next, h] at hnext
    cases hnext

theorem drain_mk (bytes : Bytes) : ∀ p q : Nat,
    (Cursor.mk p bytes).drain = (Cursor.mk q bytes).drain := by
  induction hn : bytes.length using Nat.strongRecOn generalizing bytes with
  | ind n ih =>
    intro p q
    cases h : find? bytes with
    | none => rw [drain_of_find?_eq_none h, drain_of_find?_eq_none h]
    | some found =>
      rw [drain_of_find?_eq_some (c := ⟨p, bytes⟩) h, drain_of_find?_eq_some (c := ⟨q, bytes⟩) h]
      exact congrArg (found :: ·) (ih _ (hn ▸ length_drop_reach_lt h) _ rfl _ _)

end Cursor

theorem records_of_find?_eq_none {bytes : Bytes} (h : find? bytes = none) : records bytes = [] :=
  Cursor.drain_of_find?_eq_none h

theorem records_of_find?_eq_some {bytes : Bytes} {found : Located} (h : find? bytes = some found) :
    records bytes = found :: records (bytes.drop found.span.reach) := by
  have hdrain : records bytes = _ := Cursor.drain_of_find?_eq_some (c := .ofBuffer bytes) h
  rw [hdrain]
  exact congrArg (found :: ·) (Cursor.drain_mk _ _ _)

/-- Induction along the records of a buffer. -/
theorem records_induction {motive : Bytes → Prop}
    (none : ∀ bytes, find? bytes = none → motive bytes)
    (some : ∀ bytes found, find? bytes = some found → motive (bytes.drop found.span.reach) →
      motive bytes) (bytes : Bytes) : motive bytes := by
  induction hn : bytes.length using Nat.strongRecOn generalizing bytes with
  | ind n ih =>
    cases h : find? bytes with
    | none => exact none bytes h
    | some found => exact some bytes found h (ih _ (hn ▸ length_drop_reach_lt h) _ rfl)

theorem forall_mem_records {p : Located → Prop}
    (h : ∀ {bytes found}, find? bytes = some found → p found) (buffer : Bytes) :
    ∀ found ∈ records buffer, p found := by
  induction buffer using records_induction with
  | none bytes hnone =>
    rw [records_of_find?_eq_none hnone]
    exact List.forall_mem_nil _
  | some bytes first hsome ih =>
    rw [records_of_find?_eq_some hsome]
    exact List.forall_mem_cons.mpr ⟨h hsome, ih⟩

/-- The records of a buffer behind `n` further bytes that hold none. -/
def shiftFirst (n : Nat) (found : List Located) : List Located :=
  found.modifyHead (Located.shift n)

theorem records_of_find?_eq_map {bytes more : Bytes} {n : Nat}
    (h : find? bytes = (find? more).map (Located.shift n))
    (hdrop : ∀ k, bytes.drop (n + k) = more.drop k) :
    records bytes = shiftFirst n (records more) := by
  cases hfind : find? more with
  | none =>
    rw [hfind] at h
    rw [records_of_find?_eq_none h, records_of_find?_eq_none hfind]
    rfl
  | some found =>
    rw [hfind] at h
    rw [records_of_find?_eq_some h, records_of_find?_eq_some hfind, Located.shift_reach, hdrop]
    rfl

theorem records_append_of_not_mem {gap : Bytes} (h : openBrace ∉ gap) (rest : Bytes) :
    records (gap ++ rest) = shiftFirst gap.length (records rest) :=
  records_of_find?_eq_map (find?_append_of_not_mem h rest) fun k => by
    rw [← List.drop_drop, List.drop_left]

end RecordLog
