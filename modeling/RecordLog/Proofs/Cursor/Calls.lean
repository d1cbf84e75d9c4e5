import RecordLog.Proofs.Log.Account

/-! # Calling a cursor again and again

A cursor remembers where it stands, and each call moves it past the record that the call yields.
The same records come from a loop that keeps nothing but an index: look for a record from there on,
and go on behind the one that was found.  The first call that yields nothing leaves the cursor at the
end of the buffer, and no call after it moves it any more.

What a call yields depends on the bytes of the record alone.  Cut out of the buffer they are the same
record, so the spans of the records can be used to go back to them.

* `Decodes`: the records that the loop comes upon.
* `Cursor.after`: a cursor after some calls.
* `Cursor.next_after`, `Cursor.position_after`: what each call yields, and where it leaves the cursor.
* `exists_placed`: where a record lies, counted from the start, and what its bytes hold.
* `Cursor.calls_from_seek`: the calls of a cursor from any index of any buffer.
-/

namespace RecordLog

open Format

/-! ## The loop -/

/-- The records that a loop comes upon that looks for one from an index on, and goes on behind it. -/
inductive Decodes (buffer : Bytes) : Nat → List Located → Prop
  | stop {start : Nat} : decodeAt buffer start = none → Decodes buffer start []
  | resume {start : Nat} {found : Located} {more : List Located} :
      decodeAt buffer start = some found →
      Decodes buffer (start + found.span.offset + found.span.length) more →
      Decodes buffer start (found :: more)

theorem decodes_records {buffer : Bytes} {start : Nat} :
    Decodes buffer start (records (buffer.drop start)) := by
  induction hbytes : buffer.drop start using records_induction generalizing start with
  | none bytes h =>
    subst hbytes
    rw [records_of_find?_eq_none h]
    exact .stop h
  | some bytes found h ih =>
    subst hbytes
    rw [records_of_find?_eq_some h]
    refine .resume h (ih ?_)
    rw [List.drop_drop, Nat.add_assoc]
    rfl

theorem Decodes.eq_records {buffer : Bytes} {start : Nat} {found : List Located}
    (h : Decodes buffer start found) : found = records (buffer.drop start) := by
  induction h with
  | stop h => exact (records_of_find?_eq_none h).symm
  | resume h _ ih =>
    rw [records_of_find?_eq_some h, ih, List.drop_drop, Nat.add_assoc]
    rfl

/-- **A cursor yields what the loop comes upon.** -/
theorem decodes_iff {buffer : Bytes} {start : Nat} {found : List Located} :
    Decodes buffer start found ↔ found = records (buffer.drop start) := by
  constructor
  · exact Decodes.eq_records
  · rintro rfl
    exact decodes_records

/-! ## Calls -/

namespace Cursor

theorem drain_seek (buffer : Bytes) (start : Nat) :
    (seek buffer start).drain = records (buffer.drop start) :=
  drain_mk _ _ _

/-- The cursor after some calls. -/
def after (c : Cursor) : Nat → Cursor
  | 0 => c
  | k + 1 => c.next.2.after k

theorem next_of_find?_eq_none {c : Cursor} (h : find? c.rest = none) :
    c.next = (none, { position := c.position + c.rest.length, rest := [] }) := by
  rw [next, h]

theorem next_of_find?_eq_some {c : Cursor} {found : Located} (h : find? c.rest = some found) :
    c.next = (some found,
      { position := c.position + found.span.reach, rest := c.rest.drop found.span.reach }) := by
  rw [next, h]

theorem next_fst (c : Cursor) : c.next.1 = c.drain.head? := by
  cases h : find? c.rest with
  | none => rw [next_of_find?_eq_none h, drain_of_find?_eq_none h, List.head?_nil]
  | some found => rw [next_of_find?_eq_some h, drain_of_find?_eq_some h, List.head?_cons]

theorem drain_next (c : Cursor) : c.next.2.drain = c.drain.tail := by
  cases h : find? c.rest with
  | none =>
    rw [next_of_find?_eq_none h, drain_of_find?_eq_none h, List.tail_nil]
    exact drain_of_find?_eq_none find?_nil
  | some found => rw [next_of_find?_eq_some h, drain_of_find?_eq_some h, List.tail_cons]

theorem drain_after (c : Cursor) (k : Nat) : (c.after k).drain = c.drain.drop k := by
  induction k generalizing c with
  | zero => rfl
  | succ k ih => rw [after, ih, drain_next, List.drop_tail]

/-- **Each call yields the next record**, and the calls behind the last record yield nothing. -/
theorem next_after (c : Cursor) (k : Nat) : (c.after k).next.1 = c.drain[k]? := by
  rw [next_fst, drain_after, List.head?_drop]

/-! ## Where a cursor stands -/

/-- **Calls that yield records move a cursor past them.** -/
theorem position_after {c : Cursor} {k : Nat} (h : k ≤ c.drain.length) :
    (c.after k).position =
      c.position + ((c.drain.take k).map fun found => found.span.reach).sum := by
  induction k generalizing c with
  | zero => rfl
  | succ k ih =>
    have hk : k ≤ c.next.2.drain.length := by
      rw [drain_next, List.length_tail]
      omega
    rw [after, ih hk, drain_next]
    cases hfind : find? c.rest with
    | none =>
      rw [drain_of_find?_eq_none hfind] at h
      simp at h
    | some found =>
      rw [drain_of_find?_eq_some hfind, next_of_find?_eq_some hfind, List.tail_cons,
        List.take_succ_cons, List.map_cons, List.sum_cons, Nat.add_assoc]

theorem position_after_of_rest_eq_nil {c : Cursor} (h : c.rest = []) (k : Nat) :
    (c.after k).position = c.position := by
  induction k generalizing c with
  | zero => rfl
  | succ k ih =>
    have hfind : find? c.rest = none := by rw [h, find?_nil]
    rw [after, next_of_find?_eq_none hfind, ih rfl, h]
    rfl

/-- **The first call that yields nothing moves a cursor to the end**, where it stays. -/
theorem position_after_of_lt {c : Cursor} {k : Nat} (h : c.drain.length < k) :
    (c.after k).position = c.position + c.rest.length := by
  induction k generalizing c with
  | zero => exact absurd h (Nat.not_lt_zero _)
  | succ k ih =>
    cases hfind : find? c.rest with
    | none => rw [after, next_of_find?_eq_none hfind, position_after_of_rest_eq_nil rfl]
    | some found =>
      have hk : c.next.2.drain.length < k := by
        rw [drain_next, List.length_tail]
        rw [drain_of_find?_eq_some hfind, List.length_cons] at h ⊢
        omega
      have hreach := reach_le_of_find? hfind
      rw [after, ih hk, next_of_find?_eq_some hfind, List.length_drop]
      dsimp only
      omega

end Cursor

/-! ## What the records take of a buffer -/

theorem sum_reach_take_le (bytes : Bytes) (k : Nat) :
    (((records bytes).take k).map fun found => found.span.reach).sum ≤ bytes.length := by
  induction k generalizing bytes with
  | zero => exact Nat.zero_le _
  | succ k ih =>
    cases h : find? bytes with
    | none =>
      rw [records_of_find?_eq_none h]
      exact Nat.zero_le _
    | some found =>
      have hreach := reach_le_of_find? h
      have hmore := ih (bytes.drop found.span.reach)
      rw [List.length_drop] at hmore
      rw [records_of_find?_eq_some h, List.take_succ_cons, List.map_cons, List.sum_cons]
      omega

theorem two_mul_length_records_le (bytes : Bytes) : 2 * (records bytes).length ≤ bytes.length := by
  induction bytes using records_induction with
  | none bytes h =>
    rw [records_of_find?_eq_none h]
    exact Nat.zero_le _
  | some bytes found h ih =>
    have hreach := reach_le_of_find? h
    have hspan : found.span.reach = found.span.offset + found.span.length := rfl
    have hlength := two_le_length_of_find? h
    rw [List.length_drop] at ih
    rw [records_of_find?_eq_some h, List.length_cons]
    omega

/-- **The bytes of a found record are within the buffer, and alone they are that record.** -/
theorem find?_extract_of_find? {buffer : Bytes} {start : Nat} {found : Located}
    (h : find? (buffer.drop start) = some found) :
    start + found.span.reach ≤ buffer.length ∧
      (buffer.extract (start + found.span.offset) (start + found.span.reach)).length =
        found.span.length ∧
      find? (buffer.extract (start + found.span.offset) (start + found.span.reach)) =
        some { fields := found.fields, span := { offset := 0, length := found.span.length } } := by
  obtain ⟨gap, written, rest, ms, e, hobject, hw, rfl⟩ := exists_of_find?_eq_some h
  have hlength := congrArg List.length e
  have htwo := hobject.two_le_length
  simp only [List.length_drop, List.length_append] at hlength
  have hextract : buffer.extract (start + gap.length) (start + (gap.length + written.length)) =
      written := by
    rw [List.extract_eq_take_drop, ← List.drop_drop, e, List.drop_left, ← Nat.add_assoc,
      Nat.add_sub_cancel_left, List.take_left]
  have hfound := find?_append_of_isObject hobject []
  rw [List.append_nil, if_pos hw] at hfound
  rw [Span.reach]
  dsimp only
  rw [hextract]
  exact ⟨by omega, rfl, hfound⟩

theorem exists_find?_of_mem_records {bytes : Bytes} {found : Located} (h : found ∈ records bytes) :
    ∃ first, find? bytes = some first := by
  cases hfind : find? bytes with
  | none =>
    rw [records_of_find?_eq_none hfind] at h
    cases h
  | some first => exact ⟨first, rfl⟩

/-- **Counted from the start, each record lies within the buffer**, and its bytes alone are it. -/
theorem exists_placed {buffer : Bytes} {start k : Nat} {found : Located}
    (h : (records (buffer.drop start))[k]? = some found) :
    ∃ s, (placed start (records (buffer.drop start)))[k]? = some s ∧
      s.length = found.span.length ∧ s.reach ≤ buffer.length ∧
      (buffer.extract s.offset s.reach).length = s.length ∧
      decodeAt (buffer.extract s.offset s.reach) 0 =
        some { fields := found.fields, span := { offset := 0, length := s.length } } := by
  induction k generalizing start with
  | zero =>
    obtain ⟨first, hfind⟩ := exists_find?_of_mem_records (List.mem_of_getElem? h)
    rw [records_of_find?_eq_some hfind] at h ⊢
    obtain rfl : first = found := Option.some.inj h
    refine ⟨_, rfl, rfl, ?_⟩
    rw [reach_placed]
    exact find?_extract_of_find? hfind
  | succ k ih =>
    obtain ⟨first, hfind⟩ := exists_find?_of_mem_records (List.mem_of_getElem? h)
    have hdrop : (buffer.drop start).drop first.span.reach =
        buffer.drop (start + first.span.reach) := List.drop_drop
    rw [records_of_find?_eq_some hfind, hdrop] at h ⊢
    exact ih h

theorem exists_of_mem_placed {found : List Located} {start : Nat} {s : Span}
    (h : s ∈ placed start found) : ∃ f ∈ found, s.length = f.span.length := by
  induction found generalizing start with
  | nil => cases h
  | cons first more ih =>
    rcases List.mem_cons.mp h with rfl | hmore
    · exact ⟨first, List.mem_cons_self, rfl⟩
    · obtain ⟨f, hf, hlength⟩ := ih hmore
      exact ⟨f, List.mem_cons_of_mem _ hf, hlength⟩

/-- **The spans of records lie one behind the other**, and none is empty. -/
theorem pairwise_placed_records (bytes : Bytes) (start : Nat) :
    (placed start (records bytes)).Pairwise fun s t => s.reach ≤ t.offset ∧ s.offset < t.offset := by
  refine (pairwise_placed (records bytes) start).imp_of_mem fun {s t} hs _ hst => ⟨hst, ?_⟩
  obtain ⟨f, hf, hlength⟩ := exists_of_mem_placed hs
  have htwo := forall_mem_records two_le_length_of_find? bytes f hf
  rw [Span.reach] at hst
  omega

/-! ## Calls from an index of a buffer -/

/-- **The calls of a cursor from any index of any buffer**, also from one behind its end.  They yield
what the loop of searches comes upon, one record a call, and then nothing for ever.  A cursor moves
past each record it yields, never past the end, and on to the end at the first call that yields
nothing.  Counted from the start, the records lie one behind the other within the buffer.  The bytes
of each alone are the same record, and they take two bytes at least. -/
theorem Cursor.calls_from_seek (buffer : Bytes) (start : Nat) :
    ∃ found : List Located,
      (seek buffer start).drain = found ∧
      (∀ other, Decodes buffer start other ↔ other = found) ∧
      (∀ k, ((seek buffer start).after k).next.1 = found[k]?) ∧
      (∀ k ≤ found.length, ((seek buffer start).after k).position =
        start + ((found.take k).map fun f => f.span.reach).sum) ∧
      (∀ k, 0 < k → k ≤ found.length →
        ((seek buffer start).after k).position ≤ buffer.length) ∧
      (∀ k, found.length < k →
        ((seek buffer start).after k).position = max start buffer.length) ∧
      (placed start found).Pairwise (fun s t => s.reach ≤ t.offset ∧ s.offset < t.offset) ∧
      (∀ (k : Nat) (f : Located), found[k]? = some f → ∃ s, (placed start found)[k]? = some s ∧
        s.length = f.span.length ∧ s.reach ≤ buffer.length ∧
        (buffer.extract s.offset s.reach).length = s.length ∧
        decodeAt (buffer.extract s.offset s.reach) 0 =
          some { fields := f.fields, span := { offset := 0, length := s.length } }) ∧
      found.length ≤ (buffer.length - start) / 2 := by
  have hdrain := drain_seek buffer start
  have hrest : (seek buffer start).rest.length = buffer.length - start := List.length_drop
  have htwo := two_mul_length_records_le (buffer.drop start)
  rw [List.length_drop] at htwo
  refine ⟨records (buffer.drop start), hdrain, fun other => decodes_iff, fun k => ?_, fun k hk => ?_,
    fun k hpos hk => ?_, fun k hk => ?_, pairwise_placed_records _ start,
    fun k f hf => exists_placed hf, ?_⟩
  · rw [next_after, hdrain]
  · rw [← hdrain] at hk ⊢
    exact position_after hk
  · have hsum := sum_reach_take_le (buffer.drop start) k
    rw [List.length_drop] at hsum
    rw [← hdrain] at hk
    rw [position_after hk, hdrain]
    rw [hdrain] at hk
    show start + _ ≤ _
    omega
  · rw [← hdrain] at hk
    rw [position_after_of_lt hk, hrest]
    show start + _ = _
    omega
  · omega

end RecordLog
