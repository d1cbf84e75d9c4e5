import RecordLog.Proofs.Format.Barrier
import RecordLog.Proofs.Format.Extension
import RecordLog.Proofs.Search.Attempts

/-! # Records of a buffer that grows

A search that meets the end of its bytes within an object may find something else there once more
bytes follow.  Where what follows bars, it does not, and neither does a search that did not meet the
end of its bytes at all.

* `Steady`: the attempts in vain stay in vain when more bytes follow.
* `Attempt.InText`: the attempt ran out of bytes within a name or value.
* `find?_append`: then the first record stays, and behind bytes that hold none comes that of the
  rest.
* `records_append_of_steady`: all records stay, and behind them come those of the rest.
* `records_append`: this holds of any bytes where what follows bars.
* `records_append_of_decided`: it holds of anything that follows where no attempt ran out of bytes,
  and of the records found before one did.
-/

namespace RecordLog

open Format

/-- The attempts of a search that found no object find none with `more` behind the bytes. -/
def Steady (more bytes : Bytes) : Prop :=
  ∀ t ∈ attempts bytes, t.verdict.Refuses → (inspect (t.bytes ++ more)).Refuses

/-- The attempt ran out of bytes within a name or value, past a backslash or not. -/
def Attempt.InText (t : Attempt) : Prop :=
  ∃ state ∈ State.opening.after t.bytes.tail, state.Quoted

instance (t : Attempt) : Decidable t.InText :=
  inferInstanceAs (Decidable (∃ state ∈ State.opening.after t.bytes.tail, state.Quoted))

/-! ## When attempts in vain stay in vain -/

/-- Only a reading that ran out of bytes sees `more`, and it does so from the state it stood in. -/
theorem inspect_append_refuses {bytes more : Bytes} (hne : bytes ≠ []) (h : (inspect bytes).Refuses)
    (hmore : ∀ state : State, State.opening.after bytes.tail = some state →
      ∀ ms n, state.run bytes.length more ≠ .object ms n) : (inspect (bytes ++ more)).Refuses := by
  rw [inspect_refuses_iff] at h ⊢
  by_cases htruncated : Format.read bytes = .truncated
  · obtain ⟨state, hafter, hrun⟩ := read_append_of_truncated hne htruncated
    rw [hrun]
    exact hmore state hafter
  · rw [read_append htruncated]
    exact h

theorem attempts_ne_nil {bytes : Bytes} {t : Attempt} (h : t ∈ attempts bytes) : t.bytes ≠ [] := by
  intro hnil
  have hhead := (attempts_standIn bytes t h).2
  rw [hnil] at hhead
  cases hhead

theorem steady_of_bars {more : Bytes} (hmore : Bars more) (bytes : Bytes) : Steady more bytes := by
  intro t ht hrefuses
  refine inspect_append_refuses (attempts_ne_nil ht) hrefuses fun state _ ms n => ?_
  exact hmore state t.bytes.length n ms

theorem inspect_append_of_ne_truncated {bytes : Bytes} (h : inspect bytes ≠ .truncated)
    (more : Bytes) : inspect (bytes ++ more) = inspect bytes := by
  have hread : Format.read bytes ≠ .truncated := by
    intro hread
    rw [inspect, hread] at h
    exact h rfl
  rw [inspect, read_append hread]
  rfl

theorem steady_of_decided {bytes : Bytes} (h : ∀ t ∈ attempts bytes, t.decided) (more : Bytes) :
    Steady more bytes := by
  intro t ht hrefuses
  have hdecided : inspect t.bytes ≠ .truncated := Attempt.decided_iff.mp (h t ht)
  rwa [inspect_append_of_ne_truncated hdecided]

theorem steady_of_not_inText {bytes : Bytes} (h : ∀ t ∈ attempts bytes, ¬ t.InText)
    (more : Bytes) : Steady (openBrace :: more) bytes := by
  intro t ht hrefuses
  refine inspect_append_refuses (attempts_ne_nil ht) hrefuses fun state hafter ms n => ?_
  have hquoted : ¬ state.Quoted := fun hquoted => h t ht ⟨state, hafter, hquoted⟩
  rw [State.run_openBrace_of_not_quoted hquoted]
  exact Reading.noConfusion

/-! ## The first record -/

/-- **The first record stays, and behind bytes that hold none comes that of the rest.** -/
theorem find?_append {more : Bytes} (bytes : Bytes) (hsteady : Steady more bytes) :
    find? (bytes ++ more) =
      (find? bytes).or ((find? more).map (Located.shift bytes.length)) := by
  induction bytes using search_induction with
  | nil => exact (Located.map_shift_zero _).symm
  | refuses b bytes h ih =>
    obtain ⟨hgrown, hrest⟩ : (inspect (b :: (bytes ++ more))).Refuses ∧ Steady more bytes := by
      by_cases hb : b = openBrace
      · subst hb
        rw [Steady, attempts_cons_of_refuses h, List.forall_mem_cons] at hsteady
        exact ⟨hsteady.1 h, List.forall_mem_map.mp hsteady.2⟩
      · rw [Steady, attempts_cons_of_ne hb] at hsteady
        exact ⟨.inl (inspect_cons_of_ne hb _), List.forall_mem_map.mp hsteady⟩
    rw [find?_cons_of_refuses h, List.cons_append, find?_cons_of_refuses hgrown, ih hrest,
      Option.map_or, Located.map_shift_map_shift, List.length_cons, Nat.add_comm]
  | record written ms rest hobject hw =>
    rw [List.append_assoc, find?_append_of_isObject hobject, find?_append_of_isObject hobject,
      if_pos hw, if_pos hw]
    rfl
  | reserved written ms rest hobject hw ih =>
    rw [Steady, attempts_append_of_isObject hobject, if_neg hw, List.forall_mem_cons] at hsteady
    rw [List.append_assoc, find?_append_of_isObject hobject, find?_append_of_isObject hobject,
      if_neg hw, if_neg hw, ih (List.forall_mem_map.mp hsteady.2), Option.map_or,
      Located.map_shift_map_shift, List.length_append]

/-! ## All records -/

/-- How many bytes the records of a buffer and the gaps before them take. -/
def covered (bytes : Bytes) : Nat :=
  (records bytes).foldr (fun found n => found.span.reach + n) 0

/-- All records stay, and behind them come those of the rest, where all attempts have a property
that keeps each search steady. -/
theorem records_append_of_steady {more : Bytes} {P : Attempt → Prop}
    (hsteady : ∀ bytes, (∀ t ∈ attempts bytes, P t) → Steady more bytes) (bytes : Bytes)
    (h : ∀ t ∈ allAttempts bytes, P t) : records (bytes ++ more) =
      records bytes ++ shiftFirst (bytes.length - covered bytes) (records more) := by
  induction bytes using records_induction with
  | none bytes hnone =>
    rw [allAttempts_of_find?_eq_none hnone] at h
    have hfind : find? (bytes ++ more) = (find? more).map (Located.shift bytes.length) := by
      rw [find?_append bytes (hsteady bytes h), hnone, Option.none_or]
    have hrecords := records_of_find?_eq_none hnone
    have hcovered : covered bytes = 0 := by rw [covered, hrecords]; rfl
    rw [hcovered, hrecords, List.nil_append, Nat.sub_zero]
    exact records_of_find?_eq_map hfind fun k => by rw [← List.drop_drop, List.drop_left]
  | some bytes found hsome ih =>
    rw [allAttempts_of_find?_eq_some hsome, List.forall_mem_append] at h
    have hfind : find? (bytes ++ more) = some found := by
      rw [find?_append bytes (hsteady bytes h.1), hsome, Option.some_or]
    have hreach := reach_le_of_find? hsome
    have hrecords := records_of_find?_eq_some hsome
    rw [records_of_find?_eq_some hfind, List.drop_append_of_le_length hreach, ih h.2, covered,
      covered, hrecords, List.foldr_cons, List.length_drop, Nat.sub_sub, List.cons_append]

/-- **All records stay, and behind them come those of the rest.**  The bytes behind the last record
add to the offset of the next. -/
theorem records_append {more : Bytes} (hmore : Bars more) (bytes : Bytes) :
    records (bytes ++ more) =
      records bytes ++ shiftFirst (bytes.length - covered bytes) (records more) :=
  records_append_of_steady (P := fun _ => True) (fun bytes _ => steady_of_bars hmore bytes) bytes
    fun _ _ => trivial

theorem settled_allAttempts_prefix (bytes more : Bytes) :
    settled (allAttempts bytes) <+: records (bytes ++ more) := by
  induction bytes using records_induction with
  | none bytes h =>
    rw [allAttempts_of_find?_eq_none h, ← List.append_nil (attempts bytes),
      settled_attempts_append, h]
    split <;> exact List.nil_prefix
  | some bytes found h ih =>
    rw [allAttempts_of_find?_eq_some h, settled_attempts_append, h]
    split
    next hdecided =>
      have hsteady := steady_of_decided (List.all_eq_true.mp hdecided) more
      have hfind : find? (bytes ++ more) = some found := by
        rw [find?_append bytes hsteady, h, Option.some_or]
      rw [records_of_find?_eq_some hfind,
        List.drop_append_of_le_length (reach_le_of_find? h)]
      exact (List.prefix_cons_inj found).mpr ih
    next => exact List.nil_prefix

/-- **What was decided within a buffer stands when the buffer grows.**  The attempts of a buffer
account for its records.  The records found before an attempt ran out of bytes are the first ones of
any longer buffer.  If no attempt ran out, the records of the longer buffer are those of the two
parts, and the bytes behind the last record of the first part add to the offset of the first record
of the second. -/
theorem records_append_of_decided (bytes more : Bytes) :
    (allAttempts bytes).filterMap Attempt.found? = records bytes ∧
    ((allAttempts bytes).takeWhile Attempt.decided).filterMap Attempt.found? <+:
      records (bytes ++ more) ∧
    ((∀ t ∈ allAttempts bytes, t.decided) → records (bytes ++ more) =
      records bytes ++ shiftFirst (bytes.length - covered bytes) (records more)) := by
  refine ⟨filterMap_allAttempts bytes, settled_allAttempts_prefix bytes more, ?_⟩
  exact records_append_of_steady (fun bytes h => steady_of_decided h more) bytes

end RecordLog
