import RecordLog.Format.Reading

/-! # Readings of longer bytes

A reading ends at its object or at the first byte that fits none, and what stands behind has no
part in it.  Only a reading that runs out of bytes is taken up again by more of them.

* `State.run_append`, `read_append`: a reading that ended stays what it was.
* `State.after`: the state of a reading that went on through all of its bytes.
* `State.run_append_of_after`, `read_append_of_truncated`: one that ran out of bytes goes on from
  the state it stood in.
-/

namespace RecordLog.Format

theorem State.run_append {state : State} {taken : Nat} {bytes : Bytes}
    (h : state.run taken bytes ≠ .truncated) (more : Bytes) :
    state.run taken (bytes ++ more) = state.run taken bytes := by
  induction bytes generalizing state taken with
  | nil => exact absurd rfl h
  | cons b bytes ih =>
    rw [run] at h
    rw [List.cons_append, run, run]
    cases hstep : state.step b with
    | next state' =>
      rw [hstep] at h
      exact ih h
    | close ms => rfl
    | fail => rfl

/-- The state of a reading that went on through all of these bytes. -/
def State.after : State → Bytes → Option State
  | state, [] => some state
  | state, b :: rest =>
    match state.step b with
    | .next state => state.after rest
    | .close _ | .fail => none

theorem State.run_append_of_after {state state' : State} {bytes : Bytes}
    (h : state.after bytes = some state') (taken : Nat) (more : Bytes) :
    state.run taken (bytes ++ more) = state'.run (taken + bytes.length) more := by
  induction bytes generalizing state taken with
  | nil =>
    obtain rfl := Option.some.inj h
    rfl
  | cons b bytes ih =>
    rw [after] at h
    rw [List.cons_append, run]
    cases hstep : state.step b with
    | next state'' =>
      rw [hstep] at h
      simp only [ih h, List.length_cons]
      congr 1
      omega
    | close ms =>
      rw [hstep] at h
      cases h
    | fail =>
      rw [hstep] at h
      cases h

theorem State.exists_after_of_truncated {state : State} {taken : Nat} {bytes : Bytes}
    (h : state.run taken bytes = .truncated) : ∃ state', state.after bytes = some state' := by
  induction bytes generalizing state taken with
  | nil => exact ⟨state, rfl⟩
  | cons b bytes ih =>
    rw [run] at h
    rw [after]
    cases hstep : state.step b with
    | next state' =>
      rw [hstep] at h
      exact ih h
    | close ms =>
      rw [hstep] at h
      cases h
    | fail =>
      rw [hstep] at h
      cases h

/-- **A reading that ended stays what it was when more bytes follow.** -/
theorem read_append {bytes : Bytes} (h : read bytes ≠ .truncated) (more : Bytes) :
    read (bytes ++ more) = read bytes := by
  cases bytes with
  | nil => exact absurd rfl h
  | cons b bytes =>
    rw [read] at h
    rw [List.cons_append, read, read]
    by_cases hb : b = openBrace
    · rw [if_pos hb] at h
      rw [if_pos hb, if_pos hb, State.run_append h]
    · rw [if_neg hb, if_neg hb]

/-- **A reading that ran out of bytes goes on with the ones that follow.** -/
theorem read_append_of_truncated {bytes : Bytes} (hne : bytes ≠ []) (h : read bytes = .truncated) :
    ∃ state, State.opening.after bytes.tail = some state ∧
      ∀ more, read (bytes ++ more) = state.run bytes.length more := by
  cases bytes with
  | nil => exact absurd rfl hne
  | cons b bytes =>
    rw [read] at h
    by_cases hb : b = openBrace
    · rw [if_pos hb] at h
      obtain ⟨state, hafter⟩ := State.exists_after_of_truncated h
      refine ⟨state, hafter, fun more => ?_⟩
      rw [List.cons_append, read, if_pos hb, State.run_append_of_after hafter, List.length_cons,
        Nat.add_comm]
    · rw [if_neg hb] at h
      cases h

end RecordLog.Format
