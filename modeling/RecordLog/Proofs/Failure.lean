/-! # Programs that may fail

A program ends with the first of its steps that fails.

* `bind_eq_ok_iff`: steps succeed when each of them does.
* `ok_bind`, `pure_eq_ok`: what steps that succeed come to.
* `run_bind_of_ok`, `run_bind_of_error`: how a program over a state goes on after a step.
* `run_tryCatch_of_ok`, `run_tryCatch_of_error`: how it goes on where errors are caught.
-/

namespace RecordLog

variable {ε α β : Type}

/-- **Steps succeed when each of them does.** -/
theorem bind_eq_ok_iff {x : Except ε α} {f : α → Except ε β} {b : β} :
    x >>= f = .ok b ↔ ∃ a, x = .ok a ∧ f a = .ok b := by
  cases x with
  | error e =>
    constructor
    · intro h
      cases h
    · rintro ⟨a, h, -⟩
      cases h
  | ok a =>
    constructor
    · intro h
      exact ⟨a, rfl, h⟩
    · rintro ⟨a, ha, h⟩
      cases ha
      exact h

theorem ok_bind (a : α) (f : α → Except ε β) : Except.ok a >>= f = f a :=
  rfl

theorem pure_eq_ok (a : α) : (pure a : Except ε α) = .ok a :=
  rfl

/-! ## Runs over a state -/

variable {σ : Type} {s s' : σ} {x : ExceptT ε (StateM σ) α}

theorem run_bind_of_ok {a : α} (h : x.run.run s = (.ok a, s'))
    (f : α → ExceptT ε (StateM σ) β) : (x >>= f).run.run s = (f a).run.run s' := by
  rw [ExceptT.run_bind, StateT.run_bind, h]
  rfl

theorem run_bind_of_error {e : ε} (h : x.run.run s = (.error e, s'))
    (f : α → ExceptT ε (StateM σ) β) : (x >>= f).run.run s = (.error e, s') := by
  rw [ExceptT.run_bind, StateT.run_bind, h]
  rfl

theorem run_tryCatch_of_ok {a : α} (h : x.run.run s = (.ok a, s'))
    (f : ε → ExceptT ε (StateM σ) α) : (tryCatch x f).run.run s = (.ok a, s') := by
  rw [ExceptT.run_tryCatch, StateT.run_bind, h]
  rfl

theorem run_tryCatch_of_error {e : ε} (h : x.run.run s = (.error e, s'))
    (f : ε → ExceptT ε (StateM σ) α) : (tryCatch x f).run.run s = (f e).run.run s' := by
  rw [ExceptT.run_tryCatch, StateT.run_bind, h]
  rfl

end RecordLog
