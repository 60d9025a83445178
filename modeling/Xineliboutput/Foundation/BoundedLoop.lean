import Mathlib.Logic.Function.Iterate

/-!
# Loops with a step limit

`whileWithin` runs a guarded loop for at most a given number of rounds and
answers `none` when the guard still holds after the last of them. A loop that is
shown to answer `some` within its limit has therefore been shown to stop.
-/

namespace Xineliboutput.Foundation

set_option autoImplicit false

variable {State : Type*}

def whileWithin (guard : State → Bool) (body : State → State) : Nat → State → Option State
  | 0, state => if guard state then none else some state
  | limit + 1, state =>
      if guard state then whileWithin guard body limit (body state) else some state

theorem while_within_done {guard : State → Bool} (body : State → State) (limit : Nat)
    {state : State} (done : guard state = false) :
    whileWithin guard body limit state = some state := by
  cases limit <;> simp [whileWithin, done]

/-- If the guard fails somewhere along the first `limit` rounds, the loop stops
at the first such place. -/
theorem while_within_stops (guard : State → Bool) (body : State → State)
    {rounds limit : Nat} (within : rounds ≤ limit) {state : State}
    (fails : guard (body^[rounds] state) = false) :
    ∃ first, first ≤ rounds ∧
      whileWithin guard body limit state = some (body^[first] state) ∧
      guard (body^[first] state) = false ∧
      ∀ earlier, earlier < first → guard (body^[earlier] state) = true := by
  induction limit generalizing rounds state with
  | zero =>
      obtain rfl : rounds = 0 := by omega
      exact ⟨0, Nat.le_refl _, while_within_done body 0 fails, fails, by omega⟩
  | succ limit ih =>
      cases holds : guard state with
      | false => exact ⟨0, by omega, while_within_done body _ holds, holds, by omega⟩
      | true =>
          cases rounds with
          | zero =>
              rw [Function.iterate_zero_apply, holds] at fails
              contradiction
          | succ rounds =>
              obtain ⟨first, bound, stopped, failsFirst, before⟩ :=
                @ih rounds (Nat.le_of_succ_le_succ within) (body state) fails
              refine ⟨first + 1, by omega, ?_, failsFirst, ?_⟩
              · simpa only [whileWithin, holds, if_true, Function.iterate_succ_apply] using stopped
              · intro earlier lower
                cases earlier with
                | zero => exact holds
                | succ earlier => exact before earlier (by omega)

/-- A loop whose rounds make a measure smaller ends within that many rounds. -/
theorem while_within_measure {guard : State → Bool} {body : State → State}
    (Invariant : State → Prop) (measure : State → Nat)
    (decreases : ∀ state, Invariant state → guard state = true →
      Invariant (body state) ∧ measure (body state) < measure state)
    {limit : Nat} {state : State} (holds : Invariant state) (enough : measure state ≤ limit) :
    ∃ final, whileWithin guard body limit state = some final := by
  induction limit generalizing state with
  | zero =>
      cases goes : guard state with
      | false => exact ⟨state, while_within_done body 0 goes⟩
      | true =>
          have less := (decreases state holds goes).2
          omega
  | succ limit ih =>
      cases goes : guard state with
      | false => exact ⟨state, while_within_done body _ goes⟩
      | true =>
          obtain ⟨kept, less⟩ := decreases state holds goes
          rw [whileWithin, goes, if_pos rfl]
          exact ih kept (by omega)

/-- What holds where a loop ends, and before a round if it holds after it, held at the
beginning of every loop that ends. -/
theorem while_within_backward {guard : State → Bool} {body : State → State}
    (Property : State → Prop) (exit : ∀ state, guard state = false → Property state)
    (back : ∀ state, guard state = true → Property (body state) → Property state)
    {limit : Nat} {state final : State} (ends : whileWithin guard body limit state = some final) :
    Property state := by
  induction limit generalizing state with
  | zero =>
      cases goes : guard state with
      | false => exact exit state goes
      | true => simp [whileWithin, goes] at ends
  | succ limit ih =>
      cases goes : guard state with
      | false => exact exit state goes
      | true =>
          rw [whileWithin, goes, if_pos rfl] at ends
          exact back state goes (ih ends)

/-- What holds at the beginning, and after a round if it holds before it, holds where a loop
ends. -/
theorem while_within_invariant {guard : State → Bool} {body : State → State}
    (Invariant : State → Prop)
    (kept : ∀ state, guard state = true → Invariant state → Invariant (body state))
    {limit : Nat} {state final : State} (holds : Invariant state)
    (ends : whileWithin guard body limit state = some final) : Invariant final := by
  induction limit generalizing state with
  | zero =>
      cases goes : guard state with
      | false =>
          rw [while_within_done body 0 goes] at ends
          exact Option.some.inj ends ▸ holds
      | true => simp [whileWithin, goes] at ends
  | succ limit ih =>
      cases goes : guard state with
      | false =>
          rw [while_within_done body _ goes] at ends
          exact Option.some.inj ends ▸ holds
      | true =>
          rw [whileWithin, goes, if_pos rfl] at ends
          exact ih (kept state goes holds) ends

end Xineliboutput.Foundation
