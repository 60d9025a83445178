import Mathlib.Algebra.Ring.Nat
import Mathlib.Data.List.Basic

/-!
# Readings of a clock that is adjusted while it runs

A clock is read as a function of its state and of the time. It is adjusted by
operations at given times. Where an operation keeps the reading at its own instant,
two readings compare as the clock moved between the operations.
-/

namespace Xineliboutput.Foundation

set_option autoImplicit false

instance microseconds_pos : NeZero 1000000 := ⟨Nat.succ_ne_zero 999999⟩

/-- `struct timeval` as the system calls fill it in. -/
structure Timeval where
  sec : Int
  usec : Fin 1000000
  deriving DecidableEq

def Timeval.micros (time : Timeval) : Int := 1000000 * time.sec + time.usec.val

def InOrder {Operation : Type*} (operations : List (Timeval × Operation)) : Prop :=
  operations.Pairwise fun earlier later => earlier.1.micros ≤ later.1.micros

instance in_order_decidable {Operation : Type*} (operations : List (Timeval × Operation)) :
    Decidable (InOrder operations) :=
  inferInstanceAs (Decidable (List.Pairwise _ _))

theorem InOrder.next {Operation : Type*} {operations : List (Timeval × Operation)}
    (inOrder : InOrder operations) (place : Nat) (within : place + 1 < operations.length) :
    operations[place].1.micros ≤ operations[place + 1].1.micros :=
  List.pairwise_iff_getElem.mp inOrder place (place + 1) _ _ (Nat.lt_succ_self place)

namespace Clock

variable {State Operation Time Reading : Type*}

/-- The state after the first `count` operations. -/
def stateAfter (perform : State → Time × Operation → State) (initial : State)
    (operations : List (Time × Operation)) (count : Nat) : State :=
  (operations.take count).foldl perform initial

@[simp] theorem state_after_zero (perform : State → Time × Operation → State) (initial : State)
    (operations : List (Time × Operation)) : stateAfter perform initial operations 0 = initial :=
  rfl

theorem state_after_succ (perform : State → Time × Operation → State) (initial : State)
    {operations : List (Time × Operation)} {count : Nat} (within : count < operations.length) :
    stateAfter perform initial operations (count + 1) =
      perform (stateAfter perform initial operations count) operations[count] := by
  rw [stateAfter, List.take_succ_eq_append_getElem within, List.foldl_append]
  rfl

def readingAt (perform : State → Time × Operation → State) (read : State → Time → Reading)
    (initial : State) (operations : List (Time × Operation)) (place : Nat)
    (within : place < operations.length) : Reading :=
  read (stateAfter perform initial operations place) operations[place].1

/-- Two readings are related as the clock, between the operations, relates its readings. -/
theorem readings_related {perform : State → Time × Operation → State}
    {read : State → Time → Reading} {initial : State} {operations : List (Time × Operation)}
    (Related : Reading → Reading → Prop) (reflexive : ∀ reading, Related reading reading)
    (transitive : ∀ {first second third}, Related first second → Related second third →
      Related first third)
    {first last : Nat} (ordered : first ≤ last) (within : last < operations.length)
    (keeps : ∀ place (inside : place < operations.length), first ≤ place → place < last →
      read (stateAfter perform initial operations (place + 1)) operations[place].1 =
        readingAt perform read initial operations place inside)
    (runs : ∀ place (inside : place + 1 < operations.length), first ≤ place → place < last →
      Related (read (stateAfter perform initial operations (place + 1)) operations[place].1)
        (readingAt perform read initial operations (place + 1) inside)) :
    Related (readingAt perform read initial operations first (Nat.lt_of_le_of_lt ordered within))
      (readingAt perform read initial operations last within) := by
  induction last, ordered using Nat.le_induction with
  | base => exact reflexive _
  | succ last reached ih =>
      have earlier := ih (Nat.lt_of_succ_lt within)
        (fun place inside after before => keeps place inside after (by omega))
        (fun place inside after before => runs place inside after (by omega))
      have onward := runs last within reached (Nat.lt_succ_self last)
      rw [keeps last (Nat.lt_of_succ_lt within) reached (Nat.lt_succ_self last)] at onward
      exact transitive earlier onward

end Clock
end Xineliboutput.Foundation
