import Mathlib.Data.List.Basic

/-!
# Scans of a memory

A scan computes a value from the cells it reads and from nothing else: run
against a larger memory it reads the same cells and ends with the same value.
Every scan carries that fact, so a parser written as a scan has it by
construction.
-/

namespace Xineliboutput.Foundation

set_option autoImplicit false

/-- `none` is a position outside. -/
abbrev Memory (Cell : Type) := Nat → Option Cell

def Memory.Extends {Cell : Type} (larger smaller : Memory Cell) : Prop :=
  ∀ position cell, smaller position = some cell → larger position = some cell

def Memory.ofList {Cell : Type} (cells : List Cell) : Memory Cell := fun position => cells[position]?

theorem Memory.of_list_extent {Cell : Type} (cells : List Cell) (position : Nat) :
    (Memory.ofList cells position).isSome = true ↔ position < cells.length := by
  simp [Memory.ofList]

theorem Memory.of_list_prefix {Cell : Type} {smaller larger : List Cell}
    (front : smaller <+: larger) : (Memory.ofList larger).Extends (Memory.ofList smaller) := by
  obtain ⟨rest, rfl⟩ := front
  intro position cell found
  have inside := (Memory.of_list_extent smaller position).mp (by rw [found]; rfl)
  exact (List.getElem?_append_left inside).trans found

structure Scan (Cell Value : Type) where
  run : Memory Cell → Option Value
  grows : ∀ {memory larger : Memory Cell}, larger.Extends memory →
    ∀ value, run memory = some value → run larger = some value

namespace Scan

variable {Cell Value Result : Type}

def fetch (position : Nat) : Scan Cell Cell where
  run memory := memory position
  grows extends' cell found := extends' position cell found

instance : Monad (Scan Cell) where
  pure value := ⟨fun _ => some value, fun _ _ same => same⟩
  bind scan onward := {
    run := fun memory => (scan.run memory).bind fun value => (onward value).run memory
    grows := by
      intro memory larger bigger result ran
      obtain ⟨value, first, second⟩ := Option.bind_eq_some_iff.mp ran
      exact Option.bind_eq_some_iff.mpr
        ⟨value, scan.grows bigger value first, (onward value).grows bigger result second⟩ }

variable (memory : Memory Cell)

@[simp] theorem run_pure (value : Value) :
    (pure value : Scan Cell Value).run memory = some value := rfl

@[simp] theorem run_bind (scan : Scan Cell Value) (onward : Value → Scan Cell Result) :
    (scan >>= onward).run memory =
      (scan.run memory).bind fun value => (onward value).run memory := rfl

@[simp] theorem run_fetch (position : Nat) : (fetch position).run memory = memory position := rfl

@[simp] theorem run_ite (condition : Prop) [Decidable condition] (first second : Scan Cell Value) :
    (if condition then first else second).run memory =
      if condition then first.run memory else second.run memory := by
  split <;> rfl

/-- The scan ends, whatever it reads, on memories that reach up to `bound`. -/
def EndsWithin (bound : Nat) (scan : Scan Cell Value) : Prop :=
  ∀ memory : Memory Cell, (∀ position < bound, (memory position).isSome = true) →
    (scan.run memory).isSome = true

namespace EndsWithin

variable {bound : Nat}

theorem pure (value : Value) : EndsWithin bound (Pure.pure value : Scan Cell Value) :=
  fun _ _ => rfl

theorem fetch {position : Nat} (inside : position < bound) :
    EndsWithin bound (Scan.fetch position : Scan Cell Cell) :=
  fun _ reaches => reaches position inside

theorem bind {scan : Scan Cell Value} {onward : Value → Scan Cell Result}
    (first : EndsWithin bound scan) (second : ∀ value, EndsWithin bound (onward value)) :
    EndsWithin bound (scan >>= onward) := by
  intro memory reaches
  obtain ⟨value, ran⟩ := Option.isSome_iff_exists.mp (first memory reaches)
  rw [run_bind, ran]
  exact second value memory reaches

theorem ite {condition : Prop} [Decidable condition] {first second : Scan Cell Value}
    (holds : condition → EndsWithin bound first) (fails : ¬condition → EndsWithin bound second) :
    EndsWithin bound (if condition then first else second) := by
  by_cases holding : condition
  · rw [if_pos holding]
    exact holds holding
  · rw [if_neg holding]
    exact fails holding

end EndsWithin

end Scan
end Xineliboutput.Foundation
