import Mathlib.Algebra.Ring.Nat
import Mathlib.Data.List.TakeDrop

/-!
# Writing into a buffer that grows

A program that fills a buffer takes steps: it looks at what it has used and at the size
it keeps, chooses a new size, and writes some cells at its position. The memory behind
the size it keeps has `room size` cells, which may be fewer than it thinks.
-/

namespace Xineliboutput.Foundation

set_option autoImplicit false

/-- A cell written while the buffer had `room` cells. -/
structure Write where
  place : Nat
  room : Nat
  deriving DecidableEq, Repr

def Write.Inside (write : Write) : Prop := write.place < write.room

instance (write : Write) : Decidable write.Inside :=
  inferInstanceAs (Decidable (write.place < write.room))

/-- From the used cells and the kept size to the new size, and the cells written then. -/
structure FillStep where
  enlarge : Nat → Nat → Nat
  count : Nat

def stretch (used count room : Nat) : List Write :=
  (List.range count).map fun index => ⟨used + index, room⟩

section Steps

variable (room : Nat → Nat)

def fillWrites (used size : Nat) : List FillStep → List Write
  | [] => []
  | step :: steps =>
      let size := step.enlarge used size
      stretch used step.count (room size) ++ fillWrites (used + step.count) size steps

def sizeAfter (used size : Nat) : List FillStep → Nat
  | [] => size
  | step :: steps => sizeAfter (used + step.count) (step.enlarge used size) steps

def cellCount (steps : List FillStep) : Nat := (steps.map FillStep.count).sum

def FillsInside (used size : Nat) (steps : List FillStep) : Prop :=
  ∀ write ∈ fillWrites room used size steps, write.Inside

@[simp] theorem cell_count_nil : cellCount [] = 0 := rfl

@[simp] theorem cell_count_cons (step : FillStep) (steps : List FillStep) :
    cellCount (step :: steps) = step.count + cellCount steps := by
  simp [cellCount]

@[simp] theorem cell_count_append (first second : List FillStep) :
    cellCount (first ++ second) = cellCount first + cellCount second := by
  simp [cellCount]

@[simp] theorem stretch_length (used count cells : Nat) :
    (stretch used count cells).length = count := by
  simp [stretch]

theorem stretch_inside {used count cells : Nat} :
    (∀ write ∈ stretch used count cells, write.Inside) ↔ count = 0 ∨ used + count ≤ cells := by
  constructor
  · intro inside
    by_cases none_written : count = 0
    · exact Or.inl none_written
    · have last : (⟨used + (count - 1), cells⟩ : Write) ∈ stretch used count cells :=
        List.mem_map.mpr ⟨count - 1, List.mem_range.mpr (by omega), rfl⟩
      have below : used + (count - 1) < cells := inside _ last
      exact Or.inr (by omega)
  · intro fits write written
    rw [stretch, List.mem_map] at written
    rcases written with ⟨index, earlier, rfl⟩
    have bound := List.mem_range.mp earlier
    show used + index < cells
    omega

variable {room}

@[simp] theorem fill_writes_length (used size : Nat) (steps : List FillStep) :
    (fillWrites room used size steps).length = cellCount steps := by
  induction steps generalizing used size with
  | nil => rfl
  | cons step steps ih => simp [fillWrites, ih]

theorem fills_inside_nil (used size : Nat) : FillsInside room used size [] :=
  fun _ written => absurd written List.not_mem_nil

theorem fills_inside_cons {used size : Nat} {step : FillStep} {steps : List FillStep}
    (writes : 0 < step.count) :
    FillsInside room used size (step :: steps) ↔
      used + step.count ≤ room (step.enlarge used size) ∧
        FillsInside room (used + step.count) (step.enlarge used size) steps := by
  rw [FillsInside, fillWrites, List.forall_mem_append, stretch_inside, FillsInside]
  apply and_congr_left
  intro _
  exact ⟨fun fits => fits.resolve_left (Nat.ne_of_gt writes), Or.inr⟩

theorem fills_inside_singleton {used size : Nat} {step : FillStep} (writes : 0 < step.count) :
    FillsInside room used size [step] ↔ used + step.count ≤ room (step.enlarge used size) := by
  rw [fills_inside_cons writes]
  exact and_iff_left (fills_inside_nil _ _)

theorem fills_inside_exact {enlarge : Nat → Nat → Nat} {count used size : Nat}
    {steps : List FillStep} (writes : 0 < count) :
    FillsInside id used size (⟨enlarge, count⟩ :: steps) ↔
      used + count ≤ enlarge used size ∧
        FillsInside id (used + count) (enlarge used size) steps :=
  fills_inside_cons writes

theorem fills_inside_append {used size : Nat} {first second : List FillStep} :
    FillsInside room used size (first ++ second) ↔
      FillsInside room used size first ∧
        FillsInside room (used + cellCount first) (sizeAfter used size first) second := by
  induction first generalizing used size with
  | nil =>
      rw [cell_count_nil, Nat.add_zero]
      exact ⟨fun inside => ⟨fills_inside_nil used size, inside⟩, And.right⟩
  | cons step first ih =>
      have split : FillsInside room (used + step.count) (step.enlarge used size)
            (first ++ second) ↔ _ := ih
      rw [FillsInside, FillsInside, FillsInside] at split
      rw [FillsInside, FillsInside, FillsInside, List.cons_append, fillWrites, fillWrites,
        List.forall_mem_append, List.forall_mem_append, split, sizeAfter, cell_count_cons,
        Nat.add_assoc, and_assoc]

theorem size_after_append (used size : Nat) (first second : List FillStep) :
    sizeAfter used size (first ++ second) =
      sizeAfter (used + cellCount first) (sizeAfter used size first) second := by
  induction first generalizing used size with
  | nil => rfl
  | cons step first ih =>
      rw [List.cons_append, sizeAfter, ih, sizeAfter, cell_count_cons, Nat.add_assoc]

end Steps

end Xineliboutput.Foundation
