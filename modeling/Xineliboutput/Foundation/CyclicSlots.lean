import Mathlib.Algebra.BigOperators.Group.Finset.Basic
import Mathlib.Algebra.BigOperators.Ring.Finset
import Mathlib.Data.Fintype.Card

/-!
# Slots addressed by a wrapping number

A fixed array of optional cells whose index is taken modulo the array size,
together with the count of its occupied cells. The number of a cell is the
caller's own, so a sequence number that runs on past the wrap needs no
reduction before it is used.
-/

namespace Xineliboutput.Foundation

set_option autoImplicit false

@[ext] structure CyclicSlots (size : Nat) (Item : Type*) where
  cell : Fin size → Option Item

namespace CyclicSlots

variable {size : Nat} [NeZero size] {Item : Type*}

def vacant : CyclicSlots size Item where
  cell _ := none

def get (slots : CyclicSlots size Item) (number : Nat) : Option Item :=
  slots.cell (Fin.ofNat size number)

def put (slots : CyclicSlots size Item) (number : Nat) (item : Option Item) :
    CyclicSlots size Item where
  cell := Function.update slots.cell (Fin.ofNat size number) item

def occupied (slots : CyclicSlots size Item) : Nat :=
  (Finset.univ.filter fun place => (slots.cell place).isSome).card

theorem of_nat_eq_iff (left right : Nat) :
    Fin.ofNat size left = Fin.ofNat size right ↔ left % size = right % size := by
  simp [Fin.ext_iff]

@[simp] theorem get_vacant (number : Nat) :
    (vacant : CyclicSlots size Item).get number = none := rfl

theorem get_put (slots : CyclicSlots size Item) (number other : Nat) (item : Option Item) :
    (slots.put number item).get other =
      if other % size = number % size then item else slots.get other := by
  simp only [get, put, Function.update_apply, of_nat_eq_iff]

@[simp] theorem get_put_same (slots : CyclicSlots size Item) (number : Nat)
    (item : Option Item) : (slots.put number item).get number = item := by
  simp [get_put]

theorem get_put_other (slots : CyclicSlots size Item) {number other : Nat}
    (item : Option Item) (different : other % size ≠ number % size) :
    (slots.put number item).get other = slots.get other := by
  rw [get_put, if_neg different]

theorem get_congr (slots : CyclicSlots size Item) {left right : Nat}
    (same : left % size = right % size) : slots.get left = slots.get right := by
  simp only [get, (of_nat_eq_iff left right).mpr same]

@[simp] theorem get_mod (slots : CyclicSlots size Item) (number : Nat) :
    slots.get (number % size) = slots.get number :=
  slots.get_congr (Nat.mod_mod _ _)

@[simp] theorem put_put (slots : CyclicSlots size Item) (number : Nat)
    (first second : Option Item) :
    (slots.put number first).put number second = slots.put number second := by
  simp [put]

@[simp] theorem put_get (slots : CyclicSlots size Item) (number : Nat) :
    slots.put number (slots.get number) = slots := by
  simp [put, get]

omit [NeZero size] in
@[simp] theorem occupied_vacant : (vacant : CyclicSlots size Item).occupied = 0 := by
  simp [occupied, vacant]

omit [NeZero size] in
theorem occupied_le (slots : CyclicSlots size Item) : slots.occupied ≤ size := by
  simpa [occupied] using Finset.card_filter_le (Finset.univ : Finset (Fin size))
    fun place => (slots.cell place).isSome

omit [NeZero size] in
theorem occupied_eq_sum (slots : CyclicSlots size Item) :
    slots.occupied = ∑ place, (slots.cell place).toList.length := by
  rw [occupied, Finset.card_filter]
  apply Finset.sum_congr rfl
  intro place _
  cases slots.cell place <;> simp

/-- One cell more or less: the cell that is written is counted out of the old
array and into the new one. -/
theorem occupied_put (slots : CyclicSlots size Item) (number : Nat) (item : Option Item) :
    (slots.put number item).occupied + (slots.get number).toList.length =
      slots.occupied + item.toList.length := by
  have elsewhere :
      ∑ place ∈ Finset.univ.erase (Fin.ofNat size number),
          ((slots.put number item).cell place).toList.length =
        ∑ place ∈ Finset.univ.erase (Fin.ofNat size number),
          (slots.cell place).toList.length := by
    apply Finset.sum_congr rfl
    intro place member
    have untouched : (slots.put number item).cell place = slots.cell place :=
      Function.update_of_ne (Finset.ne_of_mem_erase member) _ _
    rw [untouched]
  have written : (slots.put number item).cell (Fin.ofNat size number) = item := by
    simp [put]
  rw [occupied_eq_sum, occupied_eq_sum, get,
    ← Finset.add_sum_erase _ _ (Finset.mem_univ (Fin.ofNat size number)), elsewhere, written,
    ← Finset.add_sum_erase Finset.univ (fun place => (slots.cell place).toList.length)
      (Finset.mem_univ (Fin.ofNat size number))]
  omega

theorem occupied_put_new (slots : CyclicSlots size Item) (number : Nat) (item : Item)
    (free : slots.get number = none) :
    (slots.put number (some item)).occupied = slots.occupied + 1 := by
  simpa [free] using slots.occupied_put number (some item)

theorem occupied_put_none (slots : CyclicSlots size Item) (number : Nat) {item : Item}
    (used : slots.get number = some item) :
    (slots.put number none).occupied + 1 = slots.occupied := by
  simpa [used] using slots.occupied_put number none

theorem occupied_pos_of_get (slots : CyclicSlots size Item) {number : Nat} {item : Item}
    (used : slots.get number = some item) : 0 < slots.occupied := by
  have removed := slots.occupied_put_none number used
  omega

theorem exists_occupied_from (slots : CyclicSlots size Item) (start : Nat)
    (some_used : 0 < slots.occupied) :
    ∃ distance, distance < size ∧ (slots.get (start + distance)).isSome := by
  obtain ⟨place, member⟩ := Finset.card_pos.mp some_used
  have used : (slots.cell place).isSome := by simpa using member
  have sizePos : 0 < size := Nat.pos_of_neZero size
  refine ⟨(place.val + size - start % size) % size, Nat.mod_lt _ sizePos, ?_⟩
  have startBound : start % size < size := Nat.mod_lt _ sizePos
  have same : (start + (place.val + size - start % size) % size) % size = place.val := by
    rw [Nat.add_mod_mod, ← Nat.mod_add_mod,
      show start % size + (place.val + size - start % size) = place.val + size by omega,
      Nat.add_mod_right, Nat.mod_eq_of_lt place.isLt]
  have landed : Fin.ofNat size (start + (place.val + size - start % size) % size) = place :=
    Fin.ext same
  rw [get, landed]
  exact used

theorem occupied_eq_zero_iff (slots : CyclicSlots size Item) :
    slots.occupied = 0 ↔ ∀ number, slots.get number = none := by
  constructor
  · intro empty number
    cases used : slots.get number with
    | none => rfl
    | some item => exact absurd empty (slots.occupied_pos_of_get used).ne'
  · intro empty
    by_contra used
    obtain ⟨distance, -, found⟩ := slots.exists_occupied_from 0 (Nat.pos_of_ne_zero used)
    simp [empty] at found

/-- An array all of whose occupied cells lie in a stretch of numbers has no more
of them than the stretch is long. -/
theorem occupied_le_of_stretch (slots : CyclicSlots size Item) (start length : Nat)
    (inside : ∀ place : Fin size, (slots.cell place).isSome →
      ∃ distance, distance < length ∧ Fin.ofNat size (start + distance) = place) :
    slots.occupied ≤ length := by
  have covered : (Finset.univ.filter fun place => (slots.cell place).isSome) ⊆
      (Finset.range length).image fun distance => Fin.ofNat size (start + distance) := by
    intro place member
    obtain ⟨distance, bound, landed⟩ := inside place (by simpa using member)
    exact Finset.mem_image.mpr ⟨distance, Finset.mem_range.mpr bound, landed⟩
  calc
    slots.occupied ≤ _ := Finset.card_le_card covered
    _ ≤ (Finset.range length).card := Finset.card_image_le
    _ = length := Finset.card_range length

end CyclicSlots
end Xineliboutput.Foundation
