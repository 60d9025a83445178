import Mathlib.Data.List.Basic

/-!
# Fixed-size blocks of memory

A block has as many cells as its type says. Reading, copying out and overwriting
answer `none` when they would leave the block, so code that is shown to answer
`some` has been shown to stay inside it.
-/

namespace Xineliboutput.Foundation

set_option autoImplicit false

section Cells

variable {Cell : Type*} (front behind : List Cell) (old new : Cell)

theorem set_front : (front ++ old :: behind).set front.length new = front ++ new :: behind := by
  rw [List.set_append_right _ _ (Nat.le_refl _), Nat.sub_self, List.set_cons_zero]

theorem checked_set_front :
    (if front.length < (front ++ old :: behind).length then
      some ((front ++ old :: behind).set front.length new) else none) =
        some (front ++ new :: behind) := by
  rw [set_front, if_pos]
  rw [List.length_append, List.length_cons]
  omega

end Cells

structure Block (Cell : Type*) (size : Nat) where
  cells : List Cell
  sized : cells.length = size
deriving DecidableEq

namespace Block

variable {Cell : Type*} {size : Nat}

def filled (cell : Cell) : Block Cell size := ⟨List.replicate size cell, List.length_replicate⟩

def cell (block : Block Cell size) (index : Fin size) : Cell :=
  block.cells.get (index.cast block.sized.symm)

def read (block : Block Cell size) (position : Nat) : Option Cell := block.cells[position]?

def slice (block : Block Cell size) (start count : Nat) : Option (List Cell) :=
  if start + count ≤ size then some ((block.cells.drop start).take count) else none

def overwrite (block : Block Cell size) (start : Nat) (data : List Cell) :
    Option (Block Cell size) :=
  if fits : start + data.length ≤ size then
    some {
      cells := block.cells.take start ++ data ++ block.cells.drop (start + data.length)
      sized := by
        have sized := block.sized
        simp only [List.length_append, List.length_take, List.length_drop]
        omega }
  else none

theorem read_cell (block : Block Cell size) (index : Fin size) :
    block.read index = some (block.cell index) := by
  unfold read Block.cell
  rw [List.getElem?_eq_getElem (by rw [block.sized]; exact index.isLt)]
  rfl

theorem read_is_some (block : Block Cell size) (position : Nat) :
    (block.read position).isSome = true ↔ position < size := by
  unfold read
  simp [block.sized]

theorem slice_is_some (block : Block Cell size) (start count : Nat) :
    (block.slice start count).isSome = true ↔ start + count ≤ size := by
  unfold slice
  split <;> simp [*]

theorem slice_eq (block : Block Cell size) {start count : Nat} (fits : start + count ≤ size) :
    block.slice start count = some ((block.cells.drop start).take count) := if_pos fits

theorem overwrite_is_some (block : Block Cell size) (start : Nat) (data : List Cell) :
    (block.overwrite start data).isSome = true ↔ start + data.length ≤ size := by
  unfold overwrite
  split <;> simp [*]

theorem overwrite_cells {block after : Block Cell size} {start : Nat} {data : List Cell}
    (written : block.overwrite start data = some after) :
    after.cells = block.cells.take start ++ data ++ block.cells.drop (start + data.length) := by
  unfold overwrite at written
  split at written
  · cases written
    rfl
  · cases written

section Parts

variable {block : Block Cell size} {front middle behind : List Cell}

theorem slice_part (cells : block.cells = front ++ middle ++ behind) :
    block.slice front.length middle.length = some middle := by
  have sized := block.sized
  rw [cells, List.length_append, List.length_append] at sized
  rw [slice_eq block (by omega), cells, List.append_assoc, List.drop_left, List.take_left]

theorem overwrite_part {data : List Cell} (cells : block.cells = front ++ middle ++ behind)
    (same : data.length = middle.length) :
    ∃ after, block.overwrite front.length data = some after ∧
      after.cells = front ++ data ++ behind := by
  have sized := block.sized
  rw [cells, List.length_append, List.length_append] at sized
  obtain ⟨after, written⟩ := Option.isSome_iff_exists.mp
    ((overwrite_is_some block front.length data).mpr (by omega))
  refine ⟨after, written, ?_⟩
  rw [overwrite_cells written, cells, List.append_assoc front, List.take_left, same,
    ← List.drop_drop, List.drop_left, List.drop_left]

theorem overwrite_rest {cell : Cell} {data : List Cell} {rest : Nat}
    (cells : block.cells = front ++ List.replicate rest cell) (room : data.length ≤ rest) :
    ∃ after, block.overwrite front.length data = some after ∧
      after.cells = front ++ data ++ List.replicate (rest - data.length) cell := by
  have split : List.replicate rest cell =
      List.replicate data.length cell ++ List.replicate (rest - data.length) cell := by
    rw [List.replicate_append_replicate, Nat.add_sub_of_le room]
  rw [split, ← List.append_assoc] at cells
  exact overwrite_part cells List.length_replicate.symm

end Parts

theorem ext_cells {block other : Block Cell size} (same : block.cells = other.cells) :
    block = other := by
  cases block
  cases other
  cases same
  rfl

end Block
end Xineliboutput.Foundation

/-!
# Memory written in stretches

A program that writes runs of equal cells is described by the list of its fills,
in the order it writes them. What memory holds afterwards is computed from them;
what was written where can be read off them.
-/

namespace Xineliboutput.Foundation

set_option autoImplicit false

structure Fill (Cell : Type*) where
  start : Nat
  length : Nat
  value : Cell
  deriving DecidableEq, Repr

variable {Cell : Type*}

def Fill.Covers (fill : Fill Cell) (place : Nat) : Prop :=
  fill.start ≤ place ∧ place < fill.start + fill.length

def Fill.apply (fill : Fill Cell) (memory : Nat → Cell) : Nat → Cell :=
  fun place =>
    if fill.start ≤ place ∧ place < fill.start + fill.length then fill.value else memory place

def paint : List (Fill Cell) → (Nat → Cell) → Nat → Cell
  | [], memory => memory
  | fill :: rest, memory => paint rest (fill.apply memory)

@[simp] theorem paint_nil (memory : Nat → Cell) : paint [] memory = memory := rfl

@[simp] theorem paint_cons (fill : Fill Cell) (rest : List (Fill Cell)) (memory : Nat → Cell) :
    paint (fill :: rest) memory = paint rest (fill.apply memory) := rfl

theorem paint_append (first second : List (Fill Cell)) (memory : Nat → Cell) :
    paint (first ++ second) memory = paint second (paint first memory) := by
  induction first generalizing memory with
  | nil => rfl
  | cons fill first ih => exact ih (fill.apply memory)

theorem Fill.apply_covered (fill : Fill Cell) (memory : Nat → Cell) {place : Nat}
    (inside : fill.Covers place) : fill.apply memory place = fill.value :=
  if_pos inside

theorem Fill.apply_elsewhere (fill : Fill Cell) (memory : Nat → Cell) {place : Nat}
    (outside : ¬ fill.Covers place) : fill.apply memory place = memory place :=
  if_neg outside

end Xineliboutput.Foundation
