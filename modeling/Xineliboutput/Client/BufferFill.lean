import Mathlib.Algebra.Ring.Int.Defs
import Mathlib.Algebra.Ring.Nat
import Mathlib.Logic.Function.Basic
import Mathlib.Tactic.SplitIfs
import Xineliboutput.Foundation.Machine

/-!
# The fill level of the buffers

The buffers of `xine_input_vdr.c`: each is free in the pool it comes from, in one of the three
fifos that `vdr_adjust_realtime_speed` counts, or somewhere else. The reserve is not counted
as free.
-/

namespace Xineliboutput.Client

open Xineliboutput.Foundation

set_option autoImplicit false

/-- The pools: `buffer_pool` (that of the video fifo), `hd_buffer`, and those of the audio fifo
and of `block_buffer`. -/
inductive Pool where
  | video
  | hd
  | audio
  | block
  deriving DecidableEq

inductive Place where
  /-- `block_buffer`, `stream->video_fifo` and `stream->audio_fifo` -/
  | blockFifo
  | videoFifo
  | audioFifo
  /-- `udp_data->queue` -/
  | udpQueue
  /-- `read_buffer`: a packet that is read in parts -/
  | readBuffer
  /-- A thread has it: a reader, the demuxer or a decoder. -/
  | held
  deriving DecidableEq

structure Buffers where
  capacity : Pool → Nat
  numFree : Pool → Nat
  lying : Pool → Place → Nat
  hdStream : Bool
  reservedBuffers : Nat

abbrev radioMaxBuffers : Nat := 10

abbrev hdBufElemSize : Nat := 2048 + 64

/-- What `set_buffer_limits` reads. -/
structure StreamMode where
  hdStream : Bool
  noVideo : Bool
  liveMode : Bool
  /-- `fd_control >= 0` -/
  remote : Bool
  deriving DecidableEq

namespace Buffers

variable (this : Buffers)

def streamPool : Pool := if this.hdStream then .hd else .video

/-! ## Allocation -/

/-- `get_buf_element`: the pool it takes a buffer from. The reserve is taken for an `int`. -/
def getBufElement (size : Nat) (force : Bool) : Option Pool :=
  let reserved := (this.reservedBuffers : Int).bmod (2 ^ 32)
  let hd := this.hdStream && size ≤ hdBufElemSize
  if hd && reserved < this.numFree .hd && 0 < this.numFree .hd then some .hd
  else if hd && !force then none
  else if !force && this.numFree .video < reserved then none
  else if size < 8000 ∧ 0 < this.numFree .video then some .video
  else if 8000 ≤ size ∧ size < 0xffff ∧ 0 < this.numFree .block then some .block
  else if 0 < this.numFree .audio then some .audio
  else none

def setLying (pool : Pool) (place : Place) (count : Nat) : Buffers :=
  { this with
    lying := Function.update this.lying pool (Function.update (this.lying pool) place count) }

def take (pool : Pool) (place : Place) : Buffers :=
  { this.setLying pool place (this.lying pool place + 1) with
    numFree := Function.update this.numFree pool (this.numFree pool - 1) }

/-- `buffer_pool_free` -/
def give (pool : Pool) (place : Place) : Buffers :=
  { this.setLying pool place (this.lying pool place - 1) with
    numFree := Function.update this.numFree pool (this.numFree pool + 1) }

def move (pool : Pool) (source target : Place) : Buffers :=
  let this := this.setLying pool source (this.lying pool source - 1)
  this.setLying pool target (this.lying pool target + 1)

/-- `set_buffer_limits`; the difference is that of two `int`. -/
def setBufferLimits (mode : StreamMode) : Buffers :=
  let this := { this with hdStream := mode.hdStream }
  let capacity := this.capacity this.streamPool
  let maxBuffers : Int :=
    if mode.noVideo then radioMaxBuffers
    else capacity - (if mode.liveMode = false ∧ mode.remote = false then capacity / 4 else 0) - 10
  let reserved := if (capacity : Int) < maxBuffers then 10 else ((capacity : Int) - maxBuffers).toNat
  { this with reservedBuffers := if reserved < 2 then 2 else reserved }

/-! ## The fill level -/

/-- `size` of a fifo -/
def size (place : Place) : Nat :=
  this.lying .video place + this.lying .hd place + this.lying .audio place +
    this.lying .block place

def numUsed : Nat := this.size .videoFifo + this.size .blockFifo + this.size .audioFifo

/-- `num_free` without the reserve -/
def numFreeLeft : Nat :=
  let numFree := this.numFree this.streamPool
  if numFree < this.reservedBuffers then 0 else numFree - this.reservedBuffers

/-- What `vdr_adjust_realtime_speed` divides by. -/
def divisor : Nat := this.numUsed + this.numFreeLeft

end Buffers

/-! ## Runs -/

inductive BufferStep where
  /-- `get_buf_element` -/
  | get (size : Nat) (force : Bool)
  /-- A buffer for a control message, or one that xine allocates. -/
  | alloc (pool : Pool) (place : Place)
  | move (pool : Pool) (source target : Place)
  | free (pool : Pool) (place : Place)
  | limits (mode : StreamMode)
  /-- `vdr_adjust_realtime_speed` -/
  | adjust
  deriving DecidableEq

def performBuffer (this : Buffers) : BufferStep → Option Buffers
  | .get size force => some ((this.getBufElement size force).elim this (this.take · .held))
  | .alloc pool place => some (if this.numFree pool = 0 then this else this.take pool place)
  | .move pool source target =>
      if this.lying pool source = 0 then none else some (this.move pool source target)
  | .free pool place => if this.lying pool place = 0 then none else some (this.give pool place)
  | .limits mode => some (this.setBufferLimits mode)
  | .adjust => some this

/-- `vdr_plugin_open`, with pools of these capacities. -/
def openedBuffers (capacity : Pool → Nat) : Buffers where
  capacity
  numFree := capacity
  lying _ _ := 0
  hdStream := false
  reservedBuffers := (capacity .video + (2 ^ 32 - radioMaxBuffers)) % 2 ^ 32

/-! ## Every buffer is somewhere -/

namespace Buffers

variable (this : Buffers) (pool : Pool) (place : Place)

def inFifos : Nat :=
  this.lying pool .blockFifo + this.lying pool .videoFifo + this.lying pool .audioFifo

/-- The buffers of the pool that are neither free nor in a counted fifo. -/
def elsewhere : Nat :=
  this.lying pool .udpQueue + this.lying pool .readBuffer + this.lying pool .held

def out : Nat := this.inFifos pool + this.elsewhere pool

def Conserved : Prop := ∀ pool, this.numFree pool + this.out pool = this.capacity pool

theorem out_set (count : Nat) :
    (this.setLying pool place count).out pool + this.lying pool place =
      this.out pool + count := by
  cases place <;> simp [out, inFifos, elsewhere, setLying] <;> omega

theorem out_set_other {pool other : Pool} (differs : other ≠ pool) (place : Place) (count : Nat) :
    (this.setLying pool place count).out other = this.out other := by
  simp [out, inFifos, elsewhere, setLying, differs]

variable {this pool place}

theorem Conserved.of_exchange {numFree count : Nat} (conserved : this.Conserved)
    (exchange : numFree + count = this.numFree pool + this.lying pool place) :
    Conserved { this.setLying pool place count with
      numFree := Function.update this.numFree pool numFree } := by
  intro other
  have before := conserved other
  by_cases same : other = pool
  · rw [same] at before ⊢
    have moved := this.out_set pool place count
    change Function.update this.numFree pool numFree pool + (this.setLying pool place count).out pool =
      this.capacity pool
    rw [Function.update_self]
    omega
  · change Function.update this.numFree pool numFree other +
      (this.setLying pool place count).out other = this.capacity other
    rw [Function.update_of_ne same, this.out_set_other same]
    exact before

theorem Conserved.take (conserved : this.Conserved) (free : this.numFree pool ≠ 0) :
    (this.take pool place).Conserved :=
  conserved.of_exchange (by omega)

theorem Conserved.give (conserved : this.Conserved) (there : this.lying pool place ≠ 0) :
    (this.give pool place).Conserved :=
  conserved.of_exchange (by omega)

theorem Conserved.move {source target : Place} (conserved : this.Conserved)
    (there : this.lying pool source ≠ 0) : (this.move pool source target).Conserved := by
  intro other
  have before := conserved other
  by_cases same : other = pool
  · rw [same] at before ⊢
    have left := this.out_set pool source (this.lying pool source - 1)
    have come := (this.setLying pool source (this.lying pool source - 1)).out_set pool target
      ((this.setLying pool source (this.lying pool source - 1)).lying pool target + 1)
    change this.numFree pool + (this.move pool source target).out pool = this.capacity pool
    rw [Buffers.move]
    omega
  · change this.numFree other + (this.move pool source target).out other = this.capacity other
    rw [Buffers.move, out_set_other _ same, out_set_other _ same]
    exact before

theorem get_buf_element_free {size : Nat} {force : Bool}
    (got : this.getBufElement size force = some pool) : this.numFree pool ≠ 0 := by
  unfold getBufElement at got
  dsimp only at got
  split_ifs at got with hd _ _ video block audio
  · cases got
    simp only [Bool.and_eq_true, decide_eq_true_eq] at hd
    exact Nat.ne_of_gt hd.2
  · cases got
    exact Nat.ne_of_gt video.2
  · cases got
    exact Nat.ne_of_gt block.2.2
  · cases got
    exact Nat.ne_of_gt audio

end Buffers

theorem opened_conserved (capacity : Pool → Nat) : (openedBuffers capacity).Conserved := by
  intro pool
  rfl

theorem perform_conserved (step : BufferStep) {this next : Buffers} (conserved : this.Conserved)
    (performed : performBuffer this step = some next) : next.Conserved := by
  cases step with
  | get size force =>
      cases performed
      cases got : this.getBufElement size force with
      | none => exact conserved
      | some pool => exact conserved.take (Buffers.get_buf_element_free got)
  | alloc pool place =>
      cases performed
      split
      · exact conserved
      · rename_i free
        exact conserved.take free
  | move pool source target =>
      rw [performBuffer] at performed
      split at performed
      · cases performed
      · rename_i there
        cases performed
        exact conserved.move there
  | free pool place =>
      rw [performBuffer] at performed
      split at performed
      · cases performed
      · rename_i there
        cases performed
        exact conserved.give there
  | limits mode =>
      cases performed
      exact conserved
  | adjust =>
      cases performed
      exact conserved

/-- In every state of a run from `vdr_plugin_open`. -/
theorem follow_conserved (capacity : Pool → Nat) (steps : List BufferStep) :
    ∀ count ≤ steps.length, ∀ this,
      Machine.follow performBuffer (openedBuffers capacity) (steps.take count) = some this →
      this.Conserved := by
  apply @Machine.follow_invariant _ _ performBuffer Buffers.Conserved (fun _ _ => True)
    _ (opened_conserved capacity)
  · intro this step next conserved _ performed
    exact perform_conserved step conserved performed
  · intro _ _ _ _ _ _
    trivial

/-! ## The divisor -/

/-- A counted fifo is not empty, or the reserve does not reach to the buffers that are
elsewhere. -/
def Buffers.Roomy (this : Buffers) : Prop :=
  0 < this.numUsed ∨
    this.elsewhere this.streamPool + this.reservedBuffers < this.capacity this.streamPool

theorem in_fifos_le_used (this : Buffers) (pool : Pool) : this.inFifos pool ≤ this.numUsed := by
  cases pool <;> simp only [Buffers.inFifos, Buffers.numUsed, Buffers.size] <;> omega

theorem divisor_pos_iff {this : Buffers} (conserved : this.Conserved) :
    0 < this.divisor ↔ this.Roomy := by
  have whole := conserved this.streamPool
  have counted := in_fifos_le_used this this.streamPool
  rw [Buffers.out] at whole
  rw [Buffers.divisor, Buffers.Roomy, Buffers.numFreeLeft]
  constructor
  · intro positive
    by_cases used : 0 < this.numUsed
    · exact .inl used
    · right
      split at positive
      · omega
      · omega
  · rintro (used | room)
    · omega
    · split
      · omega
      · omega

/-- Throughout every run, the fill level is computed without a division by zero exactly where
each call finds room. -/
theorem divisor_positive_iff (capacity : Pool → Nat) (steps : List BufferStep) :
    (∀ (count : Nat) (within : count < steps.length) (this : Buffers),
        Machine.follow performBuffer (openedBuffers capacity) (steps.take count) = some this →
        steps[count] = .adjust → 0 < this.divisor) ↔
      ∀ (count : Nat) (within : count < steps.length) (this : Buffers),
        Machine.follow performBuffer (openedBuffers capacity) (steps.take count) = some this →
        steps[count] = .adjust → this.Roomy := by
  have exactly : ∀ (count : Nat), count < steps.length → ∀ this,
      Machine.follow performBuffer (openedBuffers capacity) (steps.take count) = some this →
      (0 < this.divisor ↔ this.Roomy) := by
    intro count within this reached
    exact divisor_pos_iff
      (follow_conserved capacity steps count (Nat.le_of_lt within) this reached)
  constructor
  · intro positive count within this reached adjusts
    exact (exactly count within this reached).mp (positive count within this reached adjusts)
  · intro roomy count within this reached adjusts
    exact (exactly count within this reached).mpr (roomy count within this reached adjusts)

/-- Radio over UDP: a datagram is missing, and the ten after it wait in the queue. -/
def tenQueued : List BufferStep :=
  .limits ⟨false, true, true, true⟩ ::
    (List.replicate 10 [.get 2076 false, .move .video .held .udpQueue]).flatten

theorem ten_queued_divide_by_zero :
    (Machine.follow performBuffer (openedBuffers fun _ => 500) tenQueued).map Buffers.divisor =
      some 0 := by
  decide

end Xineliboutput.Client
