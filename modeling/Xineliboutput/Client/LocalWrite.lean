import Xineliboutput.Client.BufferFill
import Xineliboutput.Foundation.Block

/-!
# Local writes

`vdr_plugin_write` of `xine_input_vdr.c`: a packet of the local VDR is copied behind a header
into a buffer of the pool that `get_buf_element` chose. A call is `none` where it would store
behind the end of that buffer.
-/

namespace Xineliboutput.Client

open Xineliboutput.Foundation

set_option autoImplicit false

/-- The sizes that xine gave to the buffers of its own two fifos. -/
structure StreamBufferSizes where
  video : Nat
  audio : Nat

/-- `max_size` of the buffers of a pool. -/
def StreamBufferSizes.maxSize (sizes : StreamBufferSizes) : Pool → Nat
  | .video => sizes.video
  | .hd => hdBufElemSize
  | .audio => sizes.audio
  | .block => 0x10000 + 64

/-- `sizeof(stream_local_header_t)` -/
abbrev localHeaderSize : Nat := 8

/-- A `BUF_LOCAL_BLOCK`; its content starts with its memory. -/
structure LocalBlock (sizes : StreamBufferSizes) where
  pool : Pool
  mem : Block UInt8 (sizes.maxSize pool)
  size : Nat

structure LocalInput (sizes : StreamBufferSizes) where
  buffers : Buffers
  /-- What `vdr_plugin_write` put into `block_buffer`. -/
  queue : List (LocalBlock sizes)
  writeOverflows : Nat
  /-- `slave.stream` is set. -/
  slave : Bool

structure LocalPacket where
  stream : Nat
  pos : UInt64
  data : List UInt8

def LocalPacket.len (packet : LocalPacket) : Nat := packet.data.length

variable {sizes : StreamBufferSizes}

namespace LocalInput

variable (native : UInt64 → Block UInt8 localHeaderSize)
  (fresh : (pool : Pool) → Block UInt8 (sizes.maxSize pool))
  (this : LocalInput sizes) (packet : LocalPacket)

/-- The buffer that `get_buf_element` returns. -/
def bufferFor : Option Pool := this.buffers.getBufElement packet.len false

def content (packet : LocalPacket) : List UInt8 := (native packet.pos).cells ++ packet.data

def overflow : LocalInput sizes := { this with writeOverflows := this.writeOverflows + 1 }

def ignore (pool : Pool) : LocalInput sizes :=
  { this with
    buffers := (this.buffers.take pool .held).give pool .held
    writeOverflows := 0 }

/-- `block_buffer->put` -/
def put (pool : Pool) (mem : Block UInt8 (sizes.maxSize pool)) (size : Nat) : LocalInput sizes :=
  { this with
    buffers := (this.buffers.take pool .held).move pool .held .blockFifo
    queue := this.queue ++ [⟨pool, mem, size⟩]
    writeOverflows := 0 }

/-- `vdr_plugin_write` with the value returned. `native` gives the bytes of a `uint64_t` on the
host, `fresh` what is in a buffer that comes from a pool. -/
def vdrPluginWrite : Option (LocalInput sizes × Nat) :=
  if this.slave = true ∨ packet.stream ≠ 0 then some (this, packet.len)
  else
    match this.bufferFor packet with
    | none => some (this.overflow, 0)
    | some pool =>
        if sizes.maxSize pool < packet.len then some (this.ignore pool, packet.len)
        else do
          let mem ← (fresh pool).overwrite 0 (native packet.pos).cells
          let mem ← mem.overwrite localHeaderSize packet.data
          some (this.put pool mem (packet.len + localHeaderSize), packet.len)

/-- What a call with a buffer may do: the packet and its header fit, and the buffer that is
queued contains both, or nothing is queued. -/
structure Inside (pool : Pool) (next : LocalInput sizes) (result : Nat) : Prop where
  result : result = packet.len
  complete : localHeaderSize + packet.len ≤ sizes.maxSize pool →
    ∃ mem : Block UInt8 (sizes.maxSize pool),
      next.queue = this.queue ++ [⟨pool, mem, packet.len + localHeaderSize⟩] ∧
        mem.slice 0 (localHeaderSize + packet.len) = some (content native packet)
  nothing : sizes.maxSize pool < localHeaderSize + packet.len → next.queue = this.queue

/-- The call stores inside the buffer that it got. Without a buffer it is to be repeated. -/
def WritesInside : Prop :=
  ∃ next result, this.vdrPluginWrite native fresh packet = some (next, result) ∧
    if this.slave = true ∨ packet.stream ≠ 0 then
      result = packet.len ∧ next.queue = this.queue
    else
      match this.bufferFor packet with
      | none => result = 0 ∧ next.queue = this.queue
      | some pool => this.Inside native packet pool next result

/-- The packet is not taken, does not fit, or fits together with its header. -/
def HeaderFits : Prop :=
  this.slave = false → packet.stream = 0 → ∀ pool, this.bufferFor packet = some pool →
    packet.len ≤ sizes.maxSize pool → localHeaderSize + packet.len ≤ sizes.maxSize pool

variable {native fresh this packet}

theorem content_length : (content native packet).length = localHeaderSize + packet.len := by
  rw [content, List.length_append, (native packet.pos).sized, LocalPacket.len]

/-- The two stores succeed exactly if the buffer has room for the header too. -/
theorem stored_iff (pool : Pool) :
    (∃ mem, ((fresh pool).overwrite 0 (native packet.pos).cells).bind
        (fun mem => mem.overwrite localHeaderSize packet.data) = some mem) ↔
      localHeaderSize + packet.len ≤ sizes.maxSize pool := by
  constructor
  · intro stored
    obtain ⟨mem, stored⟩ := stored
    obtain ⟨first, _, second⟩ := Option.bind_eq_some_iff.mp stored
    exact (Block.overwrite_is_some first _ _).mp (by rw [second]; rfl)
  · intro fits
    have header : ((fresh pool).overwrite 0 (native packet.pos).cells).isSome = true := by
      rw [Block.overwrite_is_some, (native packet.pos).sized]
      omega
    obtain ⟨first, written⟩ := Option.isSome_iff_exists.mp header
    obtain ⟨mem, stored⟩ :=
      Option.isSome_iff_exists.mp ((Block.overwrite_is_some first _ packet.data).mpr fits)
    exact ⟨mem, Option.bind_eq_some_iff.mpr ⟨first, written, stored⟩⟩

theorem stored_content {pool : Pool} {mem : Block UInt8 (sizes.maxSize pool)}
    (stored : ((fresh pool).overwrite 0 (native packet.pos).cells).bind
      (fun mem => mem.overwrite localHeaderSize packet.data) = some mem) :
    mem.slice 0 (localHeaderSize + packet.len) = some (content native packet) := by
  rw [Block.slice_eq mem (by rw [Nat.zero_add]; exact (stored_iff pool).mp ⟨mem, stored⟩)]
  obtain ⟨first, written, stored⟩ := Option.bind_eq_some_iff.mp stored
  have front : first.cells.take localHeaderSize = (native packet.pos).cells := by
    rw [Block.overwrite_cells written, List.take_zero, List.nil_append]
    exact List.take_left' (native packet.pos).sized
  rw [Block.overwrite_cells stored, front, ← content, List.drop_zero]
  exact congrArg some (List.take_left' content_length)

theorem write_fitting {pool : Pool} (main : ¬(this.slave = true ∨ packet.stream ≠ 0))
    (buffer : this.bufferFor packet = some pool)
    (fits : localHeaderSize + packet.len ≤ sizes.maxSize pool) :
    ∃ next result, this.vdrPluginWrite native fresh packet = some (next, result) ∧
      this.Inside native packet pool next result := by
  obtain ⟨mem, stored⟩ := (stored_iff pool).mpr fits
  obtain ⟨first, written, second⟩ := Option.bind_eq_some_iff.mp stored
  refine ⟨this.put pool mem (packet.len + localHeaderSize), packet.len, ?_, rfl, ?_, ?_⟩
  · rw [vdrPluginWrite, if_neg main, buffer]
    dsimp only
    rw [if_neg (by omega), written]
    simp only [Option.bind_eq_bind, Option.bind_some, second]
  · intro _
    exact ⟨mem, rfl, stored_content stored⟩
  · intro long
    exact absurd fits (by omega)

theorem write_long {pool : Pool} (main : ¬(this.slave = true ∨ packet.stream ≠ 0))
    (buffer : this.bufferFor packet = some pool) (long : sizes.maxSize pool < packet.len) :
    ∃ next result, this.vdrPluginWrite native fresh packet = some (next, result) ∧
      this.Inside native packet pool next result := by
  refine ⟨this.ignore pool, packet.len, ?_, rfl, ?_, ?_⟩
  · rw [vdrPluginWrite, if_neg main, buffer]
    dsimp only
    rw [if_pos long]
  · intro fits
    exact absurd fits (by omega)
  · intro _
    rfl

/-- The header is not counted when a packet is found too long. -/
theorem writes_inside_iff :
    this.WritesInside native fresh packet ↔ this.HeaderFits packet := by
  unfold WritesInside HeaderFits
  by_cases main : this.slave = true ∨ packet.stream ≠ 0
  · rw [vdrPluginWrite, if_pos main]
    constructor
    · intro _ slave stream
      rcases main with set | other
      · rw [slave] at set
        cases set
      · exact absurd stream other
    · intro _
      refine ⟨this, packet.len, rfl, ?_⟩
      rw [if_pos main]
      exact ⟨rfl, rfl⟩
  · obtain ⟨slave, stream⟩ : this.slave = false ∧ packet.stream = 0 := by
      simpa only [not_or, Bool.not_eq_true, not_not] using main
    simp only [if_neg main]
    simp only [slave, stream, forall_const]
    cases buffer : this.bufferFor packet with
    | none =>
        constructor
        · intro _ pool got
          cases got
        · intro _
          refine ⟨this.overflow, 0, ?_, rfl, rfl⟩
          rw [vdrPluginWrite, if_neg main, buffer]
    | some pool =>
        constructor
        · intro inside other same short
          cases same
          obtain ⟨next, result, written, _⟩ := inside
          rw [vdrPluginWrite, if_neg main, buffer] at written
          dsimp only at written
          rw [if_neg (by omega)] at written
          obtain ⟨first, stored, rest⟩ := Option.bind_eq_some_iff.mp written
          obtain ⟨mem, second, _⟩ := Option.bind_eq_some_iff.mp rest
          exact (stored_iff pool).mp ⟨mem, Option.bind_eq_some_iff.mpr ⟨first, stored, second⟩⟩
        · intro fits
          by_cases long : sizes.maxSize pool < packet.len
          · exact write_long main buffer long
          · exact write_fitting main buffer (fits pool rfl (by omega))

/-- An HD stream whose pools are all free, with the buffers that xine has by default. -/
def hdInput : LocalInput ⟨8192, 8192⟩ where
  buffers := { openedBuffers (fun _ => 500) with hdStream := true, reservedBuffers := 2 }
  queue := []
  writeOverflows := 0
  slave := false

def hdPacket : LocalPacket where
  stream := 0
  pos := 0
  data := List.replicate hdBufElemSize 0

theorem hd_header_outside :
    ¬hdInput.WritesInside (fun _ => .filled 0) (fun _ => .filled 0) hdPacket := by
  intro inside
  obtain ⟨next, result, written, _⟩ := inside
  have outside :
      hdInput.vdrPluginWrite (fun _ => .filled 0) (fun _ => .filled 0) hdPacket = none := by
    decide +kernel
  rw [outside] at written
  cases written

end LocalInput
end Xineliboutput.Client
