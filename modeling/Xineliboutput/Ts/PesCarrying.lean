import Xineliboutput.Ts.Ts2esBounds

/-!
# PES packets in a transport stream

A PES packet starts in a packet of its own that holds its whole header, and ends
where a packet ends. The buffers of one PES packet form a chain: the first carries
its time, the others none, and only the last may be marked as the end of a frame.
-/

namespace Xineliboutput.Ts

open Xineliboutput.Foundation

set_option autoImplicit false

/-! ## PES packets -/

/-- A PES packet of a video or MPEG audio stream, whose time stamp, if it has one,
lies in its header. Its length is given or unknown. -/
structure PesPacket where
  header : List UInt8
  payload : List UInt8
  headerDataLength : UInt8
  start : [0, 0, 1] <+: header
  streamId : isVideoPacket (header.getD 3 0) = true ∨ isMpegAudioPacket (header.getD 3 0) = true
  lengthField : header[8]? = some headerDataLength
  headerSized : header.length = 9 + headerDataLength.toNat
  timed : header.getD 7 0 &&& 0x80 ≠ 0 → 13 < header.length
  sized : word (header.getD 4 0) (header.getD 5 0) = 0 ∨
    word (header.getD 4 0) (header.getD 5 0) + 6 = header.length + payload.length

namespace PesPacket

def known (pes : PesPacket) : Bool := word (pes.header.getD 4 0) (pes.header.getD 5 0) ≠ 0

def pts (pes : PesPacket) : Int :=
  match (pesGetPts pes.header.length).run (Memory.ofList pes.header) with
  | some found => if found < 0 then 0 else found
  | none => 0

end PesPacket

/-- A packet that continues a payload unit with data of its own. -/
structure ContinuesUnit (pkt : TsPacket) : Prop where
  noError : pkt.hasError = false
  payload : pkt.hasPayload = true
  headers : pkt.payloadOffset < tsSize
  starts : pkt.payloadStart = false

/-- The packets of a PES packet, each with the buffers the pools have for it. -/
structure CarriedPes where
  pes : PesPacket
  first : TsPacket × Pools
  rest : List (TsPacket × Pools)
  noError : first.1.hasError = false
  payload : first.1.hasPayload = true
  headers : first.1.payloadOffset < tsSize
  starts : first.1.payloadStart = true
  continued : ∀ call ∈ rest, ContinuesUnit call.1
  headed : pes.header <+: first.1.payload
  carried : first.1.payload ++ rest.flatMap (fun call => call.1.payload) = pes.header ++ pes.payload

def CarriedPes.calls (carried : CarriedPes) : List (TsPacket × Pools) :=
  carried.first :: carried.rest

/-! ## Chains of buffers -/

namespace BufElement

def data (buf : BufElement) : List UInt8 :=
  (buf.mem.cells.drop buf.content).take buf.size.toNat

end BufElement

/-- The buffers of one PES packet; one that has been split off is followed by data. -/
inductive Chain : List UInt8 → Int → List BufElement → Bool → Prop where
  | last {buf : BufElement} {content : List UInt8} {pts : Int} {ended : Bool}
      (data : buf.data = content) (time : buf.pts = pts) (flag : buf.frameEnd = ended) :
      Chain content pts [buf] ended
  | split {buf : BufElement} {content : List UInt8} {pts : Int} {buffers : List BufElement}
      {ended : Bool} (time : buf.pts = pts) (flag : buf.frameEnd = false)
      (onward : Chain content 0 buffers ended) (filled : content ≠ []) :
      Chain (buf.data ++ content) pts (buf :: buffers) ended

/-- The buffers of the PES packets in their order. Each chain but the last is ended by
the PES packet that follows; `complete` says of a PES packet that its end shows
without one. -/
inductive Reassembled (complete : PesPacket → Bool) : List CarriedPes → List BufElement → Prop where
  | none : Reassembled complete [] []
  | last {carried : CarriedPes} {buffers : List BufElement}
      (chain : Chain carried.pes.payload carried.pes.pts buffers (complete carried.pes)) :
      Reassembled complete [carried] buffers
  | more {carried next : CarriedPes} {rest : List CarriedPes} {buffers onward : List BufElement}
      (chain : Chain carried.pes.payload carried.pes.pts buffers true)
      (others : Reassembled complete (next :: rest) onward) :
      Reassembled complete (carried :: next :: rest) (buffers ++ onward)

/-- The buffers returned during a run and the one that is still held are those of the
PES packets; a PES packet whose length is known is complete with its last packet. -/
def ReassemblesAll (streamType : Nat) (carried : List CarriedPes) : Prop :=
  ∃ final labels,
    Machine.drive put (ts2esInit streamType) (carried.flatMap CarriedPes.calls) =
      some (final, labels) ∧
    Reassembled PesPacket.known carried (labels.flatMap Prod.snd ++ final.buf.toList)

/-! ## The data of a buffer -/

theorem data_length {buf : BufElement} (wellFormed : buf.WellFormed) :
    buf.data.length = buf.size.toNat := by
  have nonneg := wellFormed.nonneg
  have reach := wellFormed.reach
  rw [BufElement.data, List.length_take, List.length_drop, buf.mem.sized]
  omega

theorem append_spec {buf filled : BufElement} (wellFormed : buf.WellFormed) {data : List UInt8}
    (appended : buf.append data = some filled) :
    filled.data = buf.data ++ data ∧ filled.pts = buf.pts ∧ filled.frameEnd = buf.frameEnd := by
  have nonneg := wellFormed.nonneg
  have reach := wellFormed.reach
  have length := data_length wellFormed
  unfold BufElement.append at appended
  rw [if_pos nonneg] at appended
  obtain ⟨mem, written, rfl⟩ := Option.map_eq_some_iff.mp appended
  refine ⟨?_, rfl, rfl⟩
  have front : (buf.mem.cells.take (buf.content + buf.size.toNat)).drop buf.content = buf.data := by
    rw [List.drop_take, Nat.add_sub_cancel_left]
    rfl
  have long : buf.content ≤ (buf.mem.cells.take (buf.content + buf.size.toNat)).length := by
    rw [List.length_take, buf.mem.sized]
    omega
  simp only [BufElement.data]
  rw [Block.overwrite_cells written, List.append_assoc, List.drop_append_of_le_length long, front,
    ← List.append_assoc, List.take_left']
  · rfl
  · rw [List.length_append, length]
    omega

theorem strip_data {filled : BufElement} (wellFormed : filled.WellFormed) {fields : PesFields} :
    (filled.strip fields).data = filled.data.drop fields.strip := by
  have nonneg := wellFormed.nonneg
  simp only [BufElement.data, BufElement.strip]
  rw [List.drop_take, List.drop_drop]
  congr 1
  omega

theorem alloc_well_formed (pool : PoolBuffer) : (BufElement.alloc pool).WellFormed :=
  ⟨Int.le_refl _, by simp [BufElement.alloc]⟩

theorem alloc_append {pool : PoolBuffer} {filled : BufElement} {data : List UInt8}
    (appended : (BufElement.alloc pool).append data = some filled) :
    filled.data = data ∧ filled.pts = 0 ∧ filled.frameEnd = false := by
  obtain ⟨same, pts, frameEnd⟩ := append_spec (alloc_well_formed pool) appended
  refine ⟨?_, pts, frameEnd⟩
  rw [same]
  rfl

end Xineliboutput.Ts
