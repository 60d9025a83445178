import Xineliboutput.Ts.WholeSection

/-!
# A section in packets

A section is carried by consecutive packets of one PID: a pointer field and the
bytes it skips, the section, and stuffing. While the packets arrive, the buffer
holds the bytes received so far in front of what an earlier section left there.
-/

namespace Xineliboutput.Ts

open Xineliboutput.Foundation

set_option autoImplicit false

variable {programNo : Nat}

/-! ## Packets of a section -/

/-- The packets up to the one that completes the section, that packet, and those
that hold nothing but stuffing. -/
structure Carrying (sect : PmtSection programNo) where
  before : List TsPacket
  completing : TsPacket
  after : List TsPacket
  pid : Nat
  pointer : UInt8
  skipped : List UInt8
  stuffing : List UInt8
  onePid : ∀ pkt ∈ before ++ completing :: after, pkt.pid = pid
  intact : ∀ pkt ∈ before ++ completing :: after,
    pkt.hasError = false ∧ pkt.hasPayload = true ∧ pkt.payloadOffset < tsSize
  started : ∃ first rest, before ++ completing :: after = first :: rest ∧
    first.payloadStart = true ∧ (∀ pkt ∈ rest, pkt.payloadStart = false) ∧
    1 + skipped.length < first.payload.length
  pointed : pointer.toNat = skipped.length
  stuffed : ∀ byte ∈ stuffing, byte = 0xff
  carried : (before ++ completing :: after).flatMap TsPacket.payload =
    pointer :: skipped ++ sect.bytes ++ stuffing
  incomplete : (before.flatMap TsPacket.payload).length < 1 + skipped.length + sect.bytes.length
  completes : 1 + skipped.length + sect.bytes.length ≤
    ((before ++ [completing]).flatMap TsPacket.payload).length

namespace Carrying

variable {sect : PmtSection programNo}

def packets (carrying : Carrying sect) : List TsPacket :=
  carrying.before ++ carrying.completing :: carrying.after

end Carrying

namespace PmtSection

def crc32 (sect : PmtSection programNo) : UInt32 :=
  tsComputeCrc32 (sect.bytes.take (sect.sectionLength - 1)) 0xffffffff

/-- The tables after the parser has run on the bytes of the section alone. -/
def asOneBlock (sect : PmtSection programNo) (tables : PmtTables) : PmtTables :=
  ((parseSection sect.sectionLength tables).run (Memory.ofList sect.bytes)).elim tables Prod.fst

theorem parses_as_one_block (sect : PmtSection programNo) (tables : PmtTables) :
    (parseSection sect.sectionLength tables).run (Memory.ofList sect.bytes) =
      some (sect.asOneBlock tables, true) := by
  obtain ⟨parsed, ran⟩ := sect.parses tables
  rw [asOneBlock, ran]
  rfl

end PmtSection

def chunk (pkt : TsPacket) : List UInt8 := pkt.payload.drop (pointerSize pkt)

def received (packets : List TsPacket) : Nat := (packets.flatMap chunk).length

/-! ## The buffer while a section arrives -/

/-- The buffer holds the first `count` bytes of the content over what stood there before. -/
structure Overlaid (stale content : List UInt8) (count : Nat) (pmt : PmtData) : Prop where
  placed : pmt.pmtWritePtr = some count
  reached : count ≤ content.length
  cells : pmt.rawPmt.cells = content.take count ++ stale.drop count

theorem chunk_length (pkt : TsPacket) :
    (chunk pkt).length = tsSize - (pkt.payloadOffset + pointerSize pkt) := by
  rw [chunk, List.length_drop, pkt.payload_length, Nat.sub_sub]

theorem store_overlaid {stale content tail : List UInt8} {count : Nat} {pmt : PmtData}
    (overlaid : Overlaid stale content count pmt) {pkt : TsPacket}
    (headers : pkt.payloadOffset + pointerSize pkt ≤ tsSize)
    (next : content.drop count = chunk pkt ++ tail)
    (fits : count + (chunk pkt).length ≤ rawPmtSize) :
    ∃ rawPmt, pmt.storePayload pkt =
        some { pmt with pmtWritePtr := some (count + (chunk pkt).length), rawPmt } ∧
      Overlaid stale content (count + (chunk pkt).length)
        { pmt with pmtWritePtr := some (count + (chunk pkt).length), rawPmt } := by
  have payloadFits : pmt.PayloadFits pkt := by
    refine ⟨headers, ?_⟩
    intro write placed
    rw [overlaid.placed] at placed
    cases placed
    rw [← chunk_length]
    exact fits
  obtain ⟨stored, stores⟩ :=
    Option.isSome_iff_exists.mp ((store_payload_is_some pkt overlaid.placed).mpr payloadFits)
  obtain ⟨write, rawPmt, placed, -, written, rfl⟩ := store_payload_spec stores
  rw [overlaid.placed] at placed
  cases placed
  rw [← chunk_length] at stores
  refine ⟨rawPmt, stores, rfl, ?_, ?_⟩
  · have lengths := congrArg List.length next
    have reached := overlaid.reached
    rw [List.length_drop, List.length_append] at lengths
    omega
  · have taken : (content.take count).length = count := List.length_take_of_le overlaid.reached
    have cells : rawPmt.cells = content.take count ++ chunk pkt ++
        stale.drop (count + (chunk pkt).length) := by
      have after := Block.overwrite_cells written
      rw [overlaid.cells, List.take_left' taken, ← List.drop_drop, List.drop_left' taken,
        List.drop_drop] at after
      exact after
    rw [cells, List.take_add, next, List.take_left]

/-! ## When the checksum passes -/

namespace PmtSection

/-- Enough bytes for the completeness test have arrived, and those that are missing
all the same stand in the buffer from an earlier section. -/
def Arrived (sect : PmtSection programNo) (stale : List UInt8) (count : Nat) : Prop :=
  sect.sectionLength ≤ count ∧
    (stale.drop count).take (sect.sectionLength + 3 - count) = sect.bytes.drop count

instance (sect : PmtSection programNo) (stale : List UInt8) (count : Nat) :
    Decidable (sect.Arrived stale count) := inferInstanceAs (Decidable (_ ∧ _))

theorem arrived_whole (sect : PmtSection programNo) (stale : List UInt8) {count : Nat}
    (complete : sect.sectionLength + 3 ≤ count) : sect.Arrived stale count := by
  have sized := sect.sized
  refine ⟨by omega, ?_⟩
  rw [Nat.sub_eq_zero_of_le complete, List.take_zero, List.drop_of_length_le (by omega)]

end PmtSection

section Checksum

variable {sect : PmtSection programNo} {stale stuffing : List UInt8} {count : Nat} {pmt : PmtData}

theorem overlaid_take (overlaid : Overlaid stale (sect.bytes ++ stuffing) count pmt) {n : Nat}
    (within : n ≤ sect.sectionLength + 3) :
    pmt.rawPmt.cells.take n = (sect.bytes.take n).take count ++ (stale.drop count).take (n - count) := by
  have sized := sect.sized
  rw [overlaid.cells, List.take_append, List.length_take_of_le overlaid.reached, List.take_take,
    List.take_take, Nat.min_comm, ← List.take_take, ← List.take_take,
    List.take_append_of_le_length (by omega)]

theorem overlaid_arrived (overlaid : Overlaid stale (sect.bytes ++ stuffing) count pmt)
    (enough : sect.sectionLength ≤ count) :
    pmt.rawPmt.cells.take (sect.sectionLength + 3) = sect.bytes ↔ sect.Arrived stale count := by
  have sized := sect.sized
  have whole : sect.bytes.take (sect.sectionLength + 3) = sect.bytes :=
    List.take_of_length_le (by omega)
  rw [overlaid_take overlaid (Nat.le_refl _), whole]
  constructor
  · intro same
    refine ⟨enough, ?_⟩
    exact List.append_cancel_left (same.trans (List.take_append_drop count sect.bytes).symm)
  · intro arrived
    rw [arrived.2, List.take_append_drop]

theorem overlaid_checksum (overlaid : Overlaid stale (sect.bytes ++ stuffing) count pmt)
    (enough : sect.sectionLength ≤ count) :
    tsComputeCrc32 (pmt.rawPmt.cells.take (sect.sectionLength + 3 - 4)) 0xffffffff = sect.crc32 := by
  have long := sect.long
  rw [overlaid_take overlaid (by omega), Nat.sub_eq_zero_of_le (by omega : _ ≤ count),
    List.take_zero, List.append_nil, List.take_of_length_le]
  · rfl
  · rw [List.length_take]
    omega

theorem section_crc_iff (overlaid : Overlaid stale (sect.bytes ++ stuffing) count pmt)
    (enough : sect.sectionLength ≤ count) :
    pmt.sectionCrc sect.sectionLength = sect.crc32 ↔ sect.Arrived stale count := by
  have long := sect.long
  have short := sect.short
  have sized := sect.sized
  have split : sect.sectionLength + 3 = sect.sectionLength - 1 + 4 := by omega
  have front : pmt.rawPmt.cells.take (sect.sectionLength - 1) =
      sect.bytes.take (sect.sectionLength - 1) := by
    rw [overlaid_take overlaid (by omega), Nat.sub_eq_zero_of_le (by omega : _ ≤ count),
      List.take_zero, List.append_nil, List.take_of_length_le]
    rw [List.length_take]
    omega
  rw [← overlaid_arrived overlaid enough, split, List.take_add, front]
  have tail : sect.bytes.drop (sect.sectionLength - 1) =
      (pmt.rawPmt.cells.drop (sect.sectionLength - 1)).take 4 ↔
        sect.bytes.take (sect.sectionLength - 1) ++
          (pmt.rawPmt.cells.drop (sect.sectionLength - 1)).take 4 = sect.bytes := by
    constructor
    · intro same
      rw [← same, List.take_append_drop]
    · intro same
      exact (List.append_cancel_left
        (same.trans (List.take_append_drop (sect.sectionLength - 1) sect.bytes).symm)).symm
  rw [← tail]
  have four : ((pmt.rawPmt.cells.drop (sect.sectionLength - 1)).take 4).length = 4 := by
    rw [List.length_take, List.length_drop, pmt.rawPmt.sized]
    unfold rawPmtSize
    omega
  have bound := big_endian_value_lt ((pmt.rawPmt.cells.drop (sect.sectionLength - 1)).take 4)
  rw [four, show (256 : Nat) ^ 4 = 2 ^ 32 by decide] at bound
  have place : sect.sectionLength + 3 - 4 = sect.sectionLength - 1 := by omega
  constructor
  · intro same
    apply big_endian_value_inj
    · rw [four, List.length_drop]
      omega
    · have words := congrArg UInt32.toNat same
      rw [PmtData.sectionCrc, place, UInt32.toNat_ofNat', Nat.mod_eq_of_lt bound] at words
      rw [sect.checksum]
      exact words.symm
  · intro same
    rw [PmtData.sectionCrc, place, ← same, sect.checksum]
    exact UInt32.ofNat_toNat

end Checksum

end Xineliboutput.Ts
