import Mathlib.Algebra.Ring.Nat
import Xineliboutput.Foundation.Block
import Xineliboutput.Ts.PmtSection

/-!
# Transport stream packets

The accessors of `ts.h` for a packet of 188 arbitrary bytes. The payload offset
is taken from the adaptation field length as it stands and may lie behind the
packet.
-/

namespace Xineliboutput.Ts

open Xineliboutput.Foundation

set_option autoImplicit false

abbrev tsSize : Nat := 188

instance tsSize_pos : NeZero tsSize := ⟨Nat.succ_ne_zero 187⟩

abbrev TsPacket := Block UInt8 tsSize

namespace TsPacket

/-- The packet with these first bytes, filled up with one byte. -/
def startingWith (bytes : List UInt8) (filler : UInt8) : TsPacket where
  cells := (bytes ++ List.replicate tsSize filler).take tsSize
  sized := by simp

/-- `ts_PAYLOAD_START`. -/
def payloadStart (pkt : TsPacket) : Bool := pkt.cell 1 &&& 0x40 != 0

/-- `ts_HAS_ERROR`. -/
def hasError (pkt : TsPacket) : Bool := pkt.cell 1 &&& 0x80 != 0

/-- `ts_HAS_PAYLOAD`. -/
def hasPayload (pkt : TsPacket) : Bool := pkt.cell 3 &&& 0x10 != 0

/-- `ts_ADAPT_FIELD_EXISTS`. -/
def adaptFieldExists (pkt : TsPacket) : Bool := pkt.cell 3 &&& 0x20 != 0

/-- `ts_PID`. -/
def pid (pkt : TsPacket) : Nat := (pkt.cell 1 &&& 0x1f).toNat * 256 + (pkt.cell 2).toNat

/-- `ts_PAYLOAD_OFFSET`. -/
def payloadOffset (pkt : TsPacket) : Nat :=
  if pkt.adaptFieldExists then (pkt.cell 4).toNat + 5 else 4

/-- `ts_PAYLOAD_SIZE`: negative when the adaptation field claims to run past the packet. -/
def payloadSize (pkt : TsPacket) : Int := tsSize - pkt.payloadOffset

/-- The bytes behind the headers, none where the headers fill the packet. -/
def payload (pkt : TsPacket) : List UInt8 := pkt.cells.drop pkt.payloadOffset

theorem payload_length (pkt : TsPacket) : pkt.payload.length = tsSize - pkt.payloadOffset := by
  rw [payload, List.length_drop, pkt.sized]

theorem payload_offset_lower (pkt : TsPacket) : 4 ≤ pkt.payloadOffset := by
  unfold payloadOffset
  split <;> omega

end TsPacket
end Xineliboutput.Ts

/-!
# PES headers

The header macros of `pes.h` and the timestamps of `pes.c`, as scans of the bytes
from the start of the PES packet.
-/

namespace Xineliboutput.Ts

open Xineliboutput.Foundation

set_option autoImplicit false

def noPts : Int := -1

abbrev privateStream1 : UInt8 := 0xbd

/-- `IS_VIDEO_PACKET`. -/
def isVideoPacket (streamId : UInt8) : Bool := streamId &&& 0xf0 = 0xe0

/-- `IS_MPEG_AUDIO_PACKET`. -/
def isMpegAudioPacket (streamId : UInt8) : Bool := streamId &&& 0xe0 = 0xc0

/-- `IS_AUDIO_PACKET`. -/
def isAudioPacket (streamId : UInt8) : Bool :=
  isMpegAudioPacket streamId || streamId = privateStream1

/-- `DATA_IS_PES`; a byte is looked at only after those before it have matched. -/
def dataIsPes : Scan UInt8 Bool := do
  let first ← Scan.fetch 0
  if first ≠ 0 then pure false
  else do
    let second ← Scan.fetch 1
    if second ≠ 0 then pure false
    else do
      let third ← Scan.fetch 2
      pure (third = 1)

/-- `PES_HEADER_LEN`. -/
def pesHeaderLen : Scan UInt8 Nat := do
  let headerDataLength ← Scan.fetch 8
  pure (9 + headerDataLength.toNat)

def parseTimestamp (buf : Nat) : Scan UInt8 Int := do
  let first ← Scan.fetch buf
  let second ← Scan.fetch (buf + 1)
  let third ← Scan.fetch (buf + 2)
  let fourth ← Scan.fetch (buf + 3)
  let fifth ← Scan.fetch (buf + 4)
  pure ((first &&& 0x0e).toNat * 536870912 + second.toNat * 4194304 +
    (third &&& 0xfe).toNat * 16384 + fourth.toNat * 128 + (fifth &&& 0xfe).toNat / 2 : Nat)

/-- A timestamp field of the header, where the packet is unscrambled MPEG-2, has the
flag and is longer than `before` bytes. -/
def timestampAt (buf before : Nat) (flag : UInt8) (len : Nat) : Scan UInt8 Int := do
  let streamId ← Scan.fetch 3
  if isVideoPacket streamId ∨ isAudioPacket streamId then do
    let marker ← Scan.fetch 6
    if marker &&& 0xc0 ≠ 0x80 then pure noPts
    else if marker &&& 0x30 ≠ 0 then pure noPts
    else if before < len then do
      let flags ← Scan.fetch 7
      if flags &&& flag ≠ 0 then parseTimestamp buf else pure noPts
    else pure noPts
  else pure noPts

def pesGetPts (len : Nat) : Scan UInt8 Int := timestampAt 9 13 0x80 len

def pesGetDts (len : Nat) : Scan UInt8 Int := timestampAt 14 18 0x40 len

end Xineliboutput.Ts
