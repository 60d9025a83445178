import Xineliboutput.Foundation.CyclicSlots
import Xineliboutput.StreamHeaders

/-!
# The ring buffer of built UDP/RTP frames

`cUdpBackLog` of `tools/udp_buffer.h`: 256 slots, the next outgoing sequence
number and the next RTP sequence number. `MakeFrame` fills the slot of the next
sequence number, reusing its memory when that is large enough; nothing is ever
removed, so a slot stays readable for retransmission until the numbering comes
round to it again.
-/

namespace Xineliboutput.Udp

open Xineliboutput.Foundation Xineliboutput.StreamHeaders

set_option autoImplicit false

def udpBufferSize : Nat := 0x100

instance udp_buffer_nonempty : NeZero 256 := ⟨by decide⟩

/-- `stream_rtp_header_impl_t` with its payload, in host byte order. The time
stamp and the source identifier are filled in when the frame is sent. -/
structure Frame where
  rtpPayloadType : UInt8
  rtpSeq : Nat
  pos : Nat
  seq : Nat
  stream : UInt8
  payload : List UInt8
  deriving DecidableEq, Repr

/-- `RTP_UDP_PAYLOAD(frame)`: what an UDP client is sent. -/
def Frame.udpPacket (frame : Frame) : List UInt8 :=
  udpHeader frame.pos frame.seq frame.stream ++ frame.payload

def Frame.rtpPacket (frame : Frame) (timestamp ssrc : Nat) : List UInt8 :=
  rtpPrefix frame.rtpPayloadType frame.rtpSeq timestamp ssrc ++ frame.udpPacket

def Frame.endPos (frame : Frame) : Nat := (frame.pos + frame.payload.length) % 2 ^ 64

/-- One entry of `m_UdpBuffer`, `m_UdpBufLen` and `m_PayloadSize`; the payload
size is the length of the frame's payload. -/
structure BackLogSlot where
  frame : Frame
  udpBufLen : Nat
  fits : frame.payload.length + rtpHeaderSize ≤ udpBufLen

/-- Every stored frame carries the number of the slot it is stored in. -/
structure BackLog where
  slots : CyclicSlots 256 BackLogSlot
  seqNo : Nat
  rtpSeqNo : Nat
  seqNoBound : seqNo < 256
  numbered : ∀ number slot, slots.get number = some slot → slot.frame.seq = number % 256

namespace BackLog

/-- The constructor; `m_RtpSeqNo` starts from the clock. -/
def new (nanoseconds : Nat) : BackLog where
  slots := .vacant
  seqNo := 0
  rtpSeqNo := nanoseconds
  seqNoBound := by decide
  numbered := by simp

/-- `Clear`: take back the numbers of the last frames. Nothing is freed. -/
def clear (backLog : BackLog) (howManyFrames : Nat) : BackLog where
  slots := backLog.slots
  seqNo := ((backLog.seqNo + udpBufferSize - howManyFrames : Int) % 256).toNat
  rtpSeqNo := backLog.rtpSeqNo
  seqNoBound := by omega
  numbered := backLog.numbered

def get (backLog : BackLog) (udpSeqNo : Nat) : Option Frame :=
  (backLog.slots.get udpSeqNo).map BackLogSlot.frame

def payloadSize (backLog : BackLog) (udpSeqNo : Nat) : Nat :=
  match backLog.slots.get udpSeqNo with
  | some slot => slot.frame.payload.length
  | none => 0

/-- The frame that `MakeFrame` fills in. -/
def frameFor (backLog : BackLog) (stream : StreamId) (streamPos : Nat) (data : List UInt8) :
    Frame where
  rtpPayloadType := if dataIsTs data then rtpPayloadTypeTs else rtpPayloadTypePes
  rtpSeq := backLog.rtpSeqNo % 2 ^ 16
  pos := streamPos % 2 ^ 64
  seq := backLog.seqNo
  stream := stream.byte
  payload := data

/-- The allocated size of a slot after `MakeFrame`: memory is replaced only when
it is too small. -/
def lengthFor (old : Option BackLogSlot) (udpPacketLen : Nat) : Nat :=
  match old with
  | some slot => if slot.udpBufLen < udpPacketLen then udpPacketLen else slot.udpBufLen
  | none => udpPacketLen

theorem le_length_for (old : Option BackLogSlot) (udpPacketLen : Nat) :
    udpPacketLen ≤ lengthFor old udpPacketLen := by
  cases old with
  | none => exact Nat.le_refl _
  | some slot =>
      simp only [lengthFor]
      split <;> omega

def makeFrame (backLog : BackLog) (stream : StreamId) (streamPos : Nat) (data : List UInt8) :
    BackLog where
  slots := backLog.slots.put backLog.seqNo (some {
    frame := backLog.frameFor stream streamPos data
    udpBufLen := lengthFor (backLog.slots.get backLog.seqNo) (data.length + rtpHeaderSize)
    fits := le_length_for _ _ })
  seqNo := (backLog.seqNo + 1) % 256
  rtpSeqNo := (backLog.rtpSeqNo + 1) % 2 ^ 16
  seqNoBound := Nat.mod_lt _ (by decide)
  numbered := by
    intro number slot found
    rw [CyclicSlots.get_put] at found
    split at found
    · rename_i same
      obtain rfl := Option.some.inj found
      simpa [frameFor, Nat.mod_eq_of_lt backLog.seqNoBound] using same.symm
    · exact backLog.numbered number slot found

@[simp] theorem get_new (nanoseconds number : Nat) : (new nanoseconds).get number = none := rfl

@[simp] theorem new_seq_no (nanoseconds : Nat) : (new nanoseconds).seqNo = 0 := rfl

@[simp] theorem get_clear (backLog : BackLog) (count number : Nat) :
    (backLog.clear count).get number = backLog.get number := rfl

theorem clear_seq_no (backLog : BackLog) (next pending : Nat)
    (ahead : backLog.seqNo = (next + pending) % 256) :
    (backLog.clear pending).seqNo = next % 256 := by
  simp only [clear, udpBufferSize]
  omega

theorem get_seq (backLog : BackLog) {number : Nat} {frame : Frame}
    (found : backLog.get number = some frame) : frame.seq = number % 256 := by
  simp only [get, Option.map_eq_some_iff] at found
  obtain ⟨slot, stored, rfl⟩ := found
  exact backLog.numbered number slot stored

theorem get_congr (backLog : BackLog) {left right : Nat} (same : left % 256 = right % 256) :
    backLog.get left = backLog.get right := by
  simp only [get, backLog.slots.get_congr same]

theorem payload_size_eq (backLog : BackLog) {number : Nat} {frame : Frame}
    (found : backLog.get number = some frame) :
    backLog.payloadSize number = frame.payload.length := by
  simp only [get, Option.map_eq_some_iff] at found
  obtain ⟨slot, stored, rfl⟩ := found
  simp [payloadSize, stored]

@[simp] theorem make_frame_seq_no (backLog : BackLog) (stream : StreamId) (streamPos : Nat)
    (data : List UInt8) :
    (backLog.makeFrame stream streamPos data).seqNo = (backLog.seqNo + 1) % 256 := rfl

theorem get_make_frame (backLog : BackLog) (stream : StreamId) (streamPos : Nat)
    (data : List UInt8) (number : Nat) :
    (backLog.makeFrame stream streamPos data).get number =
      if number % 256 = backLog.seqNo then some (backLog.frameFor stream streamPos data)
      else backLog.get number := by
  simp only [get, makeFrame, CyclicSlots.get_put, Nat.mod_eq_of_lt backLog.seqNoBound]
  split <;> rfl

end BackLog
end Xineliboutput.Udp
