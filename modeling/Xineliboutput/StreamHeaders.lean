import Xineliboutput.Foundation.ByteOrder

/-!
# Substreams and network packet headers

The packed headers of `xine_input_vdr_net.h` and the data tests of `ts.h` and
`pes.h`. All header fields travel in network byte order. A data pointer is the
list of bytes from it on; reading past what was received finds whatever the
buffer holds there, so those bytes belong to the list as well.
-/

namespace Xineliboutput.StreamHeaders

open Xineliboutput.Foundation

set_option autoImplicit false

/-- `eStreamId`, with the numbers that stand for it in a header. -/
inductive StreamId where
  | sidVdr
  | sidPip (index : Fin 17)
  | sidPadding
  | sidOsd
  | sidControl
  deriving DecidableEq, Repr

def StreamId.byte : StreamId → UInt8
  | .sidVdr => 0
  | .sidPip index => UInt8.ofNat (1 + index.val)
  | .sidPadding => 0xfd
  | .sidOsd => 0xfe
  | .sidControl => 0xff

theorem stream_byte_zero_iff (stream : StreamId) : stream.byte = 0 ↔ stream = .sidVdr := by
  cases stream with
  | sidVdr => simp [StreamId.byte]
  | sidPip index => revert index; decide
  | sidPadding => simp [StreamId.byte]
  | sidOsd => simp [StreamId.byte]
  | sidControl => simp [StreamId.byte]

theorem stream_byte_control_iff (stream : StreamId) :
    stream.byte = StreamId.sidControl.byte ↔ stream = .sidControl := by
  cases stream with
  | sidVdr => simp [StreamId.byte]
  | sidPip index => revert index; decide
  | sidPadding => simp [StreamId.byte]
  | sidOsd => simp [StreamId.byte]
  | sidControl => simp

/-- `(uint64_t)(-1)`, the stream position of embedded control messages. -/
def controlPos : Nat := 2 ^ 64 - 1

def tcpHeaderSize : Nat := 13

def udpHeaderSize : Nat := 11

def rtpHeaderSize : Nat := 28

def udpSeqMask : Nat := 0xff

/-! ## Data tests -/

def dataIsTs (data : List UInt8) : Bool := data.getD 0 0 == 0x47

def dataIsPes (data : List UInt8) : Bool :=
  data.getD 0 0 == 0 && data.getD 1 0 == 0 && data.getD 2 0 == 1

def isPaddingPacket (data : List UInt8) : Bool := data.getD 3 0 == 0xbe

/-! ## TCP and pipe -/

/-- `stream_tcp_header_t` as it is sent. -/
def tcpHeader (pos len : Nat) (stream : UInt8) : List UInt8 :=
  bigEndian 8 pos ++ bigEndian 4 len ++ [stream]

@[simp] theorem tcp_header_length (pos len : Nat) (stream : UInt8) :
    (tcpHeader pos len stream).length = tcpHeaderSize := by
  simp [tcpHeader, tcpHeaderSize]

/-! ## UDP and RTP -/

/-- `stream_udp_header_t` as it is sent. -/
def udpHeader (pos seq : Nat) (stream : UInt8) : List UInt8 :=
  bigEndian 8 pos ++ bigEndian 2 seq ++ [stream]

@[simp] theorem udp_header_length (pos seq : Nat) (stream : UInt8) :
    (udpHeader pos seq stream).length = udpHeaderSize := by
  simp [udpHeader, udpHeaderSize]

def rtpVersionByte : UInt8 := 0x80

def rtpHdrextBit : UInt8 := 0x10

def rtpPayloadTypePes : UInt8 := 96

def rtpPayloadTypeTs : UInt8 := 33

def rtpHeaderExtXSize : Nat := 3

def rtpHeaderExtXType : Nat := 0x54d3

/-- The part of `stream_rtp_header_impl_t` in front of the embedded UDP header:
the RTP header, the header of the extension and one byte of padding. -/
def rtpPrefix (payloadType : UInt8) (rtpSeq timestamp ssrc : Nat) : List UInt8 :=
  [rtpVersionByte ||| rtpHdrextBit, payloadType] ++ bigEndian 2 rtpSeq ++
    bigEndian 4 timestamp ++ bigEndian 4 ssrc ++
    bigEndian 2 rtpHeaderExtXType ++ bigEndian 2 rtpHeaderExtXSize ++ [0]

@[simp] theorem rtp_prefix_length (payloadType : UInt8) (rtpSeq timestamp ssrc : Nat) :
    (rtpPrefix payloadType rtpSeq timestamp ssrc).length = rtpHeaderSize - udpHeaderSize := by
  simp [rtpPrefix, rtpHeaderSize, udpHeaderSize]

end Xineliboutput.StreamHeaders
