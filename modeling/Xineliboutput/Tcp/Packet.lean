import Xineliboutput.StreamHeaders

/-!
# Packets of the TCP and pipe transport

`stream_tcp_header_t` in front of a payload, as `cTcpWriter::Put` builds it, and
the header fields as the sending and the receiving side read them back.
-/

namespace Xineliboutput.Tcp

open Xineliboutput.Foundation Xineliboutput.StreamHeaders

set_option autoImplicit false

structure TcpPacket where
  stream : StreamId
  pos : Nat
  payload : List UInt8
  deriving DecidableEq, Repr

namespace TcpPacket

def header (packet : TcpPacket) : List UInt8 :=
  tcpHeader packet.pos packet.payload.length packet.stream.byte

def bytes (packet : TcpPacket) : List UInt8 := packet.header ++ packet.payload

def size (packet : TcpPacket) : Nat := tcpHeaderSize + packet.payload.length

@[simp] theorem header_length (packet : TcpPacket) : packet.header.length = tcpHeaderSize :=
  tcp_header_length _ _ _

@[simp] theorem bytes_length (packet : TcpPacket) : packet.bytes.length = packet.size := by
  simp [bytes, size]

theorem size_pos (packet : TcpPacket) : 0 < packet.size := by
  simp only [size, tcpHeaderSize]
  omega

end TcpPacket

/-- `header->pos`, `header->len` and `header->stream` of a header in network order. -/
def headerPos (data : List UInt8) : Nat := bigEndianValue (data.take 8)

def headerLen (data : List UInt8) : Nat := bigEndianValue ((data.drop 8).take 4)

def headerStream (data : List UInt8) : UInt8 := data.getD 12 0

theorem header_layout (packet : TcpPacket) (rest : List UInt8) :
    packet.header ++ rest = bigEndian 8 packet.pos ++
      (bigEndian 4 packet.payload.length ++ (packet.stream.byte :: rest)) := by
  simp [TcpPacket.header, tcpHeader]

theorem header_pos_read (packet : TcpPacket) (rest : List UInt8) (fits : packet.pos < 2 ^ 64) :
    headerPos (packet.header ++ rest) = packet.pos := by
  rw [header_layout, headerPos, List.take_left' (big_endian_length _ _)]
  exact big_endian_value_encode 8 _ fits

theorem header_len_read (packet : TcpPacket) (rest : List UInt8)
    (fits : packet.payload.length < 2 ^ 32) :
    headerLen (packet.header ++ rest) = packet.payload.length := by
  rw [header_layout, headerLen, List.drop_left' (big_endian_length _ _),
    List.take_left' (big_endian_length _ _)]
  exact big_endian_value_encode 4 _ fits

theorem header_stream_read (packet : TcpPacket) (rest : List UInt8) :
    headerStream (packet.header ++ rest) = packet.stream.byte := by
  rw [header_layout]
  rfl

def streamOf (packets : List TcpPacket) : List UInt8 := packets.flatMap TcpPacket.bytes

@[simp] theorem stream_of_nil : streamOf [] = [] := rfl

@[simp] theorem stream_of_cons (packet : TcpPacket) (packets : List TcpPacket) :
    streamOf (packet :: packets) = packet.bytes ++ streamOf packets := rfl

@[simp] theorem stream_of_append (first second : List TcpPacket) :
    streamOf (first ++ second) = streamOf first ++ streamOf second := by
  simp [streamOf]

end Xineliboutput.Tcp
