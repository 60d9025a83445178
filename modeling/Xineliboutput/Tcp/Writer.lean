import Xineliboutput.Foundation.Machine
import Xineliboutput.Tcp.Packet

/-!
# The buffered TCP writer

`cTcpWriter` of `tools/backgroundwriter.c`: `Put` stores header and payload in the
ring buffer, a thread of its own writes it to the socket, and `Clear` lets that
thread drop what was put before. The ring buffer is VDR's `cRingBufferLinear`: its
`Get` shows some contiguous part of the buffer from the front on, which at a
packet boundary holds at least one whole header.
-/

namespace Xineliboutput.Tcp

open Xineliboutput.Foundation Xineliboutput.StreamHeaders

set_option autoImplicit false

def maxOverflowsBeforeDisconnect : Nat := 1000

/-- The conversion of a 64-bit or 32-bit unsigned value to `int`. -/
def toInt (value : Nat) : Int := Int.bmod value (2 ^ 32)

theorem to_int_small {value : Nat} (small : value < 2 ^ 31) : toInt value = value := by
  exact Int.bmod_eq_of_le (by omega) (by omega)

/-- Where the loop of `Action` stands, with the data `Get` has shown and the copy
of `m_DiscardEnd` taken after it. -/
inductive WriterThread where
  | top
  | gotten (data : List UInt8)
  | started (data : List UInt8) (startPos : Nat)
  | ended
  deriving DecidableEq

structure TcpWriter where
  /-- What `Free()` answers while the ring buffer is empty. -/
  capacity : Nat
  ringBuffer : List UInt8
  putPos : Nat
  discardEnd : Nat
  bufferOverflows : Nat
  running : Bool
  getPos : Nat
  nextHeaderPos : Nat
  thread : WriterThread
  written : List UInt8

/-- The answer of `write`: some bytes accepted, EINTR or EWOULDBLOCK, or the end
of the connection. -/
inductive WriteAnswer where
  | accepted (count : Nat)
  | interrupted
  | failed

inductive Operation where
  | put (packet : TcpPacket)
  | clear
  | cancel
  | get (count : Nat)
  | start
  | act (answer : WriteAnswer)
  | leave

/-- What an operation did, with the stream position it did it at. -/
inductive Effect where
  | queued (packet : TcpPacket)
  | refused
  | disconnected
  | cleared
  | discarded (start count : Nat)
  | wrote (start : Nat) (bytes : List UInt8)
  | unchanged

namespace TcpWriter

def new (capacity : Nat) : TcpWriter where
  capacity := capacity
  ringBuffer := []
  putPos := 0
  discardEnd := 0
  bufferOverflows := 0
  running := true
  getPos := 0
  nextHeaderPos := 0
  thread := .top
  written := []

def free (writer : TcpWriter) : Nat := writer.capacity - writer.ringBuffer.length

/-- `m_RingBuffer.Clear(); Cancel(-1)` -/
def disconnect (writer : TcpWriter) : TcpWriter :=
  { writer with ringBuffer := [], running := false }

/-- `m_RingBuffer.Put`: as much as fits. -/
def ringPut (writer : TcpWriter) (data : List UInt8) : TcpWriter × Nat :=
  let count := min writer.free data.length
  ({ writer with ringBuffer := writer.ringBuffer ++ data.take count }, count)

def put (writer : TcpWriter) (packet : TcpPacket) : TcpWriter × Effect :=
  if !writer.running then (writer, .unchanged)
  else if writer.free < packet.size then
    let overflown := { writer with bufferOverflows := writer.bufferOverflows + 1 }
    if maxOverflowsBeforeDisconnect < writer.bufferOverflows then
      (overflown.disconnect, .disconnected)
    else (overflown, .refused)
  else
    let (withHeader, headerCount) := writer.ringPut packet.header
    let (withData, dataCount) := withHeader.ringPut packet.payload
    if headerCount + dataCount = packet.size then
      ({ withData with
          bufferOverflows := 0
          putPos := writer.putPos + (headerCount + dataCount) }, .queued packet)
    else (withData.disconnect, .disconnected)

/-- `pkt_len` of the packet at the front of `data`. -/
def packetLength (data : List UInt8) : Int := toInt ((headerLen data + tcpHeaderSize) % 2 ^ 32)

/-- The packet at the front is dropped: we are at a frame boundary behind the
discard position, it is no control message, and all of it is there. -/
def drops (writer : TcpWriter) (data : List UInt8) (startPos : Nat) : Bool :=
  writer.nextHeaderPos = writer.getPos ∧ writer.getPos < startPos ∧
    headerStream data = StreamId.sidVdr.byte ∧
    packetLength data ≤ min (data.length : Int) (toInt (startPos - writer.getPos))

/-- `Count` as it is given to `write`, and `NextHeaderPos` behind it. At a frame
boundary a discard position ahead of a data packet has cut `Count` already. -/
def writeRange (writer : TcpWriter) (data : List UInt8) (startPos : Nat) : Int × Nat :=
  if writer.nextHeaderPos = writer.getPos then
    let count : Int :=
      if writer.getPos < startPos ∧ headerStream data = StreamId.sidVdr.byte then
        min (data.length : Int) (toInt (startPos - writer.getPos))
      else data.length
    (min count (packetLength data), (writer.getPos + packetLength data).toNat)
  else
    (min (data.length : Int) (toInt (writer.nextHeaderPos - writer.getPos)), writer.nextHeaderPos)

/-- One step of any thread; `none` says that it cannot happen now. -/
def perform (writer : TcpWriter) : Operation → Option (TcpWriter × Effect)
  | .put packet => some (writer.put packet)
  | .clear => some ({ writer with discardEnd := writer.putPos }, .cleared)
  | .cancel => some ({ writer with running := false }, .unchanged)
  | .get count =>
      match writer.thread with
      | .top =>
          if writer.running ∧ 0 < count ∧ count ≤ writer.ringBuffer.length ∧
              (writer.nextHeaderPos = writer.getPos → tcpHeaderSize ≤ count) then
            some ({ writer with thread := .gotten (writer.ringBuffer.take count) }, .unchanged)
          else none
      | .gotten _ | .started _ _ | .ended => none
  | .start =>
      match writer.thread with
      | .gotten data => some ({ writer with thread := .started data writer.discardEnd }, .unchanged)
      | .top | .started _ _ | .ended => none
  | .act answer =>
      match writer.thread with
      | .started data startPos =>
          if writer.drops data startPos then
            let count := (packetLength data).toNat
            some ({ writer with
              ringBuffer := writer.ringBuffer.drop count
              getPos := writer.getPos + count
              nextHeaderPos := writer.getPos + count
              thread := .top }, .discarded writer.getPos count)
          else
            let (count, nextHeaderPos) := writer.writeRange data startPos
            match answer with
            | .accepted n =>
                if 0 < n ∧ (n : Int) ≤ count then
                  some ({ writer with
                    ringBuffer := writer.ringBuffer.drop n
                    getPos := writer.getPos + n
                    nextHeaderPos := nextHeaderPos
                    written := writer.written ++ data.take n
                    thread := .top }, .wrote writer.getPos (data.take n))
                else none
            | .interrupted =>
                some ({ writer with nextHeaderPos := nextHeaderPos, thread := .top }, .unchanged)
            | .failed =>
                some ({ writer with
                  nextHeaderPos := nextHeaderPos
                  ringBuffer := []
                  running := false
                  thread := .ended }, .unchanged)
      | .top | .gotten _ | .ended => none
  | .leave =>
      match writer.thread with
      | .top =>
          if writer.running then none
          else some ({ writer with ringBuffer := [], thread := .ended }, .unchanged)
      | .gotten _ | .started _ _ | .ended => none

/-- Steps of the writing thread and of its callers in any order. `Size` is an
`int`. -/
def machine : Machine TcpWriter (Operation × Effect) where
  initial writer := ∃ capacity, capacity < 2 ^ 31 ∧ writer = new capacity
  step writer label next := writer.perform label.1 = some (next, label.2)

end TcpWriter
end Xineliboutput.Tcp
