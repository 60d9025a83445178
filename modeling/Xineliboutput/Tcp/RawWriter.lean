import Xineliboutput.Tcp.Writer
import Xineliboutput.Ts.TsPacket

/-!
# The buffered raw writer

`cRawWriter` of `tools/backgroundwriter.c` serves a plain stream over HTTP. No header
goes with a packet, so the thread finds the end of a packet from its first bytes, with
`pes_packet_len` of `pes.h`. The ring buffer shows some contiguous part of what it holds
from the front on, of six bytes at least.
-/

namespace Xineliboutput.Tcp

open Xineliboutput.Foundation Xineliboutput.StreamHeaders Xineliboutput.Ts

set_option autoImplicit false

/-! ## Packet lengths -/

def tsSize : Nat := 188

abbrev paddingStream : UInt8 := 0xbe

abbrev packStart : UInt8 := 0xba

/-- `data[4] << 8 | data[5]` -/
def pesSize (data : List UInt8) : Nat := (data.getD 4 0).toNat * 256 + (data.getD 5 0).toNat

/-- The header of an MPEG-2 pack: 14 bytes, and as many stuffing bytes as the last says. -/
def IsPackHeader (data : List UInt8) : Prop :=
  data.getD 3 0 = packStart ∧ data.getD 4 0 &&& 0x40 ≠ 0

instance (data : List UInt8) : Decidable (IsPackHeader data) :=
  inferInstanceAs (Decidable (_ ∧ _))

/-- `pes_packet_len`. -/
def pesPacketLen (data : List UInt8) : Int :=
  let streamId := data.getD 3 0
  if isVideoPacket streamId ∨ isAudioPacket streamId then
    if data.length < 6 then 0 else 6 + pesSize data
  else if streamId = paddingStream then
    if data.length < 6 then 0 else 6 + pesSize data
  else if streamId = packStart then
    if data.length < 5 then 0
    else if data.getD 4 0 &&& 0x40 = 0 then 12
    else if data.length < 14 then 0
    else 14 + (data.getD 13 0 &&& 0x07).toNat
  else if streamId ≤ 0xb9 then -3
  else -(6 + pesSize data)

/-- `packlen` of the data at the front. -/
def packLen (data : List UInt8) : Int := if dataIsTs data then tsSize else pesPacketLen data

/-- A TS packet, a PES packet or a pack header, from its first byte to its last. -/
def WholeUnit (unit : List UInt8) : Prop := packLen unit = unit.length ∧ unit ≠ []

instance (unit : List UInt8) : Decidable (WholeUnit unit) := inferInstanceAs (Decidable (_ ∧ _))

/-! ## The writer -/

/-- Where the loop of `Action` stands, with the data `Get` has shown and the copy of
`m_DiscardEnd` taken after it. -/
inductive RawThread where
  | top
  | gotten (data : List UInt8)
  | started (data : List UInt8) (startPos : Nat)
  | garbage
  | ended
  deriving DecidableEq

structure RawWriter where
  /-- What `Free()` answers while the ring buffer is empty. -/
  capacity : Nat
  ringBuffer : List UInt8
  putPos : Nat
  discardEnd : Nat
  bufferOverflows : Nat
  running : Bool
  getPos : Nat
  nextHeaderPos : Nat
  thread : RawThread
  /-- The bytes given to `write`, each with its position in the stream. -/
  written : List (UInt8 × Nat)

namespace RawWriter

inductive Operation where
  | put (units : List (List UInt8))
  | clear
  | cancel
  | get (count : Nat)
  | start
  | act (answer : WriteAnswer)
  | discardAll
  | leave

/-- What an operation did to the packets of the stream. -/
inductive Effect where
  | queued (start : Nat) (units : List (List UInt8))
  | cleared
  | dropped
  | unchanged

def new (capacity : Nat) : RawWriter where
  capacity := capacity
  ringBuffer := []
  putPos := 0
  discardEnd := 0
  bufferOverflows := 0
  running := true
  getPos := 0
  nextHeaderPos := 0
  thread := .top
  written := []

def free (writer : RawWriter) : Nat := writer.capacity - writer.ringBuffer.length

/-- `m_RingBuffer.Clear(); Cancel(-1)` -/
def disconnect (writer : RawWriter) : RawWriter :=
  { writer with ringBuffer := [], running := false }

/-- `Put` of stream `sidVdr`. With enough free room the ring buffer stores all of it. The
thread may see the data before `m_PutPos` counts it, but has to take the lock before it
does anything with it. -/
def put (writer : RawWriter) (units : List (List UInt8)) : RawWriter × Effect :=
  if !writer.running then (writer, .unchanged)
  else if writer.free < units.flatten.length then
    let overflown := { writer with bufferOverflows := writer.bufferOverflows + 1 }
    if maxOverflowsBeforeDisconnect < writer.bufferOverflows then
      (overflown.disconnect, .unchanged)
    else (overflown, .unchanged)
  else
    ({ writer with
        ringBuffer := writer.ringBuffer ++ units.flatten
        bufferOverflows := 0
        putPos := writer.putPos + units.flatten.length },
      .queued writer.putPos units)

/-- `Count` bytes are discarded at a frame boundary. -/
def discard (writer : RawWriter) (data : List UInt8) (startPos : Nat) : RawWriter :=
  let count := (min (data.length : Int) (toInt (startPos - writer.getPos))).toNat
  { writer with
    ringBuffer := writer.ringBuffer.drop count
    getPos := writer.getPos + count
    nextHeaderPos := writer.getPos + count
    thread := .top }

/-- `write` of at most `count` bytes of the data. -/
def send (writer : RawWriter) (data : List UInt8) (count : Int) :
    WriteAnswer → Option RawWriter
  | .accepted n =>
      if 0 < n ∧ (n : Int) ≤ count then
        some { writer with
          ringBuffer := writer.ringBuffer.drop n
          getPos := writer.getPos + n
          written := writer.written ++ (data.take n).zipIdx writer.getPos
          thread := .top }
      else none
  | .interrupted => some { writer with thread := .top }
  | .failed => some { writer with ringBuffer := [], running := false, thread := .ended }

/-- The loop of `Action` behind the lock. -/
def act (writer : RawWriter) (data : List UInt8) (startPos : Nat) (answer : WriteAnswer) :
    Option RawWriter :=
  if writer.nextHeaderPos = writer.getPos then
    if writer.getPos < startPos then some (writer.discard data startPos)
    else if packLen data < 1 then some { writer with thread := .garbage }
    else
      { writer with nextHeaderPos := (writer.getPos + packLen data).toNat }.send data
        (min (data.length : Int) (packLen data)) answer
  else
    writer.send data (min (data.length : Int) (toInt (writer.nextHeaderPos - writer.getPos))) answer

/-- One step of any thread; `none` says that it cannot happen now. -/
def perform (writer : RawWriter) : Operation → Option (RawWriter × Effect)
  | .put units => some (writer.put units)
  | .clear => some ({ writer with discardEnd := writer.putPos }, .cleared)
  | .cancel => some ({ writer with running := false }, .unchanged)
  | .get count =>
      match writer.thread with
      | .top =>
          if 6 ≤ count ∧ count ≤ writer.ringBuffer.length then
            some ({ writer with thread := .gotten (writer.ringBuffer.take count) }, .unchanged)
          else none
      | .gotten _ | .started _ _ | .garbage | .ended => none
  | .start =>
      match writer.thread with
      | .gotten data => some ({ writer with thread := .started data writer.discardEnd }, .unchanged)
      | .top | .started _ _ | .garbage | .ended => none
  | .act answer =>
      match writer.thread with
      | .started data startPos =>
          (writer.act data startPos answer).map fun next => (next, .unchanged)
      | .top | .gotten _ | .garbage | .ended => none
  | .discardAll =>
      match writer.thread with
      | .garbage =>
          some ({ writer with discardEnd := writer.putPos, thread := .top }, .dropped)
      | .top | .gotten _ | .started _ _ | .ended => none
  | .leave =>
      match writer.thread with
      | .top =>
          if writer.running then none
          else some ({ writer with ringBuffer := [], thread := .ended }, .unchanged)
      | .gotten _ | .started _ _ | .garbage | .ended => none

def WellFormed : Operation → Prop
  | .put units => ∀ unit ∈ units, WholeUnit unit
  | .clear | .cancel | .get _ | .start | .act _ | .discardAll | .leave => True

/-- Steps of the writing thread and of its callers in any order. `Size` is an `int`. -/
def machine : Machine RawWriter (Operation × Effect) where
  initial writer := ∃ capacity, capacity < 2 ^ 31 ∧ writer = new capacity
  step writer label next :=
    WellFormed label.1 ∧ writer.perform label.1 = some (next, label.2)

/-- Where the thread looks for a packet to write, a pack header is shown up to the byte
that says how long it is. -/
def ShowsPackHeader (writer : RawWriter) : Prop :=
  ∀ data startPos, writer.thread = .started data startPos →
    writer.nextHeaderPos = writer.getPos → startPos ≤ writer.getPos →
      IsPackHeader data → dataIsTs data = false → 14 ≤ data.length

/-- The steps at which the ring buffer shows enough of a pack header. -/
def carefulMachine : Machine RawWriter (Operation × Effect) where
  initial := machine.initial
  step writer label next := machine.step writer label next ∧ writer.ShowsPackHeader

end RawWriter
end Xineliboutput.Tcp
