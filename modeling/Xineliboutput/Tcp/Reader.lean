import Xineliboutput.Client.DataControl
import Xineliboutput.Foundation.Machine
import Xineliboutput.Tcp.Packet

/-!
# Reading packets from a TCP connection or a pipe

`vdr_plugin_read_block_tcp` of `xine_input_vdr.c` reads one packet, header first.
It may return in between and go on with the half-read packet in a later call; how
much is still to be read is then computed again from the header, which was turned
to host byte order when its last byte had arrived. The host is little-endian.
-/

namespace Xineliboutput.Tcp

open Xineliboutput.Foundation Xineliboutput.StreamHeaders Xineliboutput.Client

set_option autoImplicit false

/-- `this->read_buffer`: the `size` bytes received, and what the memory of the
buffer holds behind them. -/
structure ReadBuffer where
  received : List UInt8
  beyond : List UInt8

structure TcpReader where
  readBuffer : Option ReadBuffer
  /-- `todo` of the call that is running. -/
  todo : Option Nat
  maxSize : Nat
  discardIndexDs : Nat
  /-- The bytes on their way, in front of `recv`. -/
  wire : List UInt8

inductive RecvAnswer where
  | bytes (count : Nat)
  | again
  | gone

/-- A call of `vdr_plugin_read_block_tcp` is entered, and its loop runs until it
returns. -/
inductive ReadOperation where
  | enter (discardIndex : Nat)
  | returnIdle
  | noBuffer
  | ready (memory : List UInt8) (answer : RecvAnswer)

/-- How a step ends. Control data goes with what is in memory behind it. -/
inductive ReadEffect where
  | delivered (content : List UInt8)
  | control (payload beyond : List UInt8)
  | tooSmall
  | returned
  | going

def hostPos (content : List UInt8) : Nat := littleEndianValue (content.take 8)

def hostLen (content : List UInt8) : Nat := littleEndianValue ((content.drop 8).take 4)

/-- `hdr->len` and `hdr->pos` turned to host byte order in place. -/
def swapHeader (content : List UInt8) : List UInt8 :=
  littleEndian 8 (headerPos content) ++ littleEndian 4 (headerLen content) ++ content.drop 12

namespace TcpReader

def new (maxSize : Nat) (wire : List UInt8) : TcpReader where
  readBuffer := none
  todo := none
  maxSize := maxSize
  discardIndexDs := 0
  wire := wire

/-- `todo` at the entry of a call. -/
def entryTodo (reader : TcpReader) : Nat :=
  match reader.readBuffer with
  | some buffer =>
      if tcpHeaderSize ≤ buffer.received.length then tcpHeaderSize + hostLen buffer.received
      else tcpHeaderSize
  | none => tcpHeaderSize

/-- "Allocate buffer": a new buffer begins with the header. -/
def allocate (reader : TcpReader) (memory : List UInt8) (todo : Nat) : ReadBuffer × Nat :=
  match reader.readBuffer with
  | some buffer => (buffer, todo)
  | none => (⟨[], memory⟩, tcpHeaderSize)

/-- "Buffer complete": the packet leaves, as control data or as a frame. -/
def complete (reader : TcpReader) (buffer : ReadBuffer) : TcpReader × ReadEffect :=
  let data := buffer.received.drop tcpHeaderSize ++ buffer.beyond
  if hostPos buffer.received = controlPos ∧ !dataIsTs data ∧ data.getD 0 0 ≠ 0 then
    ({ reader with
        readBuffer := none
        todo := none
        discardIndexDs := discardIndexAfter reader.discardIndexDs data },
      .control (buffer.received.drop tcpHeaderSize) buffer.beyond)
  else ({ reader with readBuffer := none, todo := none }, .delivered buffer.received)

/-- The rest of a round of the loop, once `recv` has appended some bytes. -/
def arrived (reader : TcpReader) (buffer : ReadBuffer) (todo : Nat) : TcpReader × ReadEffect :=
  if buffer.received.length = tcpHeaderSize then
    let swapped := { buffer with received := swapHeader buffer.received }
    let todo := todo + hostLen swapped.received
    if reader.maxSize ≤ todo + tcpHeaderSize then
      ({ reader with readBuffer := some swapped, todo := none }, .tooSmall)
    else if todo ≤ swapped.received.length then reader.complete swapped
    else ({ reader with readBuffer := some swapped, todo := some todo }, .going)
  else if todo ≤ buffer.received.length then reader.complete buffer
  else ({ reader with readBuffer := some buffer, todo := some todo }, .going)

/-- One step; `none` says that it cannot happen now. Memory of a new buffer holds
anything. -/
def perform (reader : TcpReader) : ReadOperation → Option (TcpReader × ReadEffect)
  | .enter discardIndex =>
      match reader.todo with
      | some _ => none
      | none =>
          if discardIndex < reader.discardIndexDs then some (reader, .returned)
          else some ({ reader with todo := some reader.entryTodo }, .going)
  | .returnIdle =>
      match reader.todo with
      | none => none
      | some _ => some ({ reader with todo := none }, .returned)
  | .noBuffer =>
      match reader.todo, reader.readBuffer with
      | some _, none => some (reader, .going)
      | some _, some _ | none, none | none, some _ => none
  | .ready memory answer =>
      match reader.todo with
      | none => none
      | some kept =>
          let (buffer, todo) := reader.allocate memory kept
          match answer with
          | .bytes count =>
              if 0 < count ∧ count ≤ todo - buffer.received.length ∧
                  count ≤ reader.wire.length then
                some (arrived { reader with wire := reader.wire.drop count }
                  ⟨buffer.received ++ reader.wire.take count, buffer.beyond.drop count⟩ todo)
              else none
          | .again | .gone =>
              some ({ reader with readBuffer := some buffer, todo := none }, .returned)

/-- Any calls with any answers of the system, on a connection that carries the
given packets. -/
def machine (maxSize : Nat) (packets : List TcpPacket) :
    Machine TcpReader (ReadOperation × ReadEffect) where
  initial reader := reader = new maxSize (streamOf packets)
  step reader label next := reader.perform label.1 = some (next, label.2)

end TcpReader
end Xineliboutput.Tcp
