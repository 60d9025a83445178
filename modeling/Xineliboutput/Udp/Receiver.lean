import Xineliboutput.Client.DataControl
import Xineliboutput.Foundation.BoundedLoop
import Xineliboutput.Foundation.Machine
import Xineliboutput.Udp.BackLog
import Xineliboutput.Udp.MissingText

/-!
# Receiving UDP/RTP datagrams

`vdr_plugin_read_block_udp` of `xine_input_vdr.c` with what it calls: a queue of
256 slots addressed by the wire's sequence number, in which frames wait for the
ones before them. The loop of the function carries nothing of its own from one
round to the next, so a round is one step, whichever call it belongs to. A round
is `none` when one of its inner loops would go on for ever.
-/

namespace Xineliboutput.Udp

open Xineliboutput.Foundation Xineliboutput.StreamHeaders Xineliboutput.Client

set_option autoImplicit false

/-- `sin_addr` and `sin_port`. -/
structure Address where
  host : Nat
  port : Nat
  deriving DecidableEq

/-- A buffer behind `udp_parse_header`: the UDP header in host byte order, the
payload, and what the memory of the buffer holds behind it. -/
structure Packet where
  pos : Nat
  seq : Nat
  stream : UInt8
  payload : List UInt8
  beyond : List UInt8
  deriving DecidableEq

/-- `UDP_PAYLOAD`: the bytes from the payload on. -/
def Packet.data (packet : Packet) : List UInt8 := packet.payload ++ packet.beyond

/-- `NEXTSEQ`, and what `INCSEQ` assigns. -/
def nextSeqOf (seq : Nat) : Nat := (seq + 1) % 256

def prevSeqOf (seq : Nat) : Nat := (seq + udpSeqMask) % 256

def addSeq (seq n : Int) : Nat := ((seq + udpSeqMask + 1 + n) % 256).toNat

/-- `udp_data_t`. The server's address is copied in behind `init_udp_data`. -/
structure UdpData where
  serverAddress : Address
  queue : CyclicSlots 256 Packet
  queueInputPos : Nat
  queued : Nat
  nextSeq : Nat
  currentSeq : Nat
  isPadding : Bool
  receivedFrames : Int
  resendRequested : Nat

def initUdpData (serverAddress : Address) : UdpData where
  serverAddress := serverAddress
  queue := .vacant
  queueInputPos := 0
  queued := 0
  nextSeq := 0
  currentSeq := 0
  isPadding := false
  receivedFrames := -1
  resendRequested := 0

/-- What a round does to the outside. A packet is `freed` where the queue gives
it back unread, or where the window test refuses it. -/
inductive Event where
  | delivered (packet : Packet)
  | freed (packet : Packet)
  | control (command : DataCommand)
  | resend (first last pos : Nat)
  | reset
  | corrupt
  deriving DecidableEq

/-- What a run of `udp_process_queue` leaves, frees and returns. -/
structure QueueResult where
  udp : UdpData
  freed : List Packet
  returned : Option Packet

def QueueResult.events (result : QueueResult) : List Event :=
  result.freed.map .freed ++ result.returned.toList.map .delivered

namespace UdpData

/-- `while (!udp->queue[udp->next_seq]) INCSEQ(udp->next_seq)`, for as many rounds
as there are slots. -/
def skipMissing (udp : UdpData) : Option UdpData :=
  (whileWithin (fun seq => (udp.queue.get seq).isNone) nextSeqOf 256 udp.nextSeq).map
    fun seq => { udp with nextSeq := seq }

/-- "Stay inside receiving window" -/
def keepWindow (udp : UdpData) : Option UdpData :=
  if 64 < udp.queued then udp.skipMissing.map fun skipped => { skipped with resendRequested := 0 }
  else some udp

/-- "flush all packets when idle padding found" -/
def flushPadding (udp : UdpData) : Option UdpData :=
  if udp.isPadding && 0 < udp.queued then udp.skipMissing else some udp

def head (udp : UdpData) : Option Packet :=
  if 0 < udp.queued then udp.queue.get udp.nextSeq else none

def takeNext (udp : UdpData) (packet : Packet) : UdpData :=
  { udp with
    queueInputPos := (packet.pos + packet.payload.length) % 2 ^ 64
    queue := udp.queue.put udp.nextSeq none
    queued := (udp.queued + 0xffff) % 0x10000
    nextSeq := nextSeqOf udp.nextSeq
    resendRequested := udp.resendRequested - 1 }

/-- The delivery loop: packets without a payload are freed and passed over. -/
def deliverNext : Nat → UdpData → Option QueueResult
  | 0, _ => none
  | limit + 1, udp =>
      match udp.head with
      | none => some ⟨udp, [], none⟩
      | some packet =>
          match (udp.takeNext packet).flushPadding with
          | none => none
          | some taken =>
              if packet.payload = [] then
                (deliverNext limit taken).map fun result =>
                  { result with freed := packet :: result.freed }
              else some ⟨taken, [], some packet⟩

def udpProcessQueue (udp : UdpData) : Option QueueResult :=
  if udp.queued = 0 then some ⟨udp, [], none⟩
  else
    match udp.keepWindow with
    | none => none
    | some windowed =>
        match windowed.flushPadding with
        | none => none
        | some flushed => deliverNext 257 flushed

/-- `while (!udp->queue[udp->current_seq] && --max_req > 0) INCSEQ(udp->current_seq)` -/
def endOfRequest (queue : CyclicSlots 256 Packet) : Nat → Nat → Nat
  | 0, seq => seq
  | maxReq + 1, seq =>
      if (queue.get seq).isNone && 0 < maxReq then endOfRequest queue maxReq (nextSeqOf seq)
      else seq

def udpProcessResend (udp : UdpData) : UdpData × List Event :=
  if udp.resendRequested ≠ 0 then (udp, [])
  else if nextSeqOf udp.currentSeq ≠ udp.nextSeq ∧ udp.queued ≠ 0 then
    let currentSeq := endOfRequest udp.queue 20 udp.currentSeq
    ({ udp with
        currentSeq := currentSeq
        resendRequested := (currentSeq + (udpSeqMask + 1) - udp.nextSeq) % 256 },
      [.resend udp.nextSeq (prevSeqOf currentSeq) udp.queueInputPos])
  else (udp, [])

/-- The number and the kind of the packet received; the first one starts the
numbering. -/
def note (udp : UdpData) (packet : Packet) : UdpData :=
  { udp with
    currentSeq := packet.seq % 256
    isPadding := dataIsPes packet.data && isPaddingPacket packet.data
    nextSeq := if udp.receivedFrames = -1 then packet.seq % 256 else udp.nextSeq
    receivedFrames := if udp.receivedFrames = -1 then 0 else udp.receivedFrames }

def insideWindow (udp : UdpData) : Bool := addSeq udp.currentSeq (-udp.nextSeq) ≤ 128

def allPackets (udp : UdpData) : List Packet := (List.range 256).filterMap udp.queue.get

/-- "Duplicate packet or lot of dropped packets" -/
def clearSlot (udp : UdpData) : UdpData × List Event :=
  match udp.queue.get udp.currentSeq with
  | none => (udp, [])
  | some old =>
      let cleared := { udp with queue := udp.queue.put udp.currentSeq none }
      if udp.queued = 0 then (cleared, [.freed old, .corrupt])
      else ({ cleared with queued := udp.queued - 1 }, [.freed old])

def addFrame (udp : UdpData) (packet : Packet) : UdpData :=
  { udp with
    queue := udp.queue.put udp.currentSeq (some packet)
    queued := (udp.queued + 1) % 0x10000 }

/-- "return next packet from queue (if any)", and else see what is missing. -/
def answer (udp : UdpData) : Option (UdpData × List Event) :=
  match udp.udpProcessQueue with
  | none => none
  | some result =>
      match result.returned with
      | some _ => some (result.udp, result.events)
      | none =>
          let (asked, requests) := result.udp.udpProcessResend
          some (asked, result.events ++ requests)

/-- "handle re-ordering and retransmissions": a packet that is outside the window
resets the link. -/
def receive (udp : UdpData) (packet : Packet) : Option (UdpData × List Event) :=
  let noted := udp.note packet
  if noted.insideWindow then
    let (cleared, replaced) := noted.clearSlot
    (cleared.addFrame packet).answer.map fun (answered, events) => (answered, replaced ++ events)
  else
    some (initUdpData noted.serverAddress,
      .reset :: noted.allPackets.map .freed ++ [.freed packet])

end UdpData

/-- A datagram at the client's socket, and what the receive buffer holds behind
its end. -/
structure Arrival where
  sender : Address
  content : List UInt8
  beyond : List UInt8

/-- The fields of `vdr_input_plugin_t` that the receiving thread uses, and the
datagrams on their way to its socket. -/
structure UdpInput where
  udp : UdpData
  discardIndexDs : Nat
  rtp : Bool
  maxSize : Nat
  socket : List Arrival

/-- What a round finds around it. It is not `ready` when `select` reports nothing
or no buffer is free. -/
structure Turn where
  running : Bool
  discardIndex : Nat
  actionPending : Bool
  ready : Bool
  deriving DecidableEq

namespace UdpInput

def new (rtp : Bool) (maxSize : Nat) (serverAddress : Address) (arrivals : List Arrival) :
    UdpInput where
  udp := initUdpData serverAddress
  discardIndexDs := 0
  rtp := rtp
  maxSize := maxSize
  socket := arrivals

/-- The checks of `read_socket_udp` on what `recvfrom` has received. -/
def readSocketUdp (input : UdpInput) (arrival : Arrival) : Bool :=
  arrival.content ≠ [] && arrival.sender == input.udp.serverAddress &&
    (if input.rtp then rtpHeaderSize else udpHeaderSize) ≤ arrival.content.length &&
    arrival.content.length ≤ input.maxSize

def hasRtpHeader (content : List UInt8) : Bool :=
  content.getD 0 0 == (rtpVersionByte ||| rtpHdrextBit) &&
    (content.getD 1 0 == rtpPayloadTypePes || content.getD 1 0 == rtpPayloadTypeTs) &&
    bigEndianValue ((content.drop 14).take 2) == rtpHeaderExtXSize &&
    bigEndianValue ((content.drop 12).take 2) == rtpHeaderExtXType

/-- A valid RTP header is stripped up to the UDP header inside its extension. -/
def udpParseHeader (rtp : Bool) (arrival : Arrival) : Packet :=
  let content :=
    if rtp && hasRtpHeader arrival.content then arrival.content.drop (rtpHeaderSize - udpHeaderSize)
    else arrival.content
  { pos := bigEndianValue (content.take 8)
    seq := bigEndianValue ((content.drop 8).take 2)
    stream := content.getD 10 0
    payload := content.drop udpHeaderSize
    beyond := arrival.beyond }

def isControlPacket (packet : Packet) : Bool :=
  packet.pos == controlPos && packet.data.getD 0 0 != 0

/-- `pkt_data[64] = 0` -/
def terminated (data : List UInt8) : List UInt8 := data.take 64 ++ 0 :: data.drop 65

/-- An accepted "UDP MISSING" goes on as a packet without a payload that takes the
place of the last packet missing; every other control message ends here. -/
def udpParseControl (input : UdpInput) (packet : Packet) :
    UdpInput × Option Packet × List Event :=
  if isControlPacket packet then
    let data := terminated packet.data
    match readMissing data with
    | some (seq1, seq2, rpos) =>
        if seq1 = input.udp.nextSeq then
          let seq := (seq2 % 256).toNat
          ({ input with udp := { input.udp with nextSeq := seq } },
            some { packet with pos := rpos, seq := seq, payload := [], beyond := data }, [])
        else (input, none, [])
    | none =>
        ({ input with discardIndexDs := discardIndexAfter input.discardIndexDs data }, none,
          [.control (dataStreamParseControl data)])
  else (input, some packet, [])

def udpCheckPacket (packet : Packet) : Bool :=
  (packet.payload == [] || dataIsTs packet.data || dataIsPes packet.data) &&
    packet.seq ≤ udpSeqMask

def handle (input : UdpInput) (arrival : Arrival) : Option (UdpInput × List Event) :=
  if input.readSocketUdp arrival then
    match input.udpParseControl (udpParseHeader input.rtp arrival) with
    | (parsed, none, events) => some (parsed, events)
    | (parsed, some packet, events) =>
        if udpCheckPacket packet then
          (parsed.udp.receive packet).map fun (udp, more) =>
            ({ parsed with udp := udp }, events ++ more)
        else some (parsed, events)
  else some (input, [])

/-- One round of the loop of `vdr_plugin_read_block_udp`. -/
def round (input : UdpInput) (turn : Turn) : Option (UdpInput × List Event) :=
  if !turn.running || turn.discardIndex < input.discardIndexDs then some (input, [])
  else
    match input.udp.udpProcessQueue with
    | none => none
    | some result =>
        let served := { input with udp := result.udp }
        if result.returned.isSome || turn.actionPending || !turn.ready then
          some (served, result.events)
        else
          match served.socket with
          | [] => some (served, result.events)
          | arrival :: rest =>
              (handle { served with socket := rest } arrival).map fun (handled, more) =>
                (handled, result.events ++ more)

/-- Any rounds, on the datagrams that arrive in the given order. -/
def machine (rtp : Bool) (maxSize : Nat) (serverAddress : Address) (arrivals : List Arrival) :
    Machine UdpInput (Turn × List Event) where
  initial input := input = new rtp maxSize serverAddress arrivals
  step input label next := input.round label.1 = some (next, label.2)

end UdpInput
end Xineliboutput.Udp
