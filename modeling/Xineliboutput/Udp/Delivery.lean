import Mathlib.Data.List.GetD
import Xineliboutput.Udp.ReceiverRounds

/-!
# Frames of the server at the client

A frame that arrives as it was sent is read back as it was built: a media or
padding frame goes to the queue, a control message is executed. What the memory
of the receive buffer holds behind the datagram does not matter.
-/

namespace Xineliboutput.Udp

open Xineliboutput.Foundation Xineliboutput.StreamHeaders Xineliboutput.Client

set_option autoImplicit false

namespace Frame

/-- The datagram of a frame; the client's buffer holds `beyond` behind it. -/
def arrival (frame : Frame) (server : Address) (beyond : List UInt8) : Arrival :=
  ⟨server, frame.udpPacket, beyond⟩

def packet (frame : Frame) (beyond : List UInt8) : Packet :=
  ⟨frame.pos, frame.seq, frame.stream, frame.payload, beyond⟩

/-- The numbers of a frame are those its header can carry. -/
structure Numbered (frame : Frame) : Prop where
  pos : frame.pos < 2 ^ 64
  seq : frame.seq < 256

/-- A frame with TS or PES data that fits into a buffer of the client. Position -1
marks a control message, unless the payload begins with a zero. -/
structure Media (frame : Frame) (maxSize : Nat) : Prop where
  marked : dataIsTs frame.payload = true ∨
    dataIsPes frame.payload = true ∧ 4 ≤ frame.payload.length
  notControl : frame.pos ≠ controlPos ∨ frame.payload.getD 0 0 = 0
  fits : udpHeaderSize + frame.payload.length ≤ maxSize

/-- The frames in the order in which they arrive, each in a buffer with a memory of
its own. -/
def arrivals (server : Address) (memory : Nat → List UInt8) (frames : List Frame) :
    List Arrival :=
  frames.mapIdx fun place frame => frame.arrival server (memory place)

def carriesPadding (frame : Frame) : Bool :=
  dataIsPes frame.payload && isPaddingPacket frame.payload

end Frame

def Packet.received (packet : Packet) : Packet := { packet with beyond := [] }

@[simp] theorem received_packet (frame : Frame) (beyond : List UInt8) :
    (frame.packet beyond).received = frame.packet [] := rfl

theorem arrivals_drop (server : Address) (memory : Nat → List UInt8) (frames : List Frame)
    {place : Nat} (bound : place < frames.length) :
    (Frame.arrivals server memory frames).drop place =
      frames[place].arrival server (memory place) ::
        (Frame.arrivals server memory frames).drop (place + 1) := by
  have inside : place < (Frame.arrivals server memory frames).length := by
    simpa [Frame.arrivals] using bound
  rw [List.drop_eq_getElem_cons inside]
  simp [Frame.arrivals]

/-! ## Reading a frame back -/

theorem udp_packet_layout (frame : Frame) :
    frame.udpPacket = bigEndian 8 frame.pos ++
      (bigEndian 2 frame.seq ++ (frame.stream :: frame.payload)) := by
  simp [Frame.udpPacket, udpHeader]

theorem parse_frame {frame : Frame} (numbered : frame.Numbered) (server : Address)
    (beyond : List UInt8) :
    UdpInput.udpParseHeader false (frame.arrival server beyond) = frame.packet beyond := by
  have pos : bigEndianValue (frame.udpPacket.take 8) = frame.pos := by
    rw [udp_packet_layout, List.take_left' (big_endian_length _ _)]
    exact big_endian_value_encode 8 _ numbered.pos
  have seq : bigEndianValue ((frame.udpPacket.drop 8).take 2) = frame.seq := by
    rw [udp_packet_layout, List.drop_left' (big_endian_length _ _),
      List.take_left' (big_endian_length _ _)]
    exact big_endian_value_encode 2 _ (Nat.lt_trans numbered.seq (by decide))
  have stream : frame.udpPacket.getD 10 0 = frame.stream := by
    rw [udp_packet_layout]
    rfl
  have payload : frame.udpPacket.drop udpHeaderSize = frame.payload := by
    rw [Frame.udpPacket, List.drop_left' (udp_header_length _ _ _)]
  simp only [UdpInput.udpParseHeader, Frame.arrival, Frame.packet, Bool.false_and,
    Bool.false_eq_true, if_false, pos, seq, stream, payload]

theorem has_rtp_header {frame : Frame} (timestamp ssrc : Nat)
    (kind : frame.rtpPayloadType = rtpPayloadTypePes ∨
      frame.rtpPayloadType = rtpPayloadTypeTs) :
    UdpInput.hasRtpHeader (frame.rtpPacket timestamp ssrc) = true := by
  have layout : frame.rtpPacket timestamp ssrc =
      (rtpVersionByte ||| rtpHdrextBit) :: frame.rtpPayloadType ::
        (bigEndian 2 frame.rtpSeq ++ (bigEndian 4 timestamp ++ (bigEndian 4 ssrc ++
          (bigEndian 2 rtpHeaderExtXType ++ (bigEndian 2 rtpHeaderExtXSize ++
            (0 :: frame.udpPacket)))))) := by
    simp [Frame.rtpPacket, rtpPrefix]
  have type : bigEndianValue (((frame.rtpPacket timestamp ssrc).drop 12).take 2) =
      rtpHeaderExtXType := by
    rw [layout]
    rfl
  have size : bigEndianValue (((frame.rtpPacket timestamp ssrc).drop 14).take 2) =
      rtpHeaderExtXSize := by
    rw [layout]
    rfl
  rw [UdpInput.hasRtpHeader, type, size, layout]
  rcases kind with pes | ts
  · rw [pes]
    rfl
  · rw [ts]
    rfl

/-- The multicast group is sent the same frame behind an RTP header. -/
theorem parse_rtp_frame {frame : Frame} (numbered : frame.Numbered) (timestamp ssrc : Nat)
    (kind : frame.rtpPayloadType = rtpPayloadTypePes ∨
      frame.rtpPayloadType = rtpPayloadTypeTs) (server : Address) (beyond : List UInt8) :
    UdpInput.udpParseHeader true ⟨server, frame.rtpPacket timestamp ssrc, beyond⟩ =
      frame.packet beyond := by
  have stripped : (frame.rtpPacket timestamp ssrc).drop (rtpHeaderSize - udpHeaderSize) =
      frame.udpPacket := by
    rw [Frame.rtpPacket, List.drop_left' (rtp_prefix_length _ _ _ _)]
  rw [← parse_frame numbered server beyond]
  simp only [UdpInput.udpParseHeader, Frame.arrival, has_rtp_header timestamp ssrc kind, stripped,
    Bool.and_self, if_true, Bool.false_and, Bool.false_eq_true, if_false]

def multicastFrame : Frame := ⟨rtpPayloadTypeTs, 1, 0, 7, 0, [0x47]⟩

theorem multicast_frame_parsed :
    UdpInput.udpParseHeader true ⟨⟨0, 0⟩, multicastFrame.rtpPacket 90000 5, []⟩ =
      multicastFrame.packet [] :=
  parse_rtp_frame ⟨by decide, by decide⟩ 90000 5 (.inr rfl) ⟨0, 0⟩ []

theorem media_filled {frame : Frame} {maxSize : Nat} (media : frame.Media maxSize) :
    ∃ first rest, frame.payload = first :: rest := by
  cases shape : frame.payload with
  | nil =>
      rcases media.marked with ts | ⟨-, long⟩
      · simp [shape, dataIsTs] at ts
      · simp [shape] at long
  | cons first rest => exact ⟨first, rest, rfl⟩

theorem media_not_empty {frame : Frame} {maxSize : Nat} (media : frame.Media maxSize) :
    frame.payload ≠ [] := by
  obtain ⟨first, rest, shape⟩ := media_filled media
  simp [shape]

theorem media_data {frame : Frame} {maxSize : Nat} (media : frame.Media maxSize)
    (beyond : List UInt8) :
    dataIsTs (frame.payload ++ beyond) = dataIsTs frame.payload ∧
      (dataIsPes (frame.payload ++ beyond) && isPaddingPacket (frame.payload ++ beyond)) =
        frame.carriesPadding ∧
      (dataIsTs (frame.payload ++ beyond) || dataIsPes (frame.payload ++ beyond)) = true := by
  obtain ⟨first, rest, shape⟩ := media_filled media
  have head : dataIsTs (frame.payload ++ beyond) = dataIsTs frame.payload := by
    simp [dataIsTs, shape]
  rcases media.marked with ts | ⟨pes, long⟩
  · have byte : first = 0x47 := by simpa [dataIsTs, shape] using ts
    refine ⟨head, ?_, by rw [head, ts, Bool.true_or]⟩
    simp [Frame.carriesPadding, dataIsPes, shape, byte]
  · have inside (place : Nat) (bound : place < 4) :
        (frame.payload ++ beyond).getD place 0 = frame.payload.getD place 0 := by
      rw [List.getD_append _ _ _ _ (by omega)]
    have samePes : dataIsPes (frame.payload ++ beyond) = dataIsPes frame.payload := by
      simp only [dataIsPes, inside 0 (by decide), inside 1 (by decide), inside 2 (by decide)]
    refine ⟨head, ?_, by rw [samePes, pes, Bool.or_true]⟩
    simp only [Frame.carriesPadding, samePes, isPaddingPacket, inside 3 (by decide)]

namespace UdpInput

theorem read_socket_frame {input : UdpInput} (rtp : input.rtp = false) {frame : Frame}
    (fits : udpHeaderSize + frame.payload.length ≤ input.maxSize) (beyond : List UInt8) :
    input.readSocketUdp (frame.arrival input.udp.serverAddress beyond) = true := by
  have length : frame.udpPacket.length = udpHeaderSize + frame.payload.length := by
    simp [Frame.udpPacket]
  have filled : frame.udpPacket ≠ [] := by
    intro none
    rw [none, List.length_nil, udpHeaderSize] at length
    omega
  simp [readSocketUdp, Frame.arrival, rtp, length, fits, filled]

theorem handle_media (input : UdpInput) (rtp : input.rtp = false) {frame : Frame}
    (numbered : frame.Numbered) (media : frame.Media input.maxSize) (beyond : List UInt8) :
    input.handle (frame.arrival input.udp.serverAddress beyond) =
      (input.udp.receive (frame.packet beyond)).map fun (udp, events) =>
        ({ input with udp := udp }, events) := by
  obtain ⟨first, rest, shape⟩ := media_filled media
  obtain ⟨-, -, known⟩ := media_data media beyond
  have parsed := parse_frame numbered input.udp.serverAddress beyond
  have ordinary : isControlPacket (frame.packet beyond) = false := by
    rcases media.notControl with pos | head
    · simp [isControlPacket, Frame.packet, pos]
    · have byte : first = 0 := by simpa [shape] using head
      simp [isControlPacket, Frame.packet, Packet.data, shape, byte]
  have valid : udpCheckPacket (frame.packet beyond) = true := by
    simp only [udpCheckPacket, Frame.packet, Packet.data, Bool.or_assoc, known, Bool.or_true,
      Bool.true_and]
    exact decide_eq_true (Nat.le_of_lt_succ numbered.seq)
  simp only [handle, read_socket_frame rtp media.fits beyond, if_true, rtp, parsed,
    udpParseControl, ordinary, Bool.false_eq_true, if_false, valid, List.nil_append]

/-! ## Control messages -/

/-- The bytes that `Xine_Control_Sync` queues for a command: its line, cut to the
buffer, with the terminator. -/
def syncPayload (cmd : List UInt8) : List UInt8 := (cmd ++ [13, 10]).take 255 ++ [0]

/-- A command line that is not empty and does not look like a notice. -/
structure Command (cmd : List UInt8) : Prop where
  filled : cmd ≠ []
  text : (0 : UInt8) ∉ cmd
  notNotice : (syncPayload cmd).take 11 ≠ udpMissing

theorem cut_at_append {byte : UInt8} {text : List UInt8} (found : byte ∈ text)
    (rest : List UInt8) : cutAt byte (text ++ rest) = cutAt byte text := by
  induction text with
  | nil => simp at found
  | cons first text ih =>
      by_cases here : first = byte
      · simp [cutAt, here]
      · have later : byte ∈ text := by simpa [Ne.symm here] using found
        have onward := ih later
        simp only [cutAt] at onward
        simp [cutAt, here, onward]

theorem message_text_append {text : List UInt8} (ended : 0 ∈ text) (rest : List UInt8) :
    messageText (text ++ rest) = messageText text := by
  have line : cutAt 0 ((text ++ rest).take 64) = cutAt 0 (text.take 64) := by
    by_cases long : 64 ≤ text.length
    · rw [List.take_append_of_le_length long]
    · rw [List.take_append, List.take_of_length_le (by omega : text.length ≤ 64)]
      exact cut_at_append ended _
  simp only [messageText, line]

theorem message_text_terminated {text : List UInt8} (ended : 0 ∈ text) :
    messageText (terminated text) = messageText text := by
  by_cases long : 64 ≤ text.length
  · have line : (terminated text).take 64 = text.take 64 := by
      rw [terminated, List.take_left' (by simp [long])]
    simp only [messageText, line]
  · rw [terminated, List.take_of_length_le (by omega : text.length ≤ 64)]
    exact message_text_append ended _

theorem parse_control_congr {text other : List UInt8} (same : messageText text = messageText other) :
    dataStreamParseControl text = dataStreamParseControl other := by
  simp only [dataStreamParseControl, same]

/-- A text that does not begin with the word of a notice is not read as one. -/
theorem not_notice {text : List UInt8} (ended : 0 ∈ text) (other : text.take 11 ≠ udpMissing)
    (rest : List UInt8) : readMissing (terminated (text ++ rest)) = none := by
  rw [readMissing, if_neg]
  intro named
  by_cases long : 11 ≤ text.length
  · have room : 11 ≤ ((text ++ rest).take 64).length := by
      simp only [List.length_take, List.length_append]
      omega
    rw [terminated, List.take_append_of_le_length room, List.take_take,
      Nat.min_eq_left (by decide), List.take_append_of_le_length long] at named
    exact other named
  · have inside : (0 : UInt8) ∈ (terminated (text ++ rest)).take 11 := by
      have start : (text ++ rest).take 64 = text ++ rest.take (64 - text.length) := by
        rw [List.take_append, List.take_of_length_le (by omega : text.length ≤ 64)]
      rw [terminated, start, List.append_assoc, List.take_append,
        List.take_of_length_le (by omega : text.length ≤ 11)]
      exact List.mem_append_left _ ended
    rw [named] at inside
    revert inside
    decide

theorem sync_payload_ended (cmd : List UInt8) : 0 ∈ syncPayload cmd := by simp [syncPayload]

theorem sync_payload_length (cmd : List UInt8) : (syncPayload cmd).length ≤ 256 := by
  simp only [syncPayload, List.length_append, List.length_take, List.length_singleton]
  omega

theorem handle_control (input : UdpInput) (rtp : input.rtp = false) {frame : Frame}
    (numbered : frame.Numbered) (pos : frame.pos = controlPos) {cmd : List UInt8}
    (command : Command cmd) (payload : frame.payload = syncPayload cmd)
    (fits : udpHeaderSize + frame.payload.length ≤ input.maxSize) (beyond : List UInt8) :
    input.handle (frame.arrival input.udp.serverAddress beyond) =
      some ({ input with discardIndexDs := discardIndexAfter input.discardIndexDs frame.payload },
        [.control (dataStreamParseControl frame.payload)]) := by
  have parsed := parse_frame numbered input.udp.serverAddress beyond
  have ended : 0 ∈ frame.payload := by
    rw [payload]
    exact sync_payload_ended cmd
  have control : isControlPacket (frame.packet beyond) = true := by
    cases shape : cmd with
    | nil => exact absurd shape command.filled
    | cons first rest =>
        have byte : first ≠ 0 := by
          intro zero
          exact command.text (by simp [shape, zero])
        simp [isControlPacket, Frame.packet, Packet.data, payload, syncPayload, shape, pos, byte]
  have data : (frame.packet beyond).data = frame.payload ++ beyond := rfl
  have other := not_notice ended (payload ▸ command.notNotice) beyond
  have text : messageText (terminated (frame.payload ++ beyond)) = messageText frame.payload := by
    rw [message_text_terminated (List.mem_append_left _ ended), message_text_append ended]
  have parse := parse_control_congr text
  simp only [handle, read_socket_frame rtp fits beyond, if_true, rtp, parsed, udpParseControl,
    control, data, other, discardIndexAfter, parse]

/-! ## Turns and events -/

/-- The round goes on to read the socket if nothing is ready in the queue. -/
def Attentive (input : UdpInput) (turn : Turn) : Prop :=
  turn.running = true ∧ input.discardIndexDs ≤ turn.discardIndex ∧ turn.actionPending = false ∧
    turn.ready = true

theorem attentive_goes_on {input : UdpInput} {turn : Turn} (attentive : input.Attentive turn) :
    (!turn.running || decide (turn.discardIndex < input.discardIndexDs)) = false ∧
      (turn.actionPending || !turn.ready) = false := by
  obtain ⟨running, synced, calm, ready⟩ := attentive
  simp [running, calm, ready, synced]

def delivered? : Event → Option Packet
  | .delivered packet => some packet
  | .freed _ | .control _ | .resend _ _ _ | .reset | .corrupt => none

def command? : Event → Option DataCommand
  | .control command => some command
  | .delivered _ | .freed _ | .resend _ _ _ | .reset | .corrupt => none

def troubled : Event → Bool
  | .delivered _ | .control _ => false
  | .freed _ | .resend _ _ _ | .reset | .corrupt => true

def eventsOf (labels : List (Turn × List Event)) : List Event := labels.flatMap Prod.snd

@[simp] theorem events_of_snoc (labels : List (Turn × List Event)) (turn : Turn)
    (events : List Event) : eventsOf (labels ++ [(turn, events)]) = eventsOf labels ++ events := by
  simp [eventsOf]

end UdpInput
end Xineliboutput.Udp
