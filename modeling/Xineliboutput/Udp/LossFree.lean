import Xineliboutput.Udp.Delivery
import Xineliboutput.Udp.PaddingPosition

/-!
# A link without losses

Sender and receiver composed: what a streaming session sends arrives in order,
once each and unmodified. The sender numbers every frame; the receiver executes a
control message without counting it. Between two media frames the expected number
therefore falls behind by the number of control messages sent in between, and the
link is lossless exactly where that does not show: when it is a multiple of 256,
or when a padding packet makes the receiver skip what it takes for a loss.
-/

namespace Xineliboutput.Udp

open Xineliboutput.Foundation Xineliboutput.StreamHeaders Xineliboutput.Client

set_option autoImplicit false

namespace UdpData

structure Idle (udp : UdpData) : Prop where
  vacant : udp.queue = .vacant
  queued : udp.queued = 0
  resendRequested : udp.resendRequested = 0
  nextBound : udp.nextSeq < 256
  currentBound : udp.currentSeq < 256

theorem Idle.counted {udp : UdpData} (idle : udp.Idle) : udp.Counted where
  queued := by rw [idle.queued, idle.vacant, CyclicSlots.occupied_vacant]
  nextBound := idle.nextBound
  currentBound := idle.currentBound

theorem Idle.process_queue {udp : UdpData} (idle : udp.Idle) :
    udp.udpProcessQueue = some ⟨udp, [], none⟩ := by
  rw [udpProcessQueue, if_pos idle.queued]

def offsetOf (udp : UdpData) (packet : Packet) : Nat :=
  ((udp.note packet).currentSeq + 256 - (udp.note packet).nextSeq) % 256

theorem inside_window_iff {udp : UdpData} (counted : udp.Counted) (packet : Packet) :
    (udp.note packet).insideWindow = true ↔ udp.offsetOf packet ≤ 128 := by
  have noted := counted.note packet
  simp only [insideWindow, decide_eq_true_eq, offsetOf,
    add_seq_offset noted.currentBound noted.nextBound]

theorem occupied_single (number : Nat) (packet : Packet) :
    ((CyclicSlots.vacant : CyclicSlots 256 Packet).put number (some packet)).occupied = 1 := by
  rw [CyclicSlots.occupied_put_new _ _ _ (CyclicSlots.get_vacant number),
    CyclicSlots.occupied_vacant]

/-- A packet that has the queue to itself, and where the delivery loop goes on. -/
structure Alone (udp : UdpData) (packet : Packet) (seq : Nat) : Prop where
  queue : udp.queue = CyclicSlots.vacant.put seq (some packet)
  queued : udp.queued = 1
  resendRequested : udp.resendRequested = 0
  nextBound : udp.nextSeq < 256
  currentSeq : udp.currentSeq = seq
  seqBound : seq < 256

theorem Idle.alone {udp : UdpData} (idle : udp.Idle) (packet : Packet) :
    ((udp.note packet).place packet).Alone packet (packet.seq % 256) where
  queue := by simp only [UdpData.place, note, idle.vacant]
  queued := by simp only [UdpData.place, note, idle.vacant, occupied_single]
  resendRequested := idle.resendRequested
  nextBound := (idle.counted.note packet).nextBound
  currentSeq := rfl
  seqBound := Nat.mod_lt _ (by decide)

theorem Alone.counted {udp : UdpData} {packet : Packet} {seq : Nat} (alone : udp.Alone packet seq) :
    udp.Counted where
  queued := by rw [alone.queued, alone.queue, occupied_single]
  nextBound := alone.nextBound
  currentBound := alone.currentSeq ▸ alone.seqBound

theorem Alone.keep_window {udp : UdpData} {packet : Packet} {seq : Nat}
    (alone : udp.Alone packet seq) : udp.keepWindow = some udp := by
  rw [keepWindow, if_neg (by rw [alone.queued]; decide)]

theorem deliver_next_found (limit : Nat) {udp taken : UdpData} {packet : Packet}
    (head : udp.head = some packet) (flushed : (udp.takeNext packet).flushPadding = some taken)
    (filled : packet.payload ≠ []) :
    udp.deliverNext (limit + 1) = some ⟨taken, [], some packet⟩ := by
  simp only [deliverNext, head, flushed, if_neg filled]

theorem deliver_next_waits (limit : Nat) {udp : UdpData} (waits : udp.head = none) :
    udp.deliverNext (limit + 1) = some ⟨udp, [], none⟩ := by
  simp only [deliverNext, waits]

theorem Alone.deliver {udp : UdpData} {packet : Packet} {seq : Nat} (alone : udp.Alone packet seq)
    (filled : packet.payload ≠ []) (ready : udp.nextSeq = seq ∨ udp.isPadding = true) :
    ∃ after, udp.udpProcessQueue = some ⟨after, [], some packet⟩ ∧ after.Idle ∧
      after.nextSeq = (seq + 1) % 256 := by
  have flushed : udp.flushPadding = some { udp with nextSeq := seq } := by
    by_cases isPadding : udp.isPadding = true
    · have occupied : 0 < udp.queue.occupied := by
        rw [← alone.counted.queued, alone.queued]
        decide
      obtain ⟨distance, first, skipped⟩ := skip_missing_stops alone.nextBound occupied
      have landed : (udp.nextSeq + distance) % 256 = seq := by
        have held := first.held
        rw [alone.queue, CyclicSlots.get_put] at held
        by_contra elsewhere
        rw [if_neg (by have bound := alone.seqBound; omega)] at held
        simp at held
      rw [flushPadding, if_pos (by simp [isPadding, alone.queued]), skipped, landed]
    · have expected : udp.nextSeq = seq := ready.resolve_right isPadding
      rw [flushPadding, if_neg (by simp [isPadding]), ← expected]
  have head : ({ udp with nextSeq := seq } : UdpData).head = some packet := by
    simp [UdpData.head, alone.queued, alone.queue]
  have taken : (({ udp with nextSeq := seq } : UdpData).takeNext packet).flushPadding =
      some (({ udp with nextSeq := seq } : UdpData).takeNext packet) := by
    rw [flushPadding, if_neg (by simp [takeNext, alone.queued])]
  have vacated : (CyclicSlots.vacant : CyclicSlots 256 Packet).put seq none = .vacant :=
    CyclicSlots.put_get CyclicSlots.vacant seq
  refine ⟨({ udp with nextSeq := seq } : UdpData).takeNext packet, ?_, ?_, rfl⟩
  · rw [udpProcessQueue, if_neg (by rw [alone.queued]; decide)]
    simp only [alone.keep_window, flushed]
    exact deliver_next_found 256 head taken filled
  · exact {
      vacant := by simp only [takeNext, alone.queue, CyclicSlots.put_put, vacated]
      queued := by simp [takeNext, alone.queued]
      resendRequested := by simp [takeNext, alone.resendRequested]
      nextBound := Nat.mod_lt _ (by decide)
      currentBound := alone.counted.currentBound }

theorem Alone.request {udp : UdpData} {packet : Packet} {seq : Nat} (alone : udp.Alone packet seq)
    (ahead : udp.nextSeq ≠ seq) (inside : (seq + 1) % 256 ≠ udp.nextSeq)
    (plain : udp.isPadding = false) :
    ∃ answered first last pos, udp.answer = some (answered, [.resend first last pos]) := by
  have waits : udp.head = none := by
    rw [alone.counted.head, alone.queue, CyclicSlots.get_put, if_neg, CyclicSlots.get_vacant]
    have bound := alone.seqBound
    have nextBound := alone.nextBound
    omega
  have processes : udp.udpProcessQueue = some ⟨udp, [], none⟩ := by
    rw [udpProcessQueue, if_neg (by rw [alone.queued]; decide)]
    have flushed : udp.flushPadding = some udp := by
      rw [flushPadding, if_neg (by simp [plain])]
    simp only [alone.keep_window, flushed]
    exact deliver_next_waits 256 waits
  have asks : nextSeqOf udp.currentSeq ≠ udp.nextSeq ∧ udp.queued ≠ 0 := by
    rw [alone.currentSeq, alone.queued]
    exact ⟨inside, by decide⟩
  obtain ⟨first, last, pos, requests⟩ :
      ∃ first last pos, udp.udpProcessResend.2 = [.resend first last pos] := by
    simp only [udpProcessResend, alone.resendRequested, ne_eq, not_true_eq_false, if_false]
    rw [if_pos asks]
    exact ⟨_, _, _, rfl⟩
  refine ⟨udp.udpProcessResend.1, first, last, pos, ?_⟩
  simp [UdpData.answer, processes, requests, QueueResult.events]

theorem Idle.receive_inside {udp : UdpData} (idle : udp.Idle) {packet : Packet}
    (inside : udp.offsetOf packet ≤ 128) :
    udp.receive packet = ((udp.note packet).place packet).answer := by
  rw [idle.counted.receive_inside ((inside_window_iff idle.counted packet).mpr inside)]
  have vacant : (udp.note packet).queue.get (udp.note packet).currentSeq = none := by
    simp [note, idle.vacant]
  simp [vacant]

theorem Idle.receive_passes {udp : UdpData} (idle : udp.Idle) {packet : Packet}
    (filled : packet.payload ≠ [])
    (ready : udp.offsetOf packet = 0 ∨
      udp.offsetOf packet ≤ 128 ∧ (udp.note packet).isPadding = true) :
    ∃ received, udp.receive packet = some (received, [.delivered packet]) ∧ received.Idle ∧
      received.nextSeq = (packet.seq + 1) % 256 ∧ SameSetting (udp.note packet) received := by
  have alone := idle.alone packet
  have inside : udp.offsetOf packet ≤ 128 := by omega
  have reached : ((udp.note packet).place packet).nextSeq = packet.seq % 256 ∨
      ((udp.note packet).place packet).isPadding = true := by
    rcases ready with expected | ⟨-, isPadding⟩
    · left
      have current := (idle.counted.note packet).currentBound
      have next := (idle.counted.note packet).nextBound
      simp only [offsetOf] at expected
      have same : (udp.note packet).nextSeq = (udp.note packet).currentSeq := by omega
      exact same
    · exact .inr isPadding
  obtain ⟨after, processes, rests, next⟩ := alone.deliver filled reached
  have setting := process_queue_setting alone.counted processes
  refine ⟨after, ?_, rests, by rw [next]; omega,
    setting.serverAddress, setting.receivedFrames, setting.isPadding⟩
  rw [idle.receive_inside inside]
  simp [UdpData.answer, processes, QueueResult.events]

theorem Idle.receive_fails {udp : UdpData} (idle : udp.Idle) {packet : Packet}
    (ahead : ¬ (udp.offsetOf packet = 0 ∨
      udp.offsetOf packet ≤ 128 ∧ (udp.note packet).isPadding = true)) :
    ∃ received events, udp.receive packet = some (received, events) ∧
      (.reset ∈ events ∨ ∃ first last pos, .resend first last pos ∈ events) := by
  have alone := idle.alone packet
  by_cases inside : udp.offsetOf packet ≤ 128
  · have current := (idle.counted.note packet).currentBound
    have next := (idle.counted.note packet).nextBound
    have moved : udp.offsetOf packet ≠ 0 := fun expected => ahead (.inl expected)
    have plain : (udp.note packet).isPadding = false := by
      by_contra isPadding
      exact ahead (.inr ⟨inside, by simpa using isPadding⟩)
    simp only [offsetOf] at moved inside
    have away : (udp.note packet).nextSeq ≠ (udp.note packet).currentSeq := by omega
    have near : ((udp.note packet).currentSeq + 1) % 256 ≠ (udp.note packet).nextSeq := by omega
    obtain ⟨answered, first, last, pos, answers⟩ := alone.request away near plain
    refine ⟨answered, _, ?_, .inr ⟨first, last, pos, List.mem_singleton.mpr rfl⟩⟩
    rw [idle.receive_inside inside, answers]
  · have outside : ¬ (udp.note packet).insideWindow = true := by
      rwa [inside_window_iff idle.counted]
    refine ⟨initUdpData (udp.note packet).serverAddress,
      .reset :: (udp.note packet).allPackets.map .freed ++ [.freed packet], ?_, by simp⟩
    simp only [UdpData.receive, if_neg outside]

end UdpData

/-! ## What is sent and what comes out -/

/-- The control messages behind the last other frame; `none` where there is no
other frame yet. -/
def gapBehind (frames : List Frame) : Option Nat :=
  frames.foldl (fun gap frame => if frame.isControl then gap.map (· + 1) else some 0) none

/-- The receiver, which has not counted the control messages, takes the frame for
the expected one, or skips to it. -/
def GapFits (before : List Frame) (frame : Frame) : Prop :=
  frame.isControl = false → ∀ gap ∈ gapBehind before,
    gap % 256 = 0 ∨ gap % 256 ≤ 128 ∧ frame.carriesPadding = true

def GapsClear (frames : List Frame) : Prop := EachAfter GapFits frames

instance (before : List Frame) : DecidablePred (GapFits before) := fun _ =>
  inferInstanceAs (Decidable (_ → ∀ gap ∈ gapBehind before, _))

instance (frames : List Frame) : Decidable (GapsClear frames) :=
  inferInstanceAs (Decidable (EachAfter _ frames))

theorem gap_behind_snoc (frames : List Frame) (frame : Frame) :
    gapBehind (frames ++ [frame]) =
      if frame.isControl then (gapBehind frames).map (· + 1) else some 0 := by
  simp [gapBehind]

/-- What a session puts into a frame: data of the stream, or a command line. -/
def Frame.Carried (frame : Frame) (maxSize : Nat) : Prop :=
  if frame.isControl then
    (∃ cmd, UdpInput.Command cmd ∧ frame.payload = UdpInput.syncPayload cmd) ∧
      udpHeaderSize + frame.payload.length ≤ maxSize
  else frame.Media maxSize

/-- What a sender gives to a frame: its number, and position -1 to a command. -/
structure Frame.Issued (frame : Frame) (place : Nat) : Prop where
  numbered : frame.Numbered
  seq : frame.seq = place % 256
  control : frame.isControl = true → frame.pos = controlPos

def mediaPackets (frames : List Frame) : List Packet :=
  (frames.filter fun frame => !frame.isControl).map fun frame => frame.packet []

def commandsOf (frames : List Frame) : List DataCommand :=
  (frames.filter Frame.isControl).map fun frame => dataStreamParseControl frame.payload

namespace UdpInput

/-- Of the frames, the first `count` have been received, and all that came out of
it is their payloads and commands. -/
structure Transferred (frames : List Frame) (labels : List (Turn × List Event)) (input : UdpInput)
    (count : Nat) : Prop where
  remaining : input.socket.length + count = frames.length
  delivered : ((eventsOf labels).filterMap delivered?).map Packet.received =
    mediaPackets (frames.take count)
  executed : (eventsOf labels).filterMap command? = commandsOf (frames.take count)
  untroubled : ∀ event ∈ eventsOf labels, troubled event = false
  vacant : ∀ number, input.udp.queue.get number = none
  progress : ∀ turn, input.Attentive turn → count < frames.length →
    ∃ next events, input.round turn = some (next, events) ∧
      next.socket.length + 1 = input.socket.length

/-- In every run of the client, whatever the memory of its buffers holds. -/
def Lossless (maxSize : Nat) (server : Address) (frames : List Frame) : Prop :=
  ∀ memory labels input,
    (machine false maxSize server (Frame.arrivals server memory frames)).Run labels input →
      ∃ count, Transferred frames labels input count

/-! ## Runs of the client -/

def Expects (before : List Frame) (udp : UdpData) : Prop :=
  match gapBehind before with
  | none => udp.receivedFrames = -1
  | some gap => udp.receivedFrames ≠ -1 ∧ (udp.nextSeq + gap) % 256 = before.length % 256

structure Passing (maxSize : Nat) (server : Address) (memory : Nat → List UInt8)
    (frames : List Frame) (labels : List (Turn × List Event)) (input : UdpInput) (count : Nat) :
    Prop where
  rtp : input.rtp = false
  bufferSize : input.maxSize = maxSize
  address : input.udp.serverAddress = server
  bound : count ≤ frames.length
  socket : input.socket = (Frame.arrivals server memory frames).drop count
  idle : input.udp.Idle
  expects : Expects (frames.take count) input.udp
  delivered : ((eventsOf labels).filterMap delivered?).map Packet.received =
    mediaPackets (frames.take count)
  executed : (eventsOf labels).filterMap command? = commandsOf (frames.take count)
  untroubled : ∀ event ∈ eventsOf labels, troubled event = false

/-- In front of a media frame, the number of control messages is the offset that
the receiver sees. -/
theorem offset_of_gap {before : List Frame} {udp : UdpData} (expects : Expects before udp)
    (bound : udp.nextSeq < 256) {packet : Packet} (seq : packet.seq = before.length % 256) :
    udp.offsetOf packet = (gapBehind before).getD 0 % 256 := by
  simp only [UdpData.offsetOf, UdpData.note, seq]
  cases behind : gapBehind before with
  | none =>
      simp only [Expects, behind] at expects
      rw [if_pos expects, Option.getD_none]
      omega
  | some gap =>
      simp only [Expects, behind] at expects
      rw [if_neg expects.1, Option.getD_some]
      omega

theorem media_packets_snoc (frames : List Frame) (frame : Frame) :
    mediaPackets (frames ++ [frame]) =
      mediaPackets frames ++ if frame.isControl then [] else [frame.packet []] := by
  cases control : frame.isControl <;> simp [mediaPackets, control]

theorem commands_of_snoc (frames : List Frame) (frame : Frame) :
    commandsOf (frames ++ [frame]) =
      commandsOf frames ++
        if frame.isControl then [dataStreamParseControl frame.payload] else [] := by
  cases control : frame.isControl <;> simp [commandsOf, control]

section Reading

variable {maxSize : Nat} {server : Address} {memory : Nat → List UInt8} {frames : List Frame}
  {labels : List (Turn × List Event)} {input : UdpInput} {count : Nat}

theorem Passing.ready_iff (passing : Passing maxSize server memory frames labels input count)
    (more : count < frames.length) (issued : frames[count].Issued count)
    (media : frames[count].Media maxSize) (payload : frames[count].isControl = false)
    (beyond : List UInt8) :
    (input.udp.offsetOf (frames[count].packet beyond) = 0 ∨
      input.udp.offsetOf (frames[count].packet beyond) ≤ 128 ∧
        (input.udp.note (frames[count].packet beyond)).isPadding = true) ↔
      GapFits (frames.take count) frames[count] := by
  have seq : (frames[count].packet beyond).seq = (frames.take count).length % 256 := by
    rw [List.length_take, Nat.min_eq_left (Nat.le_of_lt more)]
    exact issued.seq
  have padding : (input.udp.note (frames[count].packet beyond)).isPadding =
      frames[count].carriesPadding := (media_data media beyond).2.1
  rw [offset_of_gap passing.expects passing.idle.nextBound seq, padding, GapFits]
  cases behind : gapBehind (frames.take count) with
  | none => simp
  | some gap => simp [payload]

theorem Passing.after (passing : Passing maxSize server memory frames labels input count)
    (more : count < frames.length) (turn : Turn) {next : UdpInput} {events : List Event}
    (rtp : next.rtp = false) (bufferSize : next.maxSize = maxSize)
    (address : next.udp.serverAddress = server)
    (socket : next.socket = (Frame.arrivals server memory frames).drop (count + 1))
    (idle : next.udp.Idle) (expects : Expects (frames.take count ++ [frames[count]]) next.udp)
    (delivered : (events.filterMap delivered?).map Packet.received =
      if frames[count].isControl then [] else [frames[count].packet []])
    (executed : events.filterMap command? =
      if frames[count].isControl then [dataStreamParseControl frames[count].payload] else [])
    (untroubled : ∀ event ∈ events, troubled event = false) :
    Passing maxSize server memory frames (labels ++ [(turn, events)]) next (count + 1) := by
  have prefixes : frames.take (count + 1) = frames.take count ++ [frames[count]] :=
    (List.take_concat_get' frames count more).symm
  refine ⟨rtp, bufferSize, address, more, socket, idle, by rw [prefixes]; exact expects,
    ?_, ?_, ?_⟩
  · rw [events_of_snoc, List.filterMap_append, List.map_append, passing.delivered, prefixes,
      media_packets_snoc, delivered]
  · rw [events_of_snoc, List.filterMap_append, passing.executed, prefixes, commands_of_snoc,
      executed]
  · intro event member
    rw [events_of_snoc] at member
    rcases List.mem_append.mp member with earlier | last
    · exact passing.untroubled event earlier
    · exact untroubled event last

theorem Passing.read (passing : Passing maxSize server memory frames labels input count)
    (more : count < frames.length) (issued : frames[count].Issued count)
    (carried : frames[count].Carried maxSize) (fits : GapFits (frames.take count) frames[count])
    (turn : Turn) :
    ∃ handled events,
      { input with socket := (Frame.arrivals server memory frames).drop (count + 1) }.handle
          (frames[count].arrival server (memory count)) = some (handled, events) ∧
        Passing maxSize server memory frames (labels ++ [(turn, events)]) handled (count + 1) := by
  have length : (frames.take count).length = count := by
    rw [List.length_take, Nat.min_eq_left (Nat.le_of_lt more)]
  obtain rfl := passing.address
  obtain rfl := passing.bufferSize
  cases control : frames[count].isControl with
  | true =>
      simp only [Frame.Carried, control, if_true] at carried
      obtain ⟨⟨cmd, command, payload⟩, room⟩ := carried
      refine ⟨_, _, handle_control { input with
        socket := (Frame.arrivals input.udp.serverAddress memory frames).drop (count + 1) }
        passing.rtp issued.numbered (issued.control control) command payload room (memory count), ?_⟩
      refine passing.after more turn passing.rtp rfl rfl rfl passing.idle ?_ ?_ ?_ ?_
      · have before := passing.expects
        simp only [Expects, gap_behind_snoc, control, if_true] at before ⊢
        cases behind : gapBehind (frames.take count) with
        | none => simpa [behind] using before
        | some gap =>
            simp only [behind, Option.map_some] at before ⊢
            refine ⟨before.1, ?_⟩
            rw [List.length_append, List.length_singleton]
            omega
      · rw [control]
        rfl
      · rw [control]
        rfl
      · intro event member
        rw [List.mem_singleton.mp member]
        rfl
  | false =>
      have media : frames[count].Media input.maxSize := by
        simpa [Frame.Carried, control] using carried
      have ready := (passing.ready_iff more issued media control (memory count)).mpr fits
      obtain ⟨received, receives, rests, next, setting⟩ :=
        passing.idle.receive_passes (media_not_empty media) ready
      refine ⟨{ input with
          udp := received
          socket := (Frame.arrivals input.udp.serverAddress memory frames).drop (count + 1) },
        [.delivered (frames[count].packet (memory count))], ?_, ?_⟩
      · rw [handle_media { input with
          socket := (Frame.arrivals input.udp.serverAddress memory frames).drop (count + 1) }
          passing.rtp issued.numbered media (memory count), receives]
        rfl
      · refine passing.after more turn passing.rtp rfl setting.serverAddress rfl rests ?_ ?_ ?_ ?_
        · simp only [Expects, gap_behind_snoc, control, Bool.false_eq_true, if_false]
          refine ⟨?_, ?_⟩
          · rw [setting.receivedFrames]
            exact UdpData.note_started _ _
          · rw [next, List.length_append, List.length_singleton, length]
            have seq := issued.seq
            simp only [Frame.packet]
            omega
        · rw [control]
          rfl
        · rw [control]
          rfl
        · intro event member
          rw [List.mem_singleton.mp member]
          rfl

/-- With nothing in the queue, a round does nothing or reads the next frame. -/
theorem Passing.round_cases (passing : Passing maxSize server memory frames labels input count)
    {turn : Turn} {next : UdpInput} {events : List Event}
    (steps : input.round turn = some (next, events)) :
    (next = input ∧ events = []) ∨
      ∃ more : count < frames.length,
        { input with socket := (Frame.arrivals server memory frames).drop (count + 1) }.handle
          (frames[count].arrival server (memory count)) = some (next, events) := by
  have idle := passing.idle.process_queue
  cases UdpInput.round_cases steps with
  | rests nothing => exact .inl ⟨rfl, rfl⟩
  | serves nothing result processes =>
      obtain rfl := Option.some.inj (processes.symm.trans idle)
      exact .inl ⟨rfl, rfl⟩
  | @reads result processes unanswered arrival rest waiting takes handled events handles =>
      obtain rfl := Option.some.inj (processes.symm.trans idle)
      right
      rw [passing.socket] at waiting
      have more : count < frames.length := by
        by_contra none_left
        have short : (Frame.arrivals server memory frames).length ≤ count := by
          simpa [Frame.arrivals] using none_left
        rw [List.drop_eq_nil_of_le short] at waiting
        contradiction
      rw [arrivals_drop server memory frames more, List.cons.injEq] at waiting
      obtain ⟨rfl, rfl⟩ := waiting
      exact ⟨more, handles⟩

theorem Passing.attentive (passing : Passing maxSize server memory frames labels input count)
    (more : count < frames.length) {turn : Turn} (attentive : input.Attentive turn) :
    input.round turn =
      { input with socket := (Frame.arrivals server memory frames).drop (count + 1) }.handle
        (frames[count].arrival server (memory count)) := by
  obtain ⟨awake, reads⟩ := attentive_goes_on attentive
  have socket := passing.socket
  rw [arrivals_drop server memory frames more] at socket
  simp only [UdpInput.round, awake, Bool.false_eq_true, if_false, passing.idle.process_queue,
    Option.isSome_none, Bool.false_or, reads, socket, QueueResult.events, List.map_nil,
    Option.toList, List.append_nil, List.nil_append]
  generalize handle _ _ = outcome
  cases outcome <;> rfl

theorem Passing.silent (passing : Passing maxSize server memory frames labels input count)
    (turn : Turn) :
    Passing maxSize server memory frames (labels ++ [(turn, [])]) input count := by
  have nothing : eventsOf (labels ++ [(turn, [])]) = eventsOf labels := by simp
  refine ⟨passing.rtp, passing.bufferSize, passing.address, passing.bound, passing.socket,
    passing.idle, passing.expects, ?_, ?_, ?_⟩
  · rw [nothing, passing.delivered]
  · rw [nothing, passing.executed]
  · rw [nothing]
    exact passing.untroubled

end Reading

section Link

variable {maxSize : Nat} {server : Address} {memory : Nat → List UInt8} {frames : List Frame}

theorem passing_start : Passing maxSize server memory frames []
    (new false maxSize server (Frame.arrivals server memory frames)) 0 := by
  refine ⟨rfl, rfl, rfl, Nat.zero_le _, rfl, ?_, rfl, rfl, rfl, by simp [eventsOf]⟩
  exact ⟨rfl, rfl, rfl, by simp [new, initUdpData], by simp [new, initUdpData]⟩

theorem passing_run
    (issued : ∀ place (bound : place < frames.length), frames[place].Issued place)
    (carried : ∀ frame ∈ frames, frame.Carried maxSize) (clear : GapsClear frames)
    {labels : List (Turn × List Event)} {input : UdpInput}
    (run : (machine false maxSize server (Frame.arrivals server memory frames)).Run labels input) :
    ∃ count, Passing maxSize server memory frames labels input count := by
  apply run.invariant fun labels input =>
    ∃ count, Passing maxSize server memory frames labels input count
  · intro input begins
    obtain rfl := begins
    exact ⟨0, passing_start⟩
  · rintro labels input ⟨turn, events⟩ next ⟨count, passing⟩ steps
    rcases passing.round_cases steps with ⟨rfl, rfl⟩ | ⟨more, handles⟩
    · exact ⟨count, passing.silent turn⟩
    · obtain ⟨handled, read, reads, after⟩ := passing.read more (issued count more)
        (carried _ (List.getElem_mem more)) (clear count more) turn
      have same := reads.symm.trans handles
      simp only [Option.some.injEq, Prod.mk.injEq] at same
      obtain ⟨rfl, rfl⟩ := same
      exact ⟨count + 1, after⟩

theorem passing_reaches (server : Address) (memory : Nat → List UInt8)
    (issued : ∀ place (bound : place < frames.length), frames[place].Issued place)
    (carried : ∀ frame ∈ frames, frame.Carried maxSize) {count : Nat}
    (bound : count ≤ frames.length)
    (clear : ∀ place, place < count → ∀ inside : place < frames.length,
      GapFits (frames.take place) frames[place]) :
    ∃ labels input,
      (machine false maxSize server (Frame.arrivals server memory frames)).Run labels input ∧
        Passing maxSize server memory frames labels input count := by
  induction count with
  | zero => exact ⟨[], _, .start rfl, passing_start⟩
  | succ count ih =>
      obtain ⟨labels, input, run, passing⟩ := ih (by omega) fun place lower inside =>
        clear place (by omega) inside
      have more : count < frames.length := bound
      have attentive : input.Attentive ⟨true, input.discardIndexDs, false, true⟩ :=
        ⟨rfl, Nat.le_refl _, rfl, rfl⟩
      obtain ⟨handled, events, reads, after⟩ := passing.read more (issued count more)
        (carried _ (List.getElem_mem more)) (clear count (by omega) more)
        ⟨true, input.discardIndexDs, false, true⟩
      have steps : (machine false maxSize server (Frame.arrivals server memory frames)).step input
          (⟨true, input.discardIndexDs, false, true⟩, events) handled :=
        (passing.attentive more attentive).trans reads
      exact ⟨_, handled, run.snoc steps, after⟩

theorem lossless_of_gaps_clear
    (issued : ∀ place (bound : place < frames.length), frames[place].Issued place)
    (carried : ∀ frame ∈ frames, frame.Carried maxSize) (clear : GapsClear frames) :
    Lossless maxSize server frames := by
  intro memory labels input run
  obtain ⟨count, passing⟩ := passing_run issued carried clear run
  have size : (Frame.arrivals server memory frames).length = frames.length := by
    simp [Frame.arrivals]
  have bound := passing.bound
  refine ⟨count, ?_, passing.delivered, passing.executed, passing.untroubled, ?_, ?_⟩
  · rw [passing.socket, List.length_drop, size]
    omega
  · intro number
    rw [passing.idle.vacant, CyclicSlots.get_vacant]
  · intro turn attentive more
    obtain ⟨handled, events, reads, after⟩ := passing.read more (issued count more)
      (carried _ (List.getElem_mem more)) (clear count more) turn
    refine ⟨handled, events, (passing.attentive more attentive).trans reads, ?_⟩
    rw [after.socket, passing.socket, List.length_drop, List.length_drop, size]
    omega

/-- The first frame whose gap does not fit is not delivered when it is read. -/
theorem gaps_clear_of_lossless
    (issued : ∀ place (bound : place < frames.length), frames[place].Issued place)
    (carried : ∀ frame ∈ frames, frame.Carried maxSize) (lossless : Lossless maxSize server frames) :
    GapsClear frames := by
  intro place
  induction place using Nat.strong_induction_on with
  | h place before =>
      intro more
      by_contra unfit
      obtain ⟨labels, input, run, passing⟩ := passing_reaches server (fun _ => []) issued carried
        (Nat.le_of_lt more) before
      have attentive : input.Attentive ⟨true, input.discardIndexDs, false, true⟩ :=
        ⟨rfl, Nat.le_refl _, rfl, rfl⟩
      have payload : frames[place].isControl = false := by
        by_contra control
        exact unfit fun media => absurd media control
      have media : frames[place].Media maxSize := by
        simpa [Frame.Carried, payload] using carried _ (List.getElem_mem more)
      have ahead := (passing.ready_iff more (issued place more) media payload []).not.mpr unfit
      obtain ⟨received, events, receives, trouble⟩ := passing.idle.receive_fails ahead
      obtain rfl := passing.address
      obtain rfl := passing.bufferSize
      have handled := handle_media { input with
        socket := (Frame.arrivals input.udp.serverAddress (fun _ => []) frames).drop (place + 1) }
        passing.rtp (issued place more).numbered media []
      rw [receives] at handled
      have reads := (passing.attentive more attentive).trans handled
      have steps : (machine false input.maxSize input.udp.serverAddress
          (Frame.arrivals input.udp.serverAddress (fun _ => []) frames)).step input
            (⟨true, input.discardIndexDs, false, true⟩, events) _ := reads
      obtain ⟨_, transferred⟩ := lossless _ _ _ (run.snoc steps)
      have quiet := transferred.untroubled
      rcases trouble with reset | ⟨first, last, pos, request⟩
      · have calm := quiet .reset (by rw [events_of_snoc]; exact List.mem_append_right _ reset)
        contradiction
      · have calm := quiet (.resend first last pos)
          (by rw [events_of_snoc]; exact List.mem_append_right _ request)
        contradiction

end Link

end UdpInput

/-! ## What a session sends -/

namespace Scheduler

def Numbers (scheduler next : Scheduler) : Effect → Prop
  | .queued frame => frame.Numbered ∧ frame.seq = scheduler.backLog.seqNo ∧
      (frame.isControl = true → frame.pos = controlPos) ∧
      next.backLog.seqNo = (scheduler.backLog.seqNo + 1) % 256
  | .flushed => False
  | .refused | .taken _ | .transmitted _ | .unchanged =>
      next.backLog.seqNo = scheduler.backLog.seqNo

theorem append_numbers (scheduler next : Scheduler) (stream : StreamId) (streamPos : Nat)
    (data : List UInt8) (control : stream = .sidControl → streamPos = controlPos)
    (made : next.backLog = (scheduler.append stream streamPos data).backLog) :
    scheduler.Numbers next (.queued (scheduler.backLog.frameFor stream streamPos data)) := by
  refine ⟨⟨Nat.mod_lt _ (by decide), scheduler.backLog.seqNoBound⟩, rfl, ?_, by rw [made]; rfl⟩
  intro marked
  have command : stream = .sidControl :=
    (stream_byte_control_iff stream).mp (by simpa [Frame.isControl, BackLog.frameFor] using marked)
  rw [BackLog.frameFor, control command]
  rfl

theorem streaming_numbers {scheduler next : Scheduler} {operation : Operation} {effect : Effect}
    (streaming : Streaming operation)
    (performed : scheduler.perform operation = some (next, effect)) :
    scheduler.Numbers next effect := by
  cases perform_cases performed with
  | aside operation nothing same thread =>
      have uncounted : next.backLog.seqNo = scheduler.backLog.seqNo := by rw [same.backLog]
      rcases nothing with rfl | rfl <;> exact uncounted
  | queues stream streamPos data room =>
      cases streaming with
      | media => exact append_numbers _ _ _ _ _ (by simp) rfl
      | control => exact append_numbers _ _ _ _ _ (fun _ => rfl) rfl
  | pads room => exact append_numbers _ _ _ _ _ (by simp) rfl
  | padsIdle waiting drained => exact append_numbers _ _ _ _ _ (by simp) rfl
  | clears => nomatch streaming
  | flushes fd nanoseconds idle => nomatch streaming
  | waits ready => rfl
  | wakes waiting => rfl
  | takes ready found some_pending => rfl
  | transmits sends found => rfl

structure StreamHistory (labels : List (Operation × Effect)) (scheduler : Scheduler) : Prop where
  count : scheduler.backLog.seqNo = (queuedFrames labels).length % 256
  issued : EachAfter (fun before frame => frame.Issued before.length) (queuedFrames labels)

theorem StreamHistory.unqueued {labels : List (Operation × Effect)} {scheduler next : Scheduler}
    (history : StreamHistory labels scheduler) {label : Operation × Effect}
    (nothing : (observe label).bind Fifo.put? = none)
    (count : next.backLog.seqNo = scheduler.backLog.seqNo) :
    StreamHistory (labels ++ [label]) next := by
  have same : queuedFrames (labels ++ [label]) = queuedFrames labels := by
    rw [queued_frames_snoc, nothing, Option.toList, List.append_nil]
  exact ⟨by rw [same, count, history.count], by rw [same]; exact history.issued⟩

theorem stream_history {labels : List (Operation × Effect)} {scheduler : Scheduler}
    (run : streamingMachine.Run labels scheduler) : StreamHistory labels scheduler := by
  refine run.invariant StreamHistory ?_ ?_
  · rintro scheduler ⟨nanoseconds, rfl⟩
    exact ⟨rfl, each_after_nil _⟩
  · rintro labels scheduler ⟨operation, effect⟩ next history ⟨performed, streaming⟩
    have numbers := streaming_numbers streaming performed
    cases effect with
    | queued frame =>
        obtain ⟨numbered, seq, control, count⟩ := numbers
        have frames : queuedFrames (labels ++ [(operation, .queued frame)]) =
            queuedFrames labels ++ [frame] := queued_frames_snoc _ _
        refine ⟨?_, ?_⟩
        · rw [frames, List.length_append, List.length_singleton, count, history.count]
          omega
        · rw [frames]
          refine each_after_snoc.mpr ⟨history.issued, numbered, ?_, control⟩
          rw [seq, history.count]
    | flushed => exact numbers.elim
    | taken frame => exact history.unqueued rfl numbers
    | transmitted frame => exact history.unqueued rfl numbers
    | refused => exact history.unqueued rfl numbers
    | unchanged => exact history.unqueued rfl numbers

theorem sent_frames_issued {labels : List (Operation × Effect)} {scheduler : Scheduler}
    (run : streamingMachine.Run labels scheduler) (place : Nat)
    (bound : place < (sentFrames labels).length) : (sentFrames labels)[place].Issued place := by
  obtain ⟨rest, sent⟩ := sent_of_queued run
  have inside : place < (queuedFrames labels).length := by
    rw [sent, List.length_append]
    omega
  have issued := (stream_history run).issued place inside
  have same : (queuedFrames labels)[place] = (sentFrames labels)[place] := by
    simp only [sent]
    rw [List.getElem_append_left bound]
  rwa [same, List.length_take, Nat.min_eq_left (Nat.le_of_lt inside)] at issued

end Scheduler

namespace UdpInput

/-- The link loses nothing if and only if the gaps of the frames sent are clear. -/
theorem lossless_iff_gaps_clear {labels : List (Scheduler.Operation × Scheduler.Effect)}
    {scheduler : Scheduler} (run : Scheduler.streamingMachine.Run labels scheduler)
    {maxSize : Nat} (carried : ∀ frame ∈ Scheduler.sentFrames labels, frame.Carried maxSize)
    (server : Address) :
    Lossless maxSize server (Scheduler.sentFrames labels) ↔
      GapsClear (Scheduler.sentFrames labels) :=
  ⟨gaps_clear_of_lossless (Scheduler.sent_frames_issued run) carried,
    lossless_of_gaps_clear (Scheduler.sent_frames_issued run) carried⟩

/-- "BLANK" -/
def blankCommand : List UInt8 := ascii ['B', 'L', 'A', 'N', 'K']

theorem blank_command : Command blankCommand where
  filled := by decide
  text := by decide
  notNotice := by decide

/-- Frames with data or with the command "BLANK" can be checked by evaluation. -/
theorem carried_of_checked {frames : List Frame}
    (checked : ∀ frame ∈ frames,
      if frame.isControl then frame.payload = syncPayload blankCommand
      else (dataIsTs frame.payload = true ∨
          dataIsPes frame.payload = true ∧ 4 ≤ frame.payload.length) ∧
        (frame.pos ≠ controlPos ∨ frame.payload.getD 0 0 = 0) ∧ frame.payload.length ≤ 2037) :
    ∀ frame ∈ frames, frame.Carried 2048 := by
  intro frame member
  have carried := checked frame member
  cases control : frame.isControl with
  | true =>
      simp only [control, if_true] at carried
      have length := sync_payload_length blankCommand
      simp only [Frame.Carried, control, if_true]
      refine ⟨⟨blankCommand, blank_command, carried⟩, ?_⟩
      rw [carried, udpHeaderSize]
      omega
  | false =>
      simp only [control, Bool.false_eq_true, if_false] at carried
      obtain ⟨marked, notControl, fits⟩ := carried
      simp only [Frame.Carried, control, Bool.false_eq_true, if_false]
      refine ⟨marked, notControl, ?_⟩
      rw [udpHeaderSize]
      omega

theorem lossless_iff_gaps_clear_padding_behind_command :
    ∃ labels scheduler, Scheduler.streamingMachine.Run labels scheduler ∧
      (Scheduler.sentFrames labels).length = 3 ∧
      (Lossless 2048 ⟨1, 2⟩ (Scheduler.sentFrames labels) ↔
        GapsClear (Scheduler.sentFrames labels)) := by
  have run := Machine.Run.drive Scheduler.streamingMachine
    [.addHandle 5 none, .queue .sidVdr 0 [0x47, 1, 2],
      .queue .sidControl controlPos (syncPayload blankCommand), .queuePadding,
      .take, .transmit, .take, .transmit, .take, .transmit]
    (by
      intro scheduler next effect operation member performed
      refine ⟨performed, ?_⟩
      simp only [List.mem_cons, List.not_mem_nil, or_false] at member
      rcases member with rfl | rfl | rfl | rfl | rfl | rfl | rfl | rfl | rfl | rfl
      · exact .addHandle _ _
      · exact .media _ _
      · exact .control _
      · exact .queuePadding
      all_goals first | exact .take | exact .transmit)
    (.start ⟨7, rfl⟩) rfl
  exact ⟨_, _, run, by decide +kernel,
    lossless_iff_gaps_clear run (carried_of_checked (by decide +kernel)) ⟨1, 2⟩⟩

/-- Behind one control message the next media frame is not taken for the expected
one: it waits, and the client asks for the message again. -/
theorem control_message_stalls_link :
    ¬ ∀ labels scheduler, Scheduler.streamingMachine.Run labels scheduler →
      ∀ maxSize, (∀ frame ∈ Scheduler.sentFrames labels, frame.Carried maxSize) →
        ∀ server, Lossless maxSize server (Scheduler.sentFrames labels) := by
  intro claimed
  have run := Machine.Run.drive Scheduler.streamingMachine
    [.addHandle 5 none, .queue .sidVdr 0 [0x47, 1, 2],
      .queue .sidControl controlPos (syncPayload blankCommand), .queue .sidVdr 3 [0x47, 3],
      .take, .transmit, .take, .transmit, .take, .transmit]
    (by
      intro scheduler next effect operation member performed
      refine ⟨performed, ?_⟩
      simp only [List.mem_cons, List.not_mem_nil, or_false] at member
      rcases member with rfl | rfl | rfl | rfl | rfl | rfl | rfl | rfl | rfl | rfl
      · exact .addHandle _ _
      · exact .media _ _
      · exact .control _
      · exact .media _ _
      all_goals first | exact .take | exact .transmit)
    (.start ⟨7, rfl⟩) rfl
  have lossless := claimed _ _ run 2048 (carried_of_checked (by decide +kernel)) ⟨1, 2⟩
  have clear := gaps_clear_of_lossless (Scheduler.sent_frames_issued run)
    (carried_of_checked (by decide +kernel)) lossless
  revert clear
  decide +kernel

end UdpInput
end Xineliboutput.Udp
