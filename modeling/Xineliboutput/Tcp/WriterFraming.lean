import Xineliboutput.Tcp.Writer

/-!
# The TCP writer keeps packets whole

The bytes put so far are cut into packets the writer is through with, the rest of
the packet it is writing, and packets that wait. Each step of any thread keeps
this cut, so what is written is always a prefix of whole packets in order, and a
packet is left out only as a whole.
-/

namespace Xineliboutput.Tcp

open Xineliboutput.Foundation Xineliboutput.StreamHeaders

set_option autoImplicit false

namespace TcpWriter

def queuedPacket? (label : Operation × Effect) : Option TcpPacket :=
  match label.2 with
  | .queued packet => some packet
  | .refused | .disconnected | .cleared | .discarded _ _ | .wrote _ _ | .unchanged => none

def queuedPackets (labels : List (Operation × Effect)) : List TcpPacket :=
  labels.filterMap queuedPacket?

def Wrote (labels : List (Operation × Effect)) (start : Nat) (bytes : List UInt8) : Prop :=
  ∃ operation, (operation, Effect.wrote start bytes) ∈ labels

def Cleared (labels : List (Operation × Effect)) : Prop :=
  ∃ operation, (operation, Effect.cleared) ∈ labels

/-- The packet of that index was put before some `Clear`. -/
def PutBeforeClear (labels : List (Operation × Effect)) (index : Nat) : Prop :=
  ∃ before after, labels = before ++ after ∧ Cleared after ∧ index < (queuedPackets before).length

/-- A position `Clear` may have left in `m_DiscardEnd`. -/
def ClearedUpTo (labels : List (Operation × Effect)) (position : Nat) : Prop :=
  position = 0 ∨ ∃ before after, labels = before ++ after ∧ Cleared after ∧
    position = (streamOf (queuedPackets before)).length

def startOf (packets : List TcpPacket) (index : Nat) : Nat :=
  (streamOf (packets.take index)).length

theorem queued_packets_snoc (labels : List (Operation × Effect)) (label : Operation × Effect) :
    queuedPackets (labels ++ [label]) = queuedPackets labels ++ (queuedPacket? label).toList := by
  cases found : queuedPacket? label with
  | none => simp [queuedPackets, found]
  | some packet => simp [queuedPackets, found]

theorem PutBeforeClear.later {labels : List (Operation × Effect)} {index : Nat}
    (before_clear : PutBeforeClear labels index) (label : Operation × Effect) :
    PutBeforeClear (labels ++ [label]) index := by
  obtain ⟨before, after, rfl, ⟨operation, cleared⟩, bound⟩ := before_clear
  exact ⟨before, after ++ [label], by simp, ⟨operation, by simp [cleared]⟩, bound⟩

theorem ClearedUpTo.later {labels : List (Operation × Effect)} {position : Nat}
    (cleared_to : ClearedUpTo labels position) (label : Operation × Effect) :
    ClearedUpTo (labels ++ [label]) position := by
  rcases cleared_to with zero | ⟨before, after, rfl, ⟨operation, cleared⟩, same⟩
  · exact .inl zero
  · exact .inr ⟨before, after ++ [label], by simp, ⟨operation, by simp [cleared]⟩, same⟩

/-- A packet that begins below a cleared position was put before the `Clear`. -/
theorem ClearedUpTo.put_before {labels : List (Operation × Effect)} {position index : Nat}
    (cleared_to : ClearedUpTo labels position)
    (below : startOf (queuedPackets labels) index < position) : PutBeforeClear labels index := by
  rcases cleared_to with zero | ⟨before, after, rfl, cleared, same⟩
  · omega
  · refine ⟨before, after, rfl, cleared, ?_⟩
    by_contra beyond
    have whole : queuedPackets (before ++ after) =
        queuedPackets before ++ queuedPackets after := by simp [queuedPackets]
    have longer : (streamOf (queuedPackets before)).length ≤
        startOf (queuedPackets (before ++ after)) index := by
      rw [startOf, whole, List.take_append, List.take_of_length_le (by omega), stream_of_append,
        List.length_append]
      omega
    omega

/-! ## The cut of the stream -/

/-- Packets passed over, each with whether it is kept, the unwritten rest of the
last of them, and the packets that wait. -/
structure Framing where
  passed : List (TcpPacket × Bool)
  current : List UInt8
  waiting : List TcpPacket

namespace Framing

def packets (framing : Framing) : List TcpPacket := framing.passed.map Prod.fst ++ framing.waiting

def kept (framing : Framing) : List TcpPacket := (framing.passed.filter Prod.snd).map Prod.fst

def front (framing : Framing) : List UInt8 := framing.current ++ streamOf framing.waiting

/-- Data shown by `Get`. -/
def Shows (framing : Framing) (data : List UInt8) : Prop :=
  data <+: framing.front ∧ data ≠ [] ∧ (framing.current = [] → tcpHeaderSize ≤ data.length)

end Framing

def ThreadShows (labels : List (Operation × Effect)) (framing : Framing) : WriterThread → Prop
  | .top | .ended => True
  | .gotten data => framing.Shows data
  | .started data startPos => framing.Shows data ∧ ClearedUpTo labels startPos

structure Framed (labels : List (Operation × Effect)) (writer : TcpWriter) (framing : Framing) :
    Prop where
  packets : queuedPackets labels = framing.packets
  putPos : writer.putPos = (streamOf framing.packets).length
  sent : ∃ sent, sent.length = writer.getPos ∧ streamOf framing.packets = sent ++ framing.front
  boundary : writer.nextHeaderPos = writer.getPos + framing.current.length
  written : writer.written ++ framing.current = streamOf framing.kept
  ring : writer.running = true → writer.ringBuffer = framing.front
  bounded : writer.putPos ≤ writer.getPos + writer.capacity
  small : writer.capacity < 2 ^ 31
  thread : ThreadShows labels framing writer.thread
  clearedTo : ClearedUpTo labels writer.discardEnd
  omitted : ∀ index packet, framing.passed[index]? = some (packet, false) →
    packet.stream = .sidVdr ∧ PutBeforeClear labels index ∧
      startOf framing.packets index + packet.size ≤ writer.getPos ∧
      ∀ start bytes, Wrote labels start bytes →
        start + bytes.length ≤ startOf framing.packets index ∨
          startOf framing.packets index + packet.size ≤ start
  wrote : ∀ start bytes, Wrote labels start bytes → start + bytes.length ≤ writer.getPos ∧
    bytes = ((streamOf framing.packets).drop start).take bytes.length

theorem new_framed (capacity : Nat) (small : capacity < 2 ^ 31) :
    Framed [] (new capacity) ⟨[], [], []⟩ where
  packets := rfl
  putPos := rfl
  sent := ⟨[], rfl, rfl⟩
  boundary := rfl
  written := rfl
  ring := fun _ => rfl
  bounded := by simp [new]
  small := small
  thread := trivial
  clearedTo := .inl rfl
  omitted := by simp
  wrote := by
    rintro start bytes ⟨operation, member⟩
    simp at member

theorem ThreadShows.later {labels : List (Operation × Effect)} {framing : Framing}
    {thread : WriterThread} (shown : ThreadShows labels framing thread)
    (label : Operation × Effect) : ThreadShows (labels ++ [label]) framing thread := by
  cases thread with
  | top => trivial
  | gotten data => exact shown
  | started data startPos => exact ⟨shown.1, shown.2.later label⟩
  | ended => trivial

variable {labels : List (Operation × Effect)} {writer : TcpWriter} {framing : Framing}

theorem Framed.later
    (framed : Framed labels writer framing) (operation : Operation) (effect : Effect)
    (no_packet : queuedPacket? (operation, effect) = none)
    (no_write : ∀ start bytes, effect ≠ .wrote start bytes) :
    Framed (labels ++ [(operation, effect)]) writer framing := by
  have same_writes (start : Nat) (bytes : List UInt8) :
      Wrote (labels ++ [(operation, effect)]) start bytes ↔ Wrote labels start bytes := by
    constructor
    · rintro ⟨other, member⟩
      rcases List.mem_append.mp member with earlier | last
      · exact ⟨other, earlier⟩
      · have same := (Prod.mk.inj (List.mem_singleton.mp last)).2
        exact absurd same.symm (no_write start bytes)
    · rintro ⟨other, member⟩
      exact ⟨other, List.mem_append_left _ member⟩
  exact {
    packets := by rw [queued_packets_snoc, no_packet, framed.packets]; simp
    putPos := framed.putPos
    sent := framed.sent
    boundary := framed.boundary
    written := framed.written
    ring := framed.ring
    bounded := framed.bounded
    small := framed.small
    thread := framed.thread.later _
    clearedTo := framed.clearedTo.later _
    omitted := by
      intro index packet found
      obtain ⟨video, before_clear, passed, apart⟩ := framed.omitted index packet found
      refine ⟨video, before_clear.later _, passed, ?_⟩
      intro start bytes wrote
      exact apart start bytes ((same_writes start bytes).mp wrote)
    wrote := by
      intro start bytes wrote
      exact framed.wrote start bytes ((same_writes start bytes).mp wrote) }

/-- The overflow counter is no part of the cut; a writer that is stopped may have
any buffer, and the thread may be anywhere it has been shown what is there. -/
theorem Framed.congr {other : TcpWriter} (framed : Framed labels writer framing)
    (putPos : other.putPos = writer.putPos) (getPos : other.getPos = writer.getPos)
    (nextHeaderPos : other.nextHeaderPos = writer.nextHeaderPos)
    (written : other.written = writer.written) (capacity : other.capacity = writer.capacity)
    (discardEnd : other.discardEnd = writer.discardEnd)
    (ring : other.running = true → other.ringBuffer = framing.front)
    (shown : ThreadShows labels framing other.thread) : Framed labels other framing where
  packets := framed.packets
  putPos := putPos ▸ framed.putPos
  sent := getPos ▸ framed.sent
  boundary := by rw [nextHeaderPos, getPos, framed.boundary]
  written := written ▸ framed.written
  ring := ring
  bounded := by
    rw [putPos, getPos, capacity]
    exact framed.bounded
  small := capacity ▸ framed.small
  thread := shown
  clearedTo := discardEnd ▸ framed.clearedTo
  omitted := getPos ▸ framed.omitted
  wrote := getPos ▸ framed.wrote

theorem Framed.move (framed : Framed labels writer framing) {thread : WriterThread}
    (shown : ThreadShows labels framing thread) :
    Framed labels { writer with thread := thread } framing :=
  framed.congr rfl rfl rfl rfl rfl rfl framed.ring shown

theorem Framed.stop (framed : Framed labels writer framing) (ringBuffer : List UInt8) :
    Framed labels { writer with ringBuffer := ringBuffer, running := false } framing :=
  framed.congr rfl rfl rfl rfl rfl rfl (by simp) framed.thread

theorem Framed.count (framed : Framed labels writer framing) (overflows : Nat) :
    Framed labels { writer with bufferOverflows := overflows } framing :=
  framed.congr rfl rfl rfl rfl rfl rfl framed.ring framed.thread

/-! ## Put and Clear -/

theorem put_stored (writer : TcpWriter) (packet : TcpPacket) (running : writer.running = true)
    (room : packet.size ≤ writer.free) :
    writer.put packet = ({ writer with
      ringBuffer := writer.ringBuffer ++ packet.bytes
      bufferOverflows := 0
      putPos := writer.putPos + packet.size }, .queued packet) := by
  have headerRoom : min writer.free packet.header.length = packet.header.length := by
    simp only [TcpPacket.header_length]
    simp only [TcpPacket.size] at room
    omega
  have payloadRoom :
      min (writer.capacity - (writer.ringBuffer.length + packet.header.length))
        packet.payload.length = packet.payload.length := by
    simp only [TcpPacket.header_length]
    simp only [TcpPacket.size, free] at room
    omega
  have whole : packet.header.length + packet.payload.length = packet.size := by
    rw [TcpPacket.header_length, TcpPacket.size]
  simp only [put, running, Bool.not_true, Bool.false_eq_true, if_false,
    if_neg (Nat.not_lt.mpr room), ringPut, headerRoom, List.take_length]
  simp only [free, List.length_append, payloadRoom, List.take_length, whole, if_true,
    TcpPacket.bytes, List.append_assoc]

theorem start_of_append (packets more : List TcpPacket) {index : Nat}
    (inside : index ≤ packets.length) :
    startOf (packets ++ more) index = startOf packets index := by
  rw [startOf, startOf, List.take_append_of_le_length inside]

theorem Framed.queue
    (framed : Framed labels writer framing) (packet : TcpPacket) (running : writer.running = true)
    (room : packet.size ≤ writer.free) :
    Framed (labels ++ [(.put packet, .queued packet)])
      { writer with
        ringBuffer := writer.ringBuffer ++ packet.bytes
        bufferOverflows := 0
        putPos := writer.putPos + packet.size }
      { framing with waiting := framing.waiting ++ [packet] } := by
  have packets : Framing.packets { framing with waiting := framing.waiting ++ [packet] } =
      framing.packets ++ [packet] := by simp [Framing.packets]
  have front : Framing.front { framing with waiting := framing.waiting ++ [packet] } =
      framing.front ++ packet.bytes := by simp [Framing.front]
  obtain ⟨sent, sentLength, stream⟩ := framed.sent
  have streamLength := congrArg List.length stream
  rw [List.length_append, sentLength, ← framed.putPos] at streamLength
  have buffer := framed.ring running
  have shows {data : List UInt8} (shown : framing.Shows data) :
      Framing.Shows { framing with waiting := framing.waiting ++ [packet] } data :=
    ⟨front ▸ shown.1.trans (List.prefix_append _ _), shown.2⟩
  have same_writes (start : Nat) (bytes : List UInt8)
      (wrote : Wrote (labels ++ [(.put packet, .queued packet)]) start bytes) :
      Wrote labels start bytes := by
    obtain ⟨operation, member⟩ := wrote
    exact ⟨operation, by simpa using member⟩
  exact {
    packets := by rw [queued_packets_snoc, framed.packets, packets]; rfl
    putPos := by
      rw [packets, stream_of_append, List.length_append, ← framed.putPos]
      simp
    sent := ⟨sent, sentLength, by rw [packets, front, stream_of_append, stream]; simp⟩
    boundary := framed.boundary
    written := framed.written
    ring := by
      intro _
      rw [front, ← buffer]
    bounded := by
      have bufferLength := congrArg List.length buffer
      simp only [free] at room
      have some_size := packet.size_pos
      show writer.putPos + packet.size ≤ writer.getPos + writer.capacity
      omega
    small := framed.small
    thread := by
      have shown := framed.thread
      show ThreadShows _ _ writer.thread
      cases at_ : writer.thread with
      | top => trivial
      | gotten data =>
          rw [at_] at shown
          exact shows shown
      | started data startPos =>
          rw [at_] at shown
          exact ⟨shows shown.1, shown.2.later _⟩
      | ended => trivial
    clearedTo := framed.clearedTo.later _
    omitted := by
      intro index other found
      obtain ⟨video, before_clear, passed, apart⟩ := framed.omitted index other found
      have inside : index < framing.passed.length := (List.getElem?_eq_some_iff.mp found).1
      have place : startOf (framing.packets ++ [packet]) index = startOf framing.packets index := by
        apply start_of_append
        simp only [Framing.packets, List.length_append, List.length_map]
        omega
      rw [packets, place]
      exact ⟨video, before_clear.later _, passed,
        fun start bytes wrote => apart start bytes (same_writes start bytes wrote)⟩
    wrote := by
      intro start bytes wrote
      obtain ⟨below, shown⟩ := framed.wrote start bytes (same_writes start bytes wrote)
      refine ⟨below, ?_⟩
      rw [packets, stream_of_append, List.drop_append_of_le_length, List.take_append_of_le_length]
      · exact shown
      · rw [List.length_drop, ← framed.putPos]
        omega
      · rw [← framed.putPos]
        omega }

theorem Framed.clear (framed : Framed labels writer framing) :
    Framed (labels ++ [(.clear, .cleared)]) { writer with discardEnd := writer.putPos } framing := by
  have after := framed.later .clear .cleared rfl (by simp)
  exact {
    packets := after.packets
    putPos := after.putPos
    sent := after.sent
    boundary := after.boundary
    written := after.written
    ring := after.ring
    bounded := after.bounded
    small := after.small
    thread := after.thread
    clearedTo := by
      refine .inr ⟨labels, [(.clear, .cleared)], rfl, ⟨.clear, by simp⟩, ?_⟩
      rw [framed.packets]
      exact framed.putPos
    omitted := after.omitted
    wrote := after.wrote }

/-! ## The writing thread -/

theorem Framed.position (framed : Framed labels writer framing) :
    (streamOf (framing.passed.map Prod.fst)).length = writer.getPos + framing.current.length ∧
      writer.putPos = writer.getPos + framing.front.length := by
  obtain ⟨sent, sentLength, stream⟩ := framed.sent
  have length := congrArg List.length stream
  simp only [Framing.packets, Framing.front, stream_of_append, List.length_append] at length
  have total := framed.putPos
  simp only [Framing.packets, stream_of_append, List.length_append] at total
  simp only [Framing.front, List.length_append]
  omega

/-- At a packet boundary the data shown begins with the header of the next packet. -/
theorem Framing.Shows.front_packet {data : List UInt8}
    (shown : framing.Shows data) (atBoundary : framing.current = []) :
    ∃ packet rest behind, framing.waiting = packet :: rest ∧ data = packet.header ++ behind := by
  obtain ⟨isPrefix, nonempty, header⟩ := shown
  rw [Framing.front, atBoundary, List.nil_append] at isPrefix
  cases waiting : framing.waiting with
  | nil =>
      rw [waiting, stream_of_nil, List.prefix_nil] at isPrefix
      exact absurd isPrefix nonempty
  | cons packet rest =>
      have long := header atBoundary
      rw [waiting, stream_of_cons, TcpPacket.bytes, List.append_assoc] at isPrefix
      refine ⟨packet, rest, (packet.payload ++ streamOf rest).take (data.length - tcpHeaderSize),
        rfl, ?_⟩
      have whole := List.prefix_iff_eq_take.mp isPrefix
      rw [List.take_append, TcpPacket.header_length,
        List.take_of_length_le (by rw [TcpPacket.header_length]; exact long)] at whole
      exact whole

theorem Framed.packet_length (framed : Framed labels writer framing) {packet : TcpPacket}
    {rest : List TcpPacket} (waiting : framing.waiting = packet :: rest) (behind : List UInt8) :
    packetLength (packet.header ++ behind) = packet.size ∧ packet.size < 2 ^ 31 := by
  have total := framed.position.2
  have bounded := framed.bounded
  have small := framed.small
  rw [Framing.front, waiting, stream_of_cons, List.length_append, List.length_append,
    TcpPacket.bytes_length] at total
  have fits : packet.size < 2 ^ 31 := by omega
  have payloadFits : packet.payload.length < 2 ^ 32 := by
    simp only [TcpPacket.size] at fits
    omega
  refine ⟨?_, fits⟩
  rw [packetLength, header_len_read packet behind payloadFits, Nat.add_comm, Nat.mod_eq_of_lt]
  · exact to_int_small fits
  · simp only [TcpPacket.size] at fits
    omega

/-- At a boundary a whole data packet put before a `Clear` may be passed over. -/
theorem Framed.drop
    (framed : Framed labels writer framing) (operation : Operation) {packet : TcpPacket}
    {rest : List TcpPacket} (waiting : framing.waiting = packet :: rest)
    (atBoundary : framing.current = []) (video : packet.stream = .sidVdr) {startPos : Nat}
    (clearedTo : ClearedUpTo labels startPos) (ahead : writer.getPos < startPos) :
    Framed (labels ++ [(operation, .discarded writer.getPos packet.size)])
      { writer with
        ringBuffer := writer.ringBuffer.drop packet.size
        getPos := writer.getPos + packet.size
        nextHeaderPos := writer.getPos + packet.size
        thread := .top }
      ⟨framing.passed ++ [(packet, false)], [], rest⟩ := by
  have after := framed.later operation (.discarded writer.getPos packet.size) rfl (by simp)
  have samePackets :
      Framing.packets ⟨framing.passed ++ [(packet, false)], [], rest⟩ = framing.packets := by
    simp [Framing.packets, waiting]
  have front : framing.front = packet.bytes ++ streamOf rest := by
    rw [Framing.front, atBoundary, waiting]
    rfl
  have here : startOf framing.packets framing.passed.length = writer.getPos := by
    have position := framed.position.1
    rw [atBoundary, List.length_nil, Nat.add_zero] at position
    rw [← position, startOf, Framing.packets, List.take_left' (by simp)]
  obtain ⟨sent, sentLength, stream⟩ := framed.sent
  exact {
    packets := by rw [samePackets]; exact after.packets
    putPos := by rw [samePackets]; exact after.putPos
    sent := by
      refine ⟨sent ++ packet.bytes, by simp [sentLength], ?_⟩
      rw [samePackets, stream, front]
      simp [Framing.front]
    boundary := rfl
    written := by
      have written := framed.written
      rw [atBoundary] at written
      simpa [Framing.kept] using written
    ring := by
      intro running
      show writer.ringBuffer.drop packet.size = _
      rw [framed.ring running, front, List.drop_left' (TcpPacket.bytes_length packet)]
      rfl
    bounded := by
      have bounded := framed.bounded
      show writer.putPos ≤ writer.getPos + packet.size + writer.capacity
      omega
    small := framed.small
    thread := trivial
    clearedTo := after.clearedTo
    omitted := by
      intro index other found
      rw [samePackets]
      by_cases earlier : index < framing.passed.length
      · rw [List.getElem?_append_left earlier] at found
        obtain ⟨otherVideo, before_clear, passed, apart⟩ := after.omitted index other found
        exact ⟨otherVideo, before_clear, Nat.le_add_right_of_le passed, apart⟩
      · rw [List.getElem?_append_right (Nat.le_of_not_lt earlier),
          List.getElem?_singleton] at found
        split at found
        · rename_i last
          obtain ⟨rfl, -⟩ := Prod.mk.inj (Option.some.inj found)
          obtain rfl : index = framing.passed.length := by omega
          rw [here]
          refine ⟨video, ?_, Nat.le_refl _, ?_⟩
          · apply ClearedUpTo.put_before (clearedTo.later _)
            rw [after.packets, here]
            exact ahead
          · intro start bytes wrote
            exact .inl (after.wrote start bytes wrote).1
        · simp at found
    wrote := by
      intro start bytes wrote
      obtain ⟨below, shown⟩ := after.wrote start bytes wrote
      rw [samePackets]
      exact ⟨Nat.le_add_right_of_le below, shown⟩ }

theorem Framed.commit
    (framed : Framed labels writer framing) {packet : TcpPacket} {rest : List TcpPacket}
    (waiting : framing.waiting = packet :: rest) (atBoundary : framing.current = []) :
    Framed labels
      { writer with nextHeaderPos := writer.getPos + packet.size, thread := .top }
      ⟨framing.passed ++ [(packet, true)], packet.bytes, rest⟩ := by
  have samePackets :
      Framing.packets ⟨framing.passed ++ [(packet, true)], packet.bytes, rest⟩ =
        framing.packets := by
    simp [Framing.packets, waiting]
  have sameFront : Framing.front ⟨framing.passed ++ [(packet, true)], packet.bytes, rest⟩ =
      framing.front := by
    simp [Framing.front, atBoundary, waiting]
  exact {
    packets := by rw [samePackets]; exact framed.packets
    putPos := by rw [samePackets]; exact framed.putPos
    sent := by rw [samePackets, sameFront]; exact framed.sent
    boundary := by simp
    written := by
      have written := framed.written
      rw [atBoundary, List.append_nil] at written
      simp only [Framing.kept] at written ⊢
      rw [written]
      simp
    ring := by rw [sameFront]; exact framed.ring
    bounded := framed.bounded
    small := framed.small
    thread := trivial
    clearedTo := framed.clearedTo
    omitted := by
      intro index other found
      rw [samePackets]
      by_cases earlier : index < framing.passed.length
      · rw [List.getElem?_append_left earlier] at found
        exact framed.omitted index other found
      · rw [List.getElem?_append_right (Nat.le_of_not_lt earlier),
          List.getElem?_singleton] at found
        split at found <;> simp at found
    wrote := by rw [samePackets]; exact framed.wrote }

theorem Framed.write (framed : Framed labels writer framing) (operation : Operation) (count : Nat)
    (inside : count ≤ framing.current.length) :
    Framed (labels ++ [(operation, .wrote writer.getPos (framing.current.take count))])
      { writer with
        ringBuffer := writer.ringBuffer.drop count
        getPos := writer.getPos + count
        written := writer.written ++ framing.current.take count
        thread := .top }
      { framing with current := framing.current.drop count } := by
  have taken : (framing.current.take count).length = count := by
    rw [List.length_take]
    omega
  obtain ⟨sent, sentLength, stream⟩ := framed.sent
  have written_here : framing.current.take count =
      ((streamOf framing.packets).drop writer.getPos).take count := by
    rw [stream, List.drop_left' sentLength, Framing.front,
      List.take_append_of_le_length inside]
  have split_writes (start : Nat) (bytes : List UInt8)
      (wrote : Wrote (labels ++
        [(operation, .wrote writer.getPos (framing.current.take count))]) start bytes) :
      Wrote labels start bytes ∨
        (start = writer.getPos ∧ bytes = framing.current.take count) := by
    obtain ⟨other, member⟩ := wrote
    rcases List.mem_append.mp member with earlier | last
    · exact .inl ⟨other, earlier⟩
    · have same := (Prod.mk.inj (List.mem_singleton.mp last)).2
      exact .inr (by simpa using same)
  exact {
    packets := by
      rw [queued_packets_snoc, framed.packets]
      exact List.append_nil _
    putPos := framed.putPos
    sent := by
      refine ⟨sent ++ framing.current.take count, ?_, ?_⟩
      · rw [List.length_append, taken, sentLength]
      · show streamOf framing.packets = _
        rw [stream, Framing.front, Framing.front, List.append_assoc,
          ← List.append_assoc (framing.current.take count), List.take_append_drop]
    boundary := by
      have boundary := framed.boundary
      simp only [List.length_drop]
      omega
    written := by
      show writer.written ++ framing.current.take count ++ framing.current.drop count = _
      rw [List.append_assoc, List.take_append_drop]
      exact framed.written
    ring := by
      intro running
      show writer.ringBuffer.drop count = _
      rw [framed.ring running, Framing.front, List.drop_append_of_le_length inside]
      rfl
    bounded := by
      have bounded := framed.bounded
      show writer.putPos ≤ writer.getPos + count + writer.capacity
      omega
    small := framed.small
    thread := trivial
    clearedTo := framed.clearedTo.later _
    omitted := by
      intro index packet found
      obtain ⟨video, before_clear, passed, apart⟩ := framed.omitted index packet found
      refine ⟨video, before_clear.later _, Nat.le_add_right_of_le passed, ?_⟩
      intro start bytes wrote
      rcases split_writes start bytes wrote with earlier | ⟨rfl, -⟩
      · exact apart start bytes earlier
      · exact .inr passed
    wrote := by
      intro start bytes wrote
      rcases split_writes start bytes wrote with earlier | ⟨rfl, rfl⟩
      · obtain ⟨below, shown⟩ := framed.wrote start bytes earlier
        exact ⟨Nat.le_add_right_of_le below, shown⟩
      · rw [taken]
        exact ⟨Nat.le_refl _, written_here⟩ }

theorem Framed.boundary_iff (framed : Framed labels writer framing) :
    writer.nextHeaderPos = writer.getPos ↔ framing.current = [] := by
  rw [framed.boundary, ← List.length_eq_zero_iff]
  omega

theorem take_of_start {data whole : List UInt8} (isPrefix : data <+: whole) {count : Nat}
    (bound : count ≤ data.length) : data.take count = whole.take count := by
  obtain ⟨rest, rfl⟩ := isPrefix
  rw [List.take_append_of_le_length bound]

/-- Where nothing is dropped, the bytes offered to `write` are the first ones of
the packet that is being written from here on. -/
theorem Framed.write_range (framed : Framed labels writer framing) {data : List UInt8}
    (shown : framing.Shows data) (startPos : Nat) :
    ∃ next, Framed labels
        { writer with nextHeaderPos := (writer.writeRange data startPos).2, thread := .top } next ∧
      ∀ count : Nat, (count : Int) ≤ (writer.writeRange data startPos).1 →
        count ≤ next.current.length ∧ data.take count = next.current.take count := by
  by_cases atBoundary : framing.current = []
  · obtain ⟨packet, rest, behind, waiting, layout⟩ := shown.front_packet atBoundary
    obtain ⟨length, -⟩ := framed.packet_length waiting behind
    rw [← layout] at length
    have sameHeader := framed.boundary_iff.mpr atBoundary
    refine ⟨⟨framing.passed ++ [(packet, true)], packet.bytes, rest⟩, ?_, ?_⟩
    · have committed := framed.commit waiting atBoundary
      have place : (writer.writeRange data startPos).2 = writer.getPos + packet.size := by
        rw [writeRange, if_pos sameHeader, length]
        exact Int.toNat_natCast _
      rw [place]
      exact committed
    · intro count bound
      rw [writeRange, if_pos sameHeader, length] at bound
      have inPacket : count ≤ packet.size := by
        have least := Int.le_trans bound (Int.min_le_right _ _)
        omega
      have inData : count ≤ data.length := by
        have least := Int.le_trans bound (Int.min_le_left _ _)
        split at least
        · have shorter := Int.le_trans least (Int.min_le_left _ _)
          omega
        · omega
      have front : framing.front = packet.bytes ++ streamOf rest := by
        rw [Framing.front, atBoundary, waiting]
        rfl
      refine ⟨by simpa using inPacket, ?_⟩
      rw [take_of_start shown.1 inData, front,
        List.take_append_of_le_length (by simpa using inPacket)]
  · have otherHeader := fun same => atBoundary (framed.boundary_iff.mp same)
    refine ⟨framing, ?_, ?_⟩
    · have place : (writer.writeRange data startPos).2 = writer.nextHeaderPos := by
        rw [writeRange, if_neg otherHeader]
      rw [place]
      exact framed.move trivial
    · intro count bound
      have total := framed.position.2
      have bounded := framed.bounded
      have small := framed.small
      have boundary := framed.boundary
      simp only [Framing.front, List.length_append] at total
      have left : toInt (writer.nextHeaderPos - writer.getPos) = framing.current.length := by
        rw [to_int_small (by omega)]
        omega
      rw [writeRange, if_neg otherHeader, left] at bound
      have inCurrent : count ≤ framing.current.length := by
        have least := Int.le_trans bound (Int.min_le_right _ _)
        omega
      have inData : count ≤ data.length := by
        have least := Int.le_trans bound (Int.min_le_left _ _)
        omega
      refine ⟨inCurrent, ?_⟩
      rw [take_of_start shown.1 inData, Framing.front,
        List.take_append_of_le_length inCurrent]

theorem stopped_eq (writer : TcpWriter) (stopped : writer.running = false) (thread : WriterThread) :
    { writer with ringBuffer := [], thread := thread } =
      { writer with ringBuffer := [], running := false, thread := thread } := by
  rw [← stopped]

/-! One lemma for each operation that does more than one thing. -/

theorem put_framed {packet : TcpPacket} {next : TcpWriter} {effect : Effect}
    (framed : Framed labels writer framing) (performed : writer.put packet = (next, effect)) :
    ∃ after, Framed (labels ++ [(.put packet, effect)]) next after := by
  cases running : writer.running with
  | false =>
      simp only [put, running, Bool.not_false, if_true, Prod.mk.injEq] at performed
      obtain ⟨rfl, rfl⟩ := performed
      exact ⟨framing, framed.later _ _ rfl (by simp)⟩
  | true =>
      by_cases room : packet.size ≤ writer.free
      · rw [put_stored writer packet running room, Prod.mk.injEq] at performed
        obtain ⟨rfl, rfl⟩ := performed
        exact ⟨_, framed.queue packet running room⟩
      · rw [put, if_neg (by simp [running]), if_pos (Nat.lt_of_not_le room)] at performed
        split at performed
        · obtain ⟨rfl, rfl⟩ := Prod.mk.inj performed
          exact ⟨framing, ((framed.later _ .disconnected rfl (by simp)).count _).stop []⟩
        · obtain ⟨rfl, rfl⟩ := Prod.mk.inj performed
          exact ⟨framing, (framed.later _ .refused rfl (by simp)).count _⟩

theorem get_framed {count : Nat} {next : TcpWriter} {effect : Effect}
    (framed : Framed labels writer framing)
    (performed : writer.perform (.get count) = some (next, effect)) :
    Framed (labels ++ [(.get count, effect)]) next framing := by
  simp only [perform] at performed
  split at performed
  · split at performed
    · rename_i ready
      obtain ⟨running, nonempty, inside, header⟩ := ready
      simp only [Option.some.injEq, Prod.mk.injEq] at performed
      obtain ⟨rfl, rfl⟩ := performed
      have length : (writer.ringBuffer.take count).length = count := by
        rw [List.length_take]
        omega
      refine (framed.later _ _ rfl (by simp)).move ⟨?_, ?_, ?_⟩
      · rw [framed.ring running]
        exact List.take_prefix _ _
      · intro empty
        rw [empty, List.length_nil] at length
        omega
      · intro atBoundary
        rw [length]
        exact header (framed.boundary_iff.mpr atBoundary)
    · simp at performed
  all_goals simp at performed

theorem drop_framed {answer : WriteAnswer} {data : List UInt8} {startPos : Nat}
    (framed : Framed labels writer framing) (shown : framing.Shows data)
    (clearedTo : ClearedUpTo labels startPos) (dropping : writer.drops data startPos = true) :
    ∃ after, Framed (labels ++ [(.act answer, .discarded writer.getPos (packetLength data).toNat)])
      { writer with
        ringBuffer := writer.ringBuffer.drop (packetLength data).toNat
        getPos := writer.getPos + (packetLength data).toNat
        nextHeaderPos := writer.getPos + (packetLength data).toNat
        thread := .top } after := by
  simp only [drops, Bool.decide_and, Bool.and_eq_true, decide_eq_true_eq] at dropping
  obtain ⟨sameHeader, ahead, video, -⟩ := dropping
  have atBoundary := framed.boundary_iff.mp sameHeader
  obtain ⟨packet, rest, behind, waiting, layout⟩ := shown.front_packet atBoundary
  obtain ⟨length, -⟩ := framed.packet_length waiting behind
  rw [layout, header_stream_read] at video
  rw [layout, length, Int.toNat_natCast]
  exact ⟨_, framed.drop _ waiting atBoundary ((stream_byte_zero_iff _).mp video) clearedTo ahead⟩

theorem act_framed {answer : WriteAnswer} {next : TcpWriter} {effect : Effect}
    (framed : Framed labels writer framing)
    (performed : writer.perform (.act answer) = some (next, effect)) :
    ∃ after, Framed (labels ++ [(.act answer, effect)]) next after := by
  simp only [perform] at performed
  split at performed
  · rename_i data startPos at_
    have started := framed.thread
    rw [at_] at started
    obtain ⟨shown, clearedTo⟩ := started
    split at performed
    · rename_i dropping
      simp only [Option.some.injEq, Prod.mk.injEq] at performed
      obtain ⟨rfl, rfl⟩ := performed
      exact drop_framed framed shown clearedTo dropping
    · obtain ⟨after, committed, offered⟩ := framed.write_range shown startPos
      cases answer with
      | accepted n =>
          simp only at performed
          split at performed
          · rename_i some_bytes
            obtain ⟨inside, same⟩ := offered n some_bytes.2
            simp only [Option.some.injEq, Prod.mk.injEq] at performed
            obtain ⟨rfl, rfl⟩ := performed
            rw [same]
            exact ⟨_, committed.write (.act (.accepted n)) n inside⟩
          · simp at performed
      | interrupted =>
          simp only [Option.some.injEq, Prod.mk.injEq] at performed
          obtain ⟨rfl, rfl⟩ := performed
          exact ⟨after, committed.later _ _ rfl (by simp)⟩
      | failed =>
          simp only [Option.some.injEq, Prod.mk.injEq] at performed
          obtain ⟨rfl, rfl⟩ := performed
          exact ⟨after, ((committed.later _ _ rfl (by simp)).stop []).move trivial⟩
  all_goals simp at performed

theorem perform_framed {next : TcpWriter} {operation : Operation} {effect : Effect}
    (framed : Framed labels writer framing)
    (performed : writer.perform operation = some (next, effect)) :
    ∃ after, Framed (labels ++ [(operation, effect)]) next after := by
  cases operation with
  | put packet => exact put_framed framed (Option.some.inj performed)
  | clear =>
      simp only [perform, Option.some.injEq, Prod.mk.injEq] at performed
      obtain ⟨rfl, rfl⟩ := performed
      exact ⟨framing, framed.clear⟩
  | cancel =>
      simp only [perform, Option.some.injEq, Prod.mk.injEq] at performed
      obtain ⟨rfl, rfl⟩ := performed
      exact ⟨framing, (framed.later _ _ rfl (by simp)).stop writer.ringBuffer⟩
  | get count => exact ⟨framing, get_framed framed performed⟩
  | start =>
      simp only [perform] at performed
      split at performed
      · rename_i data at_
        simp only [Option.some.injEq, Prod.mk.injEq] at performed
        obtain ⟨rfl, rfl⟩ := performed
        have shown := framed.thread
        rw [at_] at shown
        have later := framed.later .start .unchanged rfl (by simp)
        exact ⟨framing, later.move ⟨shown, later.clearedTo⟩⟩
      all_goals simp at performed
  | act answer => exact act_framed framed performed
  | leave =>
      simp only [perform] at performed
      split at performed
      · split at performed
        · simp at performed
        · rename_i stopped
          simp only [Option.some.injEq, Prod.mk.injEq] at performed
          obtain ⟨rfl, rfl⟩ := performed
          rw [stopped_eq writer (by simpa using stopped)]
          exact ⟨framing, ((framed.later _ _ rfl (by simp)).stop []).move trivial⟩
      all_goals simp at performed

theorem run_framed (run : machine.Run labels writer) : ∃ framing, Framed labels writer framing := by
  refine run.invariant (fun labels writer => ∃ framing, Framed labels writer framing) ?_ ?_
  · rintro writer ⟨capacity, small, rfl⟩
    exact ⟨_, new_framed capacity small⟩
  · rintro labels writer ⟨operation, effect⟩ next ⟨framing, framed⟩ performed
    exact perform_framed framed performed

/-- What has been written is a prefix of whole packets, which are those put into
the buffer but for data packets put before some `Clear` of which no byte is
written. -/
theorem only_whole_packets {labels : List (Operation × Effect)} {writer : TcpWriter}
    (run : machine.Run labels writer) :
    ∃ fate : List (TcpPacket × Bool), fate.map Prod.fst = queuedPackets labels ∧
      writer.written <+: streamOf ((fate.filter Prod.snd).map Prod.fst) ∧
      (∀ start bytes, Wrote labels start bytes →
        bytes = ((streamOf (queuedPackets labels)).drop start).take bytes.length) ∧
      ∀ index packet, fate[index]? = some (packet, false) →
        packet.stream = .sidVdr ∧ PutBeforeClear labels index ∧
        ∀ start bytes, Wrote labels start bytes →
          start + bytes.length ≤ startOf (queuedPackets labels) index ∨
            startOf (queuedPackets labels) index + packet.size ≤ start := by
  obtain ⟨framing, framed⟩ := run_framed run
  refine ⟨framing.passed ++ framing.waiting.map (·, true), ?_, ?_, ?_, ?_⟩
  · rw [framed.packets, Framing.packets, List.map_append, List.map_map]
    congr 1
    exact List.map_id' _
  · have written := framed.written
    have all_waiting : ((framing.passed ++ framing.waiting.map (·, true)).filter Prod.snd).map
        Prod.fst = framing.kept ++ framing.waiting := by
      simp [Framing.kept, List.filter_map, Function.comp_def]
    rw [all_waiting, stream_of_append, ← written, List.append_assoc]
    exact List.prefix_append _ _
  · intro start bytes wrote
    rw [framed.packets]
    exact (framed.wrote start bytes wrote).2
  · intro index packet found
    by_cases inside : index < framing.passed.length
    · rw [List.getElem?_append_left inside] at found
      obtain ⟨video, before_clear, -, apart⟩ := framed.omitted index packet found
      rw [framed.packets]
      exact ⟨video, before_clear, apart⟩
    · rw [List.getElem?_append_right (Nat.le_of_not_lt inside)] at found
      simp at found

theorem only_whole_packets_after_clear :
    ∃ labels writer, machine.Run labels writer ∧ writer.written.length = 5 ∧
      ∃ fate : List (TcpPacket × Bool), fate.map Prod.fst = queuedPackets labels ∧
        writer.written <+: streamOf ((fate.filter Prod.snd).map Prod.fst) := by
  have run := Machine.Run.drive machine
    [.put ⟨.sidVdr, 0, [0x47, 1, 2]⟩, .put ⟨.sidControl, controlPos, [0x42, 0x0d, 0x0a, 0]⟩, .clear,
      .get 20, .start, .act .interrupted, .get 15, .start, .act (.accepted 5)]
    (fun _ _ _ _ _ performed => performed) (.start ⟨1000, by decide, rfl⟩) rfl
  obtain ⟨fate, packets, written, -⟩ := only_whole_packets run
  exact ⟨_, _, run, by decide, fate, packets, written⟩

end TcpWriter
end Xineliboutput.Tcp
