import Xineliboutput.Udp.Receiver

/-!
# The counter of the receiving queue

`queued` is kept apart from the array it counts. It is right between any two
rounds, and so the loops that look for an occupied slot find one within 256
steps. What `udp_process_queue` does is broken into moves, from which the
invariants of the queue are derived.
-/

namespace Xineliboutput.Udp

open Xineliboutput.Foundation Xineliboutput.StreamHeaders

set_option autoImplicit false

theorem iterate_next_seq {seq : Nat} (bound : seq < 256) (distance : Nat) :
    nextSeqOf^[distance] seq = (seq + distance) % 256 := by
  induction distance with
  | zero => simp [Nat.mod_eq_of_lt bound]
  | succ distance ih =>
      rw [Function.iterate_succ_apply', ih]
      simp only [nextSeqOf]
      omega

theorem add_seq_offset {seq next : Nat} (seqBound : seq < 256) (nextBound : next < 256) :
    addSeq seq (-next) = (seq + 256 - next) % 256 := by
  simp only [addSeq, udpSeqMask]
  omega

namespace UdpData

/-- The counter is the number of occupied slots, and the two sequence numbers are
indices of the array. -/
structure Counted (udp : UdpData) : Prop where
  queued : udp.queued = udp.queue.occupied
  nextBound : udp.nextSeq < 256
  currentBound : udp.currentSeq < 256

theorem Counted.queued_le {udp : UdpData} (counted : udp.Counted) : udp.queued ≤ 256 := by
  rw [counted.queued]
  exact udp.queue.occupied_le

theorem Counted.queued_pos {udp : UdpData} (counted : udp.Counted) {number : Nat}
    {packet : Packet} (found : udp.queue.get number = some packet) : 0 < udp.queued := by
  rw [counted.queued]
  exact udp.queue.occupied_pos_of_get found

theorem Counted.head {udp : UdpData} (counted : udp.Counted) :
    udp.head = udp.queue.get udp.nextSeq := by
  by_cases held : 0 < udp.queued
  · rw [UdpData.head, if_pos held]
  · have vacant : udp.queue.occupied = 0 := by
      rw [← counted.queued]
      omega
    rw [UdpData.head, if_neg held, (udp.queue.occupied_eq_zero_iff).mp vacant]

theorem counted_init (serverAddress : Address) : (initUdpData serverAddress).Counted where
  queued := CyclicSlots.occupied_vacant.symm
  nextBound := by simp [initUdpData]
  currentBound := by simp [initUdpData]

theorem Counted.expect {udp : UdpData} (counted : udp.Counted) {number : Nat}
    (small : number < 256) : ({ udp with nextSeq := number } : UdpData).Counted where
  queued := counted.queued
  nextBound := small
  currentBound := counted.currentBound

/-! ## The skip loops -/

/-- The first occupied slot from the expected one on. -/
structure FirstHeld (udp : UdpData) (distance : Nat) : Prop where
  near : distance < 256
  vacant : ∀ earlier, earlier < distance → udp.queue.get (udp.nextSeq + earlier) = none
  held : (udp.queue.get (udp.nextSeq + distance)).isSome

/-- A skip loop that is entered with a packet in the queue stops at the first
occupied slot, fewer than 256 steps on. -/
theorem skip_missing_stops {udp : UdpData} (nextBound : udp.nextSeq < 256)
    (held : 0 < udp.queue.occupied) :
    ∃ distance, udp.FirstHeld distance ∧
      udp.skipMissing = some { udp with nextSeq := (udp.nextSeq + distance) % 256 } := by
  obtain ⟨reach, near, found⟩ := udp.queue.exists_occupied_from udp.nextSeq held
  have stops : (udp.queue.get (nextSeqOf^[reach] udp.nextSeq)).isNone = false := by
    rw [iterate_next_seq nextBound, CyclicSlots.get_mod]
    simpa using found
  obtain ⟨distance, before, stopped, atStop, passed⟩ :=
    while_within_stops (fun seq => (udp.queue.get seq).isNone) nextSeqOf
      (Nat.le_of_lt near) stops
  rw [iterate_next_seq nextBound] at stopped
  simp only [iterate_next_seq nextBound, CyclicSlots.get_mod] at atStop passed
  refine ⟨distance, ⟨by omega, ?_, ?_⟩, ?_⟩
  · intro earlier lower
    simpa using passed earlier lower
  · simpa using atStop
  · rw [skipMissing, stopped, Option.map_some]

/-! ## Moves of the queue -/

/-- What the window test at the entry of `udp_process_queue` leaves. -/
inductive WindowKept (udp : UdpData) : UdpData → Prop where
  | inside (few : udp.queued ≤ 64) : WindowKept udp udp
  | exceeded (many : 64 < udp.queued) (distance : Nat) (first : udp.FirstHeld distance) :
      WindowKept udp { udp with
        nextSeq := (udp.nextSeq + distance) % 256
        resendRequested := 0 }

/-- The single actions of `udp_process_queue` behind the window test. -/
inductive QueueMove (udp : UdpData) : List Event → UdpData → Prop where
  | skip (distance : Nat) (isPadding : udp.isPadding = true) (first : udp.FirstHeld distance) :
      QueueMove udp [] { udp with nextSeq := (udp.nextSeq + distance) % 256 }
  | pass (packet : Packet) (found : udp.queue.get udp.nextSeq = some packet)
      (empty : packet.payload = []) :
      QueueMove udp [.freed packet] (udp.takeNext packet)
  | deliver (packet : Packet) (found : udp.queue.get udp.nextSeq = some packet)
      (filled : packet.payload ≠ []) :
      QueueMove udp [.delivered packet] (udp.takeNext packet)

def queueMachine (start : UdpData) : Machine UdpData (List Event) where
  initial udp := udp = start
  step := QueueMove

theorem Counted.take_next {udp : UdpData} (counted : udp.Counted) {packet : Packet}
    (found : udp.queue.get udp.nextSeq = some packet) : (udp.takeNext packet).Counted := by
  have removed := udp.queue.occupied_put_none udp.nextSeq found
  have limit := counted.queued_le
  have count := counted.queued
  constructor
  · simp only [takeNext]
    omega
  · exact Nat.mod_lt _ (by decide)
  · exact counted.currentBound

theorem Counted.take_next_queued {udp : UdpData} (counted : udp.Counted) {packet : Packet}
    (found : udp.queue.get udp.nextSeq = some packet) :
    (udp.takeNext packet).queued + 1 = udp.queued := by
  have held := counted.queued_pos found
  have limit := counted.queued_le
  simp only [takeNext]
  omega

theorem Counted.move {udp next : UdpData} {events : List Event} (counted : udp.Counted)
    (move : udp.QueueMove events next) : next.Counted := by
  cases move with
  | skip distance isPadding first =>
      exact ⟨counted.queued, Nat.mod_lt _ (by decide), counted.currentBound⟩
  | pass packet found empty => exact counted.take_next found
  | deliver packet found filled => exact counted.take_next found

theorem queue_run_invariant {start udp : UdpData} {labels : List (List Event)}
    (Invariant : List (List Event) → UdpData → Prop) (initially : Invariant [] start)
    (preserved : ∀ labels udp events next, Invariant labels udp → udp.QueueMove events next →
      Invariant (labels ++ [events]) next)
    (run : (queueMachine start).Run labels udp) : Invariant labels udp := by
  apply run.invariant Invariant
  · intro udp begins
    obtain rfl : udp = start := begins
    exact initially
  · exact preserved

theorem queue_run_counted {start udp : UdpData} {labels : List (List Event)}
    (counted : start.Counted) (run : (queueMachine start).Run labels udp) : udp.Counted := by
  apply queue_run_invariant (fun _ udp => udp.Counted) counted _ run
  intro _ _ _ _ before move
  exact before.move move

theorem queue_run_trans {start middle final : UdpData} {labels more : List (List Event)}
    (first : (queueMachine start).Run labels middle)
    (second : (queueMachine middle).Run more final) :
    (queueMachine start).Run (labels ++ more) final := by
  induction second with
  | start begins =>
      obtain rfl := begins
      simpa using first
  | snoc prior move ih =>
      rw [← List.append_assoc]
      exact ih.snoc move

theorem queue_run_single {udp next : UdpData} {events : List Event}
    (move : udp.QueueMove events next) : (queueMachine udp).Run [events] next :=
  Machine.Run.snoc (.start rfl) move

def Flushed (udp : UdpData) : Prop :=
  udp.isPadding = true → 0 < udp.queued → (udp.queue.get udp.nextSeq).isSome

theorem flush_padding_moves {udp : UdpData} (counted : udp.Counted) :
    ∃ flushed labels, udp.flushPadding = some flushed ∧
      (queueMachine udp).Run labels flushed ∧ labels.flatten = [] ∧
      flushed.Flushed ∧ flushed.queued = udp.queued := by
  by_cases enters : udp.isPadding = true ∧ 0 < udp.queued
  · obtain ⟨isPadding, held⟩ := enters
    have occupied := held
    rw [counted.queued] at occupied
    obtain ⟨distance, first, skipped⟩ := skip_missing_stops counted.nextBound occupied
    refine ⟨_, [[]], ?_, queue_run_single (.skip distance isPadding first), rfl, ?_, rfl⟩
    · rw [flushPadding, if_pos (by simp [isPadding, held]), skipped]
    · intro _ _
      simpa using first.held
  · refine ⟨udp, [], ?_, .start rfl, rfl, ?_, rfl⟩
    · rw [flushPadding, if_neg (by simpa using enters)]
    · intro isPadding held
      exact absurd ⟨isPadding, held⟩ enters

theorem Counted.keep_window {udp : UdpData} (counted : udp.Counted) :
    ∃ windowed, udp.keepWindow = some windowed ∧ udp.WindowKept windowed ∧ windowed.Counted := by
  by_cases many : 64 < udp.queued
  · have occupied : 0 < udp.queue.occupied := by
      rw [← counted.queued]
      omega
    obtain ⟨distance, first, skipped⟩ := skip_missing_stops counted.nextBound occupied
    refine ⟨_, ?_, .exceeded many distance first, counted.queued, Nat.mod_lt _ (by decide),
      counted.currentBound⟩
    rw [keepWindow, if_pos many, skipped, Option.map_some]
  · refine ⟨udp, ?_, .inside (Nat.le_of_not_lt many), counted⟩
    rw [keepWindow, if_neg many]

/-- What holds where the delivery loop has stopped without a packet to return. -/
structure Drained (udp : UdpData) : Prop where
  waits : udp.queue.get udp.nextSeq = none
  padding : udp.isPadding = true → udp.queued = 0

/-- What an answer of `udp_process_queue` stands for. -/
structure Processed (start : UdpData) (labels : List (List Event)) (result : QueueResult) :
    Prop where
  run : (queueMachine start).Run labels result.udp
  events : labels.flatten = result.events
  drained : result.returned = none → result.udp.Drained

theorem Processed.behind {start middle : UdpData} {labels more : List (List Event)}
    {result : QueueResult} (before : (queueMachine start).Run labels middle)
    (silent : labels.flatten = []) (processed : Processed middle more result) :
    Processed start (labels ++ more) result where
  run := queue_run_trans before processed.run
  events := by simp [silent, processed.events]
  drained := processed.drained

theorem deliver_next_moves (limit : Nat) {udp : UdpData} (counted : udp.Counted)
    (flushed : udp.Flushed) (enough : udp.queued < limit) :
    ∃ result labels, udp.deliverNext limit = some result ∧ Processed udp labels result := by
  induction limit generalizing udp with
  | zero => exact absurd enough (Nat.not_lt_zero _)
  | succ limit ih =>
      simp only [deliverNext, counted.head]
      cases found : udp.queue.get udp.nextSeq with
      | none =>
          refine ⟨_, [], rfl, .start rfl, rfl, ?_⟩
          intro _
          refine ⟨found, ?_⟩
          intro isPadding
          by_contra held
          have occupied := flushed isPadding (Nat.pos_of_ne_zero held)
          simp [found] at occupied
      | some packet =>
          have fewer := counted.take_next_queued found
          have takenCounted := counted.take_next found
          obtain ⟨taken, skips, flushes, skipRun, silent, ready, count⟩ :=
            flush_padding_moves takenCounted
          by_cases empty : packet.payload = []
          · obtain ⟨result, more, delivers, processed⟩ :=
              ih (queue_run_counted takenCounted skipRun) ready (by omega)
            have onward := processed.behind skipRun silent
            refine ⟨{ result with freed := packet :: result.freed },
              [.freed packet] :: (skips ++ more), ?_, ?_, ?_, processed.drained⟩
            · simp [flushes, empty, delivers]
            · exact queue_run_trans (queue_run_single (.pass packet found empty)) onward.run
            · simp only [List.flatten_cons, onward.events]
              rfl
          · refine ⟨⟨taken, [], some packet⟩, [.delivered packet] :: skips, ?_, ?_, ?_, ?_⟩
            · simp [flushes, empty]
            · exact queue_run_trans (queue_run_single (.deliver packet found empty)) skipRun
            · simp [silent, QueueResult.events]
            · simp

/-- From a queue that is counted right, `udp_process_queue` returns, having kept
the window and then made moves only. -/
theorem process_queue_moves {udp : UdpData} (counted : udp.Counted) :
    ∃ windowed result labels, udp.udpProcessQueue = some result ∧ udp.WindowKept windowed ∧
      Processed windowed labels result ∧ result.udp.Counted := by
  by_cases idle : udp.queued = 0
  · refine ⟨udp, ⟨udp, [], none⟩, [], by rw [udpProcessQueue, if_pos idle],
      .inside (by omega), ⟨.start rfl, rfl, ?_⟩, counted⟩
    intro _
    have vacant : udp.queue.occupied = 0 := by rw [← counted.queued, idle]
    exact ⟨(udp.queue.occupied_eq_zero_iff).mp vacant _, fun _ => idle⟩
  · obtain ⟨windowed, keeps, kept, windowedCounted⟩ := counted.keep_window
    obtain ⟨flushed, skips, flushes, flushRun, silent, ready, _⟩ :=
      flush_padding_moves windowedCounted
    have flushedCounted := queue_run_counted windowedCounted flushRun
    have enough := flushedCounted.queued_le
    obtain ⟨result, more, delivers, processed⟩ :=
      deliver_next_moves 257 flushedCounted ready (by omega)
    refine ⟨windowed, result, skips ++ more, ?_, kept, processed.behind flushRun silent,
      queue_run_counted flushedCounted processed.run⟩
    rw [udpProcessQueue, if_neg idle]
    simp [keeps, flushes, delivers]

/-- What any answer of `udp_process_queue` stands for. -/
theorem Counted.process_queue_cases {udp : UdpData} (counted : udp.Counted) {result : QueueResult}
    (processes : udp.udpProcessQueue = some result) :
    ∃ windowed labels, udp.WindowKept windowed ∧ Processed windowed labels result ∧
      result.udp.Counted := by
  obtain ⟨windowed, same, labels, again, cases⟩ := process_queue_moves counted
  obtain rfl : same = result := Option.some.inj (again.symm.trans processes)
  exact ⟨windowed, labels, cases⟩

/-! ## Arrivals -/

theorem queue_result_not_corrupt (result : QueueResult) : Event.corrupt ∉ result.events := by
  simp [QueueResult.events]

theorem process_resend_kept (udp : UdpData) :
    udp.udpProcessResend.1.queue = udp.queue ∧ udp.udpProcessResend.1.queued = udp.queued ∧
      udp.udpProcessResend.1.nextSeq = udp.nextSeq := by
  simp only [udpProcessResend]
  split
  · exact ⟨rfl, rfl, rfl⟩
  · split <;> exact ⟨rfl, rfl, rfl⟩

theorem end_of_request_bound (queue : CyclicSlots 256 Packet) (maxReq : Nat) {seq : Nat}
    (bound : seq < 256) : endOfRequest queue maxReq seq < 256 := by
  induction maxReq generalizing seq with
  | zero => exact bound
  | succ maxReq ih =>
      simp only [endOfRequest]
      split
      · exact ih (Nat.mod_lt _ (by decide))
      · exact bound

theorem Counted.process_resend {udp : UdpData} (counted : udp.Counted) :
    udp.udpProcessResend.1.Counted := by
  obtain ⟨queue, queued, nextSeq⟩ := process_resend_kept udp
  refine ⟨by rw [queued, queue, counted.queued], by rw [nextSeq]; exact counted.nextBound, ?_⟩
  simp only [udpProcessResend]
  split
  · exact counted.currentBound
  · split
    · exact end_of_request_bound _ _ counted.currentBound
    · exact counted.currentBound

/-- Nothing comes of `udp_process_resend` but a request. -/
theorem process_resend_asks (udp : UdpData) {event : Event}
    (member : event ∈ udp.udpProcessResend.2) : ∃ first last pos, event = .resend first last pos := by
  simp only [udpProcessResend] at member
  split at member
  · contradiction
  · split at member
    · exact ⟨_, _, _, List.mem_singleton.mp member⟩
    · contradiction

theorem Counted.answer {udp : UdpData} (counted : udp.Counted) :
    ∃ answered events, udp.answer = some (answered, events) ∧ answered.Counted ∧
      Event.corrupt ∉ events := by
  obtain ⟨windowed, result, labels, processes, -, -, resultCounted⟩ := process_queue_moves counted
  cases returned : result.returned with
  | some packet =>
      refine ⟨result.udp, result.events, ?_, resultCounted, queue_result_not_corrupt result⟩
      simp [UdpData.answer, processes, returned]
  | none =>
      refine ⟨result.udp.udpProcessResend.1, result.events ++ result.udp.udpProcessResend.2, ?_,
        resultCounted.process_resend, ?_⟩
      · simp [UdpData.answer, processes, returned]
      · rw [List.mem_append, not_or]
        refine ⟨queue_result_not_corrupt result, ?_⟩
        intro corrupt
        obtain ⟨first, last, pos, request⟩ := process_resend_asks result.udp corrupt
        contradiction

theorem Counted.note {udp : UdpData} (counted : udp.Counted) (packet : Packet) :
    (udp.note packet).Counted := by
  refine ⟨counted.queued, ?_, Nat.mod_lt _ (by decide)⟩
  have bound := counted.nextBound
  simp only [UdpData.note]
  split <;> omega

theorem note_started (udp : UdpData) (packet : Packet) :
    (udp.note packet).receivedFrames ≠ -1 := by
  simp only [UdpData.note]
  split
  · decide
  · assumption

/-- The queue with a packet in the slot of the number received last. -/
def place (udp : UdpData) (packet : Packet) : UdpData :=
  { udp with
    queue := udp.queue.put udp.currentSeq (some packet)
    queued := (udp.queue.put udp.currentSeq (some packet)).occupied }

theorem Counted.place {udp : UdpData} (counted : udp.Counted) (packet : Packet) :
    (udp.place packet).Counted where
  queued := rfl
  nextBound := counted.nextBound
  currentBound := counted.currentBound

/-- A packet takes its slot, and the one that was there is freed; the count does
not go wrong. -/
theorem Counted.clear_slot_add_frame {udp : UdpData} (counted : udp.Counted) (packet : Packet) :
    udp.clearSlot.1.addFrame packet = udp.place packet ∧
      udp.clearSlot.2 = (udp.queue.get udp.currentSeq).toList.map .freed := by
  have change := udp.queue.occupied_put udp.currentSeq (some packet)
  have room := (udp.queue.put udp.currentSeq (some packet)).occupied_le
  have count := counted.queued
  cases found : udp.queue.get udp.currentSeq with
  | none =>
      simp only [found, Option.toList, List.length_nil, List.length_cons] at change
      have fits : (udp.queued + 1) % 0x10000 =
          (udp.queue.put udp.currentSeq (some packet)).occupied := by omega
      simp [clearSlot, found, addFrame, UdpData.place, fits]
  | some old =>
      have held := counted.queued_pos found
      simp only [found, Option.toList, List.length_nil, List.length_cons] at change
      have busy : udp.queued ≠ 0 := by omega
      have fits : (udp.queued - 1 + 1) % 0x10000 =
          (udp.queue.put udp.currentSeq (some packet)).occupied := by omega
      simp [clearSlot, found, addFrame, UdpData.place, busy, fits]

theorem Counted.receive_inside {udp : UdpData} (counted : udp.Counted) {packet : Packet}
    (inside : (udp.note packet).insideWindow = true) :
    udp.receive packet = ((udp.note packet).place packet).answer.map fun (answered, events) =>
      (answered, ((udp.note packet).queue.get (udp.note packet).currentSeq).toList.map .freed ++
        events) := by
  obtain ⟨placed, replaced⟩ := (counted.note packet).clear_slot_add_frame packet
  simp only [UdpData.receive, if_pos inside, placed, replaced]

/-- A packet is answered from its place in the queue, or it resets the link. -/
theorem Counted.receive_cases {udp received : UdpData} {packet : Packet} {events : List Event}
    (counted : udp.Counted) (receives : udp.receive packet = some (received, events)) :
    ((udp.note packet).insideWindow = true ∧
      ∃ more, ((udp.note packet).place packet).answer = some (received, more) ∧
        events = ((udp.note packet).queue.get (udp.note packet).currentSeq).toList.map .freed ++
          more) ∨
    ((udp.note packet).insideWindow = false ∧
      received = initUdpData (udp.note packet).serverAddress ∧
      events = .reset :: (udp.note packet).allPackets.map .freed ++ [.freed packet]) := by
  by_cases inside : (udp.note packet).insideWindow = true
  · rw [counted.receive_inside inside] at receives
    simp only [Option.map_eq_some_iff, Prod.mk.injEq, Prod.exists] at receives
    obtain ⟨_, more, answers, rfl, rfl⟩ := receives
    exact .inl ⟨inside, more, answers, rfl⟩
  · simp only [UdpData.receive, if_neg inside, Option.some.injEq, Prod.mk.injEq] at receives
    exact .inr ⟨by simpa using inside, receives.1.symm, receives.2.symm⟩

theorem Counted.receive {udp : UdpData} (counted : udp.Counted) (packet : Packet) :
    ∃ received events, udp.receive packet = some (received, events) ∧ received.Counted ∧
      Event.corrupt ∉ events := by
  by_cases inside : (udp.note packet).insideWindow = true
  · obtain ⟨answered, events, answers, result, clean⟩ :=
      ((counted.note packet).place packet).answer
    refine ⟨answered, _, by rw [counted.receive_inside inside, answers, Option.map_some],
      result, ?_⟩
    rw [List.mem_append, not_or]
    exact ⟨by simp, clean⟩
  · refine ⟨initUdpData (udp.note packet).serverAddress,
      .reset :: (udp.note packet).allPackets.map .freed ++ [.freed packet], ?_,
      counted_init _, by simp⟩
    simp only [UdpData.receive, if_neg inside]

end UdpData

namespace UdpInput

theorem counted_parse_control {input : UdpInput} (counted : input.udp.Counted) (packet : Packet) :
    (input.udpParseControl packet).1.udp.Counted ∧
      Event.corrupt ∉ (input.udpParseControl packet).2.2 := by
  simp only [udpParseControl]
  split
  · split
    · split
      · refine ⟨⟨counted.queued, ?_, counted.currentBound⟩, by simp⟩
        simp only
        omega
      · exact ⟨counted, by simp⟩
    · exact ⟨counted, by simp⟩
  · exact ⟨counted, by simp⟩

theorem counted_handle (input : UdpInput) (counted : input.udp.Counted) (arrival : Arrival) :
    ∃ handled events, input.handle arrival = some (handled, events) ∧ handled.udp.Counted ∧
      Event.corrupt ∉ events := by
  have parsed := counted_parse_control counted (udpParseHeader input.rtp arrival)
  simp only [handle]
  split
  · cases shape : input.udpParseControl (udpParseHeader input.rtp arrival) with
    | mk control rest =>
        obtain ⟨packet, events⟩ := rest
        simp only [shape] at parsed ⊢
        cases packet with
        | none => exact ⟨_, _, rfl, parsed⟩
        | some packet =>
            by_cases valid : udpCheckPacket packet = true
            · obtain ⟨received, more, receives, result, clean⟩ := parsed.1.receive packet
              refine ⟨{ control with udp := received }, events ++ more, ?_, result, ?_⟩
              · simp only [if_pos valid, receives, Option.map_some]
              · rw [List.mem_append, not_or]
                exact ⟨parsed.2, clean⟩
            · exact ⟨control, events, by simp only [if_neg valid], parsed⟩
  · exact ⟨_, _, rfl, counted, by simp⟩

theorem counted_round {input : UdpInput} (counted : input.udp.Counted) (turn : Turn) :
    ∃ next events, input.round turn = some (next, events) ∧ next.udp.Counted ∧
      Event.corrupt ∉ events := by
  obtain ⟨-, result, -, processes, -, -, served⟩ := UdpData.process_queue_moves counted
  have clean := UdpData.queue_result_not_corrupt result
  simp only [round, processes]
  split
  · exact ⟨_, _, rfl, counted, by simp⟩
  · split
    · exact ⟨_, _, rfl, served, clean⟩
    · cases input.socket with
      | nil => exact ⟨_, _, rfl, served, clean⟩
      | cons arrival rest =>
          obtain ⟨handled, more, handles, after, cleanAfter⟩ :=
            counted_handle { input with udp := result.udp, socket := rest } served arrival
          refine ⟨handled, result.events ++ more, ?_, after, ?_⟩
          · simp only [handles, Option.map_some]
          · rw [List.mem_append, not_or]
            exact ⟨clean, cleanAfter⟩

theorem reachable_counted {rtp : Bool} {maxSize : Nat} {serverAddress : Address}
    {arrivals : List Arrival} {input : UdpInput}
    (reached : (machine rtp maxSize serverAddress arrivals).Reachable input) :
    input.udp.Counted := by
  apply reached.invariant fun input => input.udp.Counted
  · intro input begins
    obtain rfl := begins
    exact UdpData.counted_init serverAddress
  · rintro input ⟨turn, events⟩ next counted move
    obtain ⟨same, _, steps, after, -⟩ := counted_round counted turn
    have agree : some (same, _) = some (next, events) := steps.symm.trans move
    simp only [Option.some.injEq, Prod.mk.injEq] at agree
    exact agree.1 ▸ after

/-- Whatever has arrived, the counter is right and every round ends: none of the
skip loops it enters runs past 256 steps, and no slot is emptied on a count of
zero. -/
theorem queue_counted_and_rounds_end {rtp : Bool} {maxSize : Nat} {serverAddress : Address}
    {arrivals : List Arrival} {input : UdpInput}
    (reached : (machine rtp maxSize serverAddress arrivals).Reachable input) :
    input.udp.queued = input.udp.queue.occupied ∧
      ∀ turn, ∃ next events, input.round turn = some (next, events) ∧ Event.corrupt ∉ events := by
  have counted := reachable_counted reached
  refine ⟨counted.queued, ?_⟩
  intro turn
  obtain ⟨next, events, steps, -, clean⟩ := counted_round counted turn
  exact ⟨next, events, steps, clean⟩

def readyTurn : Turn := ⟨true, 0, false, true⟩

def plainArrival (seq : Nat) : Arrival :=
  ⟨⟨1, 2⟩, udpHeader 0 seq 0 ++ [0x47, 1, 2], []⟩

theorem queue_counted_two_waiting :
    ∃ input, (machine false 2048 ⟨1, 2⟩ [plainArrival 5, plainArrival 8, plainArrival 7,
        plainArrival 8]).Reachable input ∧ input.udp.queued = 2 ∧
      input.udp.queued = input.udp.queue.occupied ∧
      ∀ turn, ∃ next events, input.round turn = some (next, events) ∧ Event.corrupt ∉ events := by
  have run := Machine.Run.drive (machine false 2048 ⟨1, 2⟩ [plainArrival 5, plainArrival 8,
    plainArrival 7, plainArrival 8]) [readyTurn, readyTurn, readyTurn, readyTurn]
    (fun _ _ _ _ _ performed => performed) (.start rfl) rfl
  exact ⟨_, ⟨_, run⟩, by decide +kernel, queue_counted_and_rounds_end ⟨_, run⟩⟩

end UdpInput
end Xineliboutput.Udp
