import Xineliboutput.Udp.ReSend
import Xineliboutput.Udp.ReceiverRounds

/-!
# Packets behind a "UDP MISSING" notice

An accepted notice moves the expected number to the last missing one and puts an
empty packet into its slot. What has arrived in the meantime between the two
numbers, or in that slot itself, is lost to the stream. The theorem says that
nothing else goes wrong: in a run whose notices jump over free slots only, every
occupied slot is ahead of the expected number and inside the window.
-/

namespace Xineliboutput.Udp

open Xineliboutput.Foundation Xineliboutput.StreamHeaders

set_option autoImplicit false

namespace UdpData

/-- No occupied slot is further ahead of the expected number than the window test
allows; a slot left behind would be. -/
def Windowed (udp : UdpData) : Prop :=
  ∀ seq, seq < 256 → (udp.queue.get seq).isSome → (seq + 256 - udp.nextSeq) % 256 ≤ 128

structure Orderly (udp : UdpData) : Prop where
  counted : udp.Counted
  windowed : udp.Windowed
  fresh : udp.receivedFrames = -1 → ∀ number, udp.queue.get number = none

theorem orderly_init (serverAddress : Address) : (initUdpData serverAddress).Orderly where
  counted := counted_init serverAddress
  windowed := by
    intro seq _ held
    simp [initUdpData] at held
  fresh := fun _ _ => rfl

theorem Windowed.skip {udp next : UdpData} (windowed : udp.Windowed) (bound : udp.nextSeq < 256)
    {distance : Nat} (first : udp.FirstHeld distance) (queue : next.queue = udp.queue)
    (moved : next.nextSeq = (udp.nextSeq + distance) % 256) : next.Windowed := by
  intro seq small held
  rw [queue] at held
  have offset := windowed seq small held
  have near := first.near
  have beyond : distance ≤ (seq + 256 - udp.nextSeq) % 256 := by
    by_contra before
    have vacant := first.vacant _ (Nat.lt_of_not_le before)
    have same : (udp.nextSeq + (seq + 256 - udp.nextSeq) % 256) % 256 = seq % 256 := by omega
    rw [udp.queue.get_congr same] at vacant
    simp [vacant] at held
  rw [moved]
  omega

theorem Windowed.take {udp : UdpData} (windowed : udp.Windowed) (bound : udp.nextSeq < 256)
    (packet : Packet) : (udp.takeNext packet).Windowed := by
  intro seq small held
  simp only [takeNext] at held ⊢
  by_cases here : seq = udp.nextSeq
  · simp [here] at held
  · rw [udp.queue.get_put_other none (by omega)] at held
    have offset := windowed seq small held
    simp only [nextSeqOf]
    omega

theorem Orderly.window_kept {udp windowed : UdpData} (orderly : udp.Orderly)
    (kept : udp.WindowKept windowed) : windowed.Orderly := by
  cases kept with
  | inside few => exact orderly
  | exceeded many distance first =>
      exact {
        counted := ⟨orderly.counted.queued, Nat.mod_lt _ (by decide), orderly.counted.currentBound⟩
        windowed := orderly.windowed.skip orderly.counted.nextBound first rfl rfl
        fresh := orderly.fresh }

theorem Orderly.move {udp next : UdpData} {events : List Event} (orderly : udp.Orderly)
    (move : udp.QueueMove events next) : next.Orderly := by
  have counted := orderly.counted.move move
  have emptied (packet : Packet) : (udp.takeNext packet).receivedFrames = -1 →
      ∀ number, (udp.takeNext packet).queue.get number = none := by
    intro initially number
    simp only [takeNext, CyclicSlots.get_put, orderly.fresh initially number, ite_self]
  cases move with
  | skip distance isPadding first =>
      exact ⟨counted, orderly.windowed.skip orderly.counted.nextBound first rfl rfl, orderly.fresh⟩
  | pass packet found empty =>
      exact ⟨counted, orderly.windowed.take orderly.counted.nextBound packet, emptied packet⟩
  | deliver packet found filled =>
      exact ⟨counted, orderly.windowed.take orderly.counted.nextBound packet, emptied packet⟩

theorem Orderly.run {start udp : UdpData} {labels : List (List Event)} (orderly : start.Orderly)
    (run : (queueMachine start).Run labels udp) : udp.Orderly := by
  apply queue_run_invariant (fun _ udp => udp.Orderly) orderly _ run
  intro _ _ _ _ before move
  exact before.move move

theorem Orderly.process_queue {udp : UdpData} (orderly : udp.Orderly) {result : QueueResult}
    (processes : udp.udpProcessQueue = some result) : result.udp.Orderly := by
  obtain ⟨windowed, labels, kept, processed, -⟩ := orderly.counted.process_queue_cases processes
  exact (orderly.window_kept kept).run processed.run

theorem Orderly.process_resend {udp : UdpData} (orderly : udp.Orderly) :
    udp.udpProcessResend.1.Orderly := by
  obtain ⟨queue, -, nextSeq⟩ := process_resend_kept udp
  refine ⟨orderly.counted.process_resend, ?_, ?_⟩
  · intro seq small held
    rw [queue] at held
    rw [nextSeq]
    exact orderly.windowed seq small held
  · intro initially
    rw [queue]
    exact orderly.fresh ((process_resend_setting udp).receivedFrames.symm.trans initially)

theorem Orderly.answer {udp answered : UdpData} {events : List Event} (orderly : udp.Orderly)
    (answers : udp.answer = some (answered, events)) : answered.Orderly := by
  obtain ⟨result, processes, ⟨rfl, -⟩ | ⟨rfl, -⟩⟩ := answer_cases answers
  · exact orderly.process_queue processes
  · exact (orderly.process_queue processes).process_resend

theorem Orderly.place {udp : UdpData} (orderly : udp.Orderly) {packet : Packet}
    (inside : (udp.note packet).insideWindow = true) :
    ((udp.note packet).place packet).Orderly := by
  have noted := orderly.counted.note packet
  refine ⟨noted.place packet, ?_, ?_⟩
  · intro seq small held
    have near : (packet.seq % 256 + 256 - (udp.note packet).nextSeq) % 256 ≤ 128 := by
      rw [← add_seq_offset (Nat.mod_lt _ (by decide)) noted.nextBound]
      simpa [insideWindow, note] using inside
    simp only [UdpData.place]
    by_cases here : seq = packet.seq % 256
    · rw [here]
      exact near
    · have old : (udp.queue.get seq).isSome := by
        rw [UdpData.place, CyclicSlots.get_put_other _ _ (by simp only [note]; omega)] at held
        exact held
      have started : udp.receivedFrames ≠ -1 := by
        intro initially
        simp [orderly.fresh initially seq] at old
      simp only [note, if_neg started]
      exact orderly.windowed seq small old
  · exact fun initially => absurd initially (note_started udp packet)

theorem Orderly.receive {udp received : UdpData} {packet : Packet} {events : List Event}
    (orderly : udp.Orderly) (receives : udp.receive packet = some (received, events)) :
    received.Orderly := by
  rcases orderly.counted.receive_cases receives with ⟨inside, more, answers, -⟩ | ⟨-, rfl, -⟩
  · exact (orderly.place inside).answer answers
  · exact orderly_init _

/-! ## The notice -/

/-- What a notice has to leave: the packets with a payload are delivered in their
place or stay, and no occupied slot is passed over or outside the window. -/
structure NoticeKeeps (waiting next : UdpData) (events : List Event) : Prop where
  windowed : next.Windowed
  passed : ∀ distance, distance < (next.nextSeq + 256 - waiting.nextSeq) % 256 →
    next.queue.get (waiting.nextSeq + distance) = none
  packets : ∀ number packet, waiting.queue.get number = some packet → packet.payload ≠ [] →
    (.delivered packet ∈ events ∧ next.nextSeq = (number + 1) % 256) ∨
      next.queue.get number = some packet

/-- The notice jumps over free slots only, and takes no packet's place; or it
covers all 256 numbers. -/
def NoticeClear (waiting : UdpData) (last : Nat) : Prop :=
  (last + 1) % 256 = waiting.nextSeq ∨
    (∀ distance, distance < (last + 256 - waiting.nextSeq) % 256 →
      waiting.queue.get (waiting.nextSeq + distance) = none) ∧
    ∀ packet ∈ waiting.queue.get last, packet.payload = []

instance (waiting : UdpData) (last : Nat) : Decidable (waiting.NoticeClear last) :=
  inferInstanceAs (Decidable (_ ∨ (∀ distance, distance < _ → _) ∧ ∀ packet ∈ _, _))

def posted (waiting : UdpData) (packet : Packet) : UdpData :=
  ({ waiting with nextSeq := packet.seq }.note packet).place packet

theorem posted_get (waiting : UdpData) {packet : Packet} (small : packet.seq < 256) (number : Nat) :
    (waiting.posted packet).queue.get number =
      if number % 256 = packet.seq then some packet else waiting.queue.get number := by
  simp only [posted, UdpData.place, note, CyclicSlots.get_put, Nat.mod_eq_of_lt small]

theorem posted_next_seq (waiting : UdpData) {packet : Packet} (small : packet.seq < 256) :
    (waiting.posted packet).nextSeq = packet.seq := by
  simp only [posted, UdpData.place, note, Nat.mod_eq_of_lt small, ite_self]

theorem queue_result_delivered (result : QueueResult) (place : Nat) (old : Packet)
    (event : result.events[place]? = some (.delivered old)) :
    place + 1 = result.events.length := by
  have shape : place = result.freed.length ∧ result.returned = some old := by
    rw [QueueResult.events, List.getElem?_append] at event
    split at event
    · simp at event
    · rename_i behind
      cases returned : result.returned with
      | none => simp [returned] at event
      | some packet =>
          simp only [returned, Option.toList, List.map_cons, List.map_nil, List.length_map]
            at event behind
          rw [List.getElem?_singleton] at event
          split at event
          · rename_i atEnd
            refine ⟨by omega, ?_⟩
            simpa using event
          · simp at event
  simp [QueueResult.events, shape.2, shape.1]

/-- From the expected packet on, the queue is passed up to the first free slot or
the first packet to return. -/
structure AnswerPassage (udp answered : UdpData) (events : List Event) (count : Nat) : Prop where
  started : 0 < count
  few : count ≤ 256
  next : answered.nextSeq = (udp.nextSeq + count) % 256
  present : ∀ place, place < count → (udp.queue.get (udp.nextSeq + place)).isSome
  cleared : ∀ place, place < count → answered.queue.get (udp.nextSeq + place) = none
  kept : ∀ number, (∀ place, place < count → number % 256 ≠ (udp.nextSeq + place) % 256) →
    answered.queue.get number = udp.queue.get number
  delivers : ∀ place packet, place < count →
    udp.queue.get (udp.nextSeq + place) = some packet → packet.payload ≠ [] →
    .delivered packet ∈ events ∧ place + 1 = count
  origin : ∀ packet, .delivered packet ∈ events →
    udp.queue.get (udp.nextSeq + (count - 1)) = some packet

theorem window_kept_at_head {udp windowed : UdpData} (counted : udp.Counted)
    (held : (udp.queue.get udp.nextSeq).isSome) (kept : udp.WindowKept windowed) :
    windowed.queue = udp.queue ∧ windowed.nextSeq = udp.nextSeq ∧
      windowed.isPadding = udp.isPadding := by
  cases kept with
  | inside few => exact ⟨rfl, rfl, rfl⟩
  | exceeded many distance first =>
      have unmoved : distance = 0 := by
        by_contra moved
        have vacant := first.vacant 0 (Nat.pos_of_ne_zero moved)
        rw [Nat.add_zero] at vacant
        simp [vacant] at held
      subst unmoved
      exact ⟨rfl, Nat.mod_eq_of_lt counted.nextBound, rfl⟩

theorem Passage.congr {start other udp : UdpData} {labels : List (List Event)} {count : Nat}
    (passage : Passage start labels udp count) (queue : start.queue = other.queue)
    (nextSeq : start.nextSeq = other.nextSeq) : Passage other labels udp count := by
  refine ⟨passage.few, ?_, passage.length, ?_, ?_, passage.isPadding⟩
  · rw [passage.next, nextSeq]
  · rw [← nextSeq, ← queue]
    exact passage.taken
  · rw [← nextSeq, ← queue]
    exact passage.kept

theorem answer_passage {udp answered : UdpData} {events : List Event} (counted : udp.Counted)
    (plain : udp.isPadding = false) (held : (udp.queue.get udp.nextSeq).isSome)
    (answers : udp.answer = some (answered, events)) :
    ∃ count, AnswerPassage udp answered events count := by
  obtain ⟨result, processes, outcome⟩ := answer_cases answers
  obtain ⟨windowed, passed, kept, processed, -⟩ := counted.process_queue_cases processes
  obtain ⟨queue, nextSeq, padding⟩ := window_kept_at_head counted held kept
  obtain ⟨count, moved⟩ := passage_of_run (nextSeq ▸ counted.nextBound) (padding.trans plain)
    processed.run
  have passage := moved.congr queue nextSeq
  have length : result.events.length = count := by rw [← processed.events, passage.length]
  have outside : answered.queue = result.udp.queue ∧ answered.nextSeq = result.udp.nextSeq ∧
      ∀ packet, .delivered packet ∈ events ↔ .delivered packet ∈ result.events := by
    rcases outcome with ⟨rfl, rfl⟩ | ⟨rfl, rfl⟩
    · exact ⟨rfl, rfl, fun _ => Iff.rfl⟩
    · obtain ⟨queueKept, -, nextKept⟩ := process_resend_kept result.udp
      refine ⟨queueKept, nextKept, ?_⟩
      intro packet
      rw [List.mem_append]
      apply or_iff_left
      intro delivered
      obtain ⟨first, last, pos, request⟩ := process_resend_asks result.udp delivered
      contradiction
  obtain ⟨answeredQueue, answeredNext, deliveries⟩ := outside
  have eventAt (place : Nat) (lower : place < count) : ∃ packet,
      udp.queue.get (udp.nextSeq + place) = some packet ∧
        result.events[place]? = some (takeEvent packet) := by
    rw [← processed.events]
    exact (passage.taken place lower).2
  refine ⟨count, ?_, passage.few, by rw [answeredNext, passage.next], ?_, ?_, ?_, ?_, ?_⟩
  · by_contra idle
    obtain rfl : count = 0 := Nat.eq_zero_of_not_pos idle
    have silent : result.returned = none := by
      cases returned : result.returned with
      | none => rfl
      | some packet => simp [QueueResult.events, returned] at length
    have waits := (processed.drained silent).waits
    rw [passage.next, Nat.add_zero, CyclicSlots.get_mod, passage.kept _ (by simp)] at waits
    simp [waits] at held
  · intro place lower
    obtain ⟨packet, found, -⟩ := eventAt place lower
    simp [found]
  · intro place lower
    rw [answeredQueue]
    exact (passage.taken place lower).1
  · intro number apart
    rw [answeredQueue]
    exact passage.kept number apart
  · intro place packet lower found filled
    obtain ⟨other, again, event⟩ := eventAt place lower
    obtain rfl : other = packet := Option.some.inj (again.symm.trans found)
    rw [takeEvent, if_neg filled] at event
    refine ⟨(deliveries other).mpr (List.mem_of_getElem? event), ?_⟩
    rw [← length]
    exact queue_result_delivered result place other event
  · intro packet delivered
    obtain ⟨place, event⟩ := List.mem_iff_getElem?.mp ((deliveries packet).mp delivered)
    have atEnd := queue_result_delivered result place packet event
    have position : place = count - 1 := by omega
    obtain ⟨other, found, otherEvent⟩ := eventAt place (by omega)
    rw [event, Option.some.injEq, takeEvent] at otherEvent
    split at otherEvent
    · contradiction
    · obtain rfl : packet = other := Event.delivered.inj otherEvent
      rw [← position]
      exact found

structure NoticePassage (waiting : UdpData) (packet : Packet) (answered : UdpData)
    (events : List Event) (count : Nat) : Prop where
  small : packet.seq < 256
  empty : packet.payload = []
  waits : waiting.queue.get waiting.nextSeq = none
  passage : AnswerPassage (waiting.posted packet) answered events count

section Notice

variable {waiting answered : UdpData} {packet : Packet} {events : List Event} {count : Nat}

theorem NoticePassage.next (notice : NoticePassage waiting packet answered events count) :
    answered.nextSeq = (packet.seq + count) % 256 := by
  rw [notice.passage.next, posted_next_seq waiting notice.small]

theorem NoticePassage.cleared
    (notice : NoticePassage waiting packet answered events count) {place : Nat}
    (lower : place < count) : answered.queue.get (packet.seq + place) = none := by
  have gone := notice.passage.cleared place lower
  rwa [posted_next_seq waiting notice.small] at gone

theorem NoticePassage.kept
    (notice : NoticePassage waiting packet answered events count) {number : Nat}
    (apart : ∀ place, place < count → number % 256 ≠ (packet.seq + place) % 256) :
    answered.queue.get number = waiting.queue.get number := by
  have other : number % 256 ≠ packet.seq := by
    have first := apart 0 notice.passage.started
    have small := notice.small
    omega
  rw [notice.passage.kept number (by rwa [posted_next_seq waiting notice.small]),
    posted_get waiting notice.small, if_neg other]

theorem NoticePassage.apart_of_held
    (notice : NoticePassage waiting packet answered events count) {number : Nat}
    (held : (answered.queue.get number).isSome) :
    ∀ place, place < count → number % 256 ≠ (packet.seq + place) % 256 := by
  intro place lower same
  rw [answered.queue.get_congr same, notice.cleared lower] at held
  contradiction

theorem NoticePassage.occupied
    (notice : NoticePassage waiting packet answered events count) (place : Nat)
    (lower : place < count) (behind : (packet.seq + place) % 256 ≠ packet.seq) :
    (waiting.queue.get (packet.seq + place)).isSome := by
  have present := notice.passage.present place lower
  rwa [posted_next_seq waiting notice.small, posted_get waiting notice.small,
    if_neg behind] at present

theorem NoticePassage.full_circle (notice : NoticePassage waiting packet answered events count)
    (circle : (packet.seq + 1) % 256 = waiting.nextSeq) : count = 1 := by
  have started := notice.passage.started
  by_contra more
  have small := notice.small
  have present := notice.occupied 1 (by omega) (by omega)
  have same : (packet.seq + 1) % 256 = waiting.nextSeq % 256 := by omega
  rw [waiting.queue.get_congr same, notice.waits] at present
  contradiction

theorem NoticePassage.windowed
    (notice : NoticePassage waiting packet answered events count) (orderly : waiting.Orderly)
    (clear : waiting.NoticeClear packet.seq) : answered.Windowed := by
  intro seq inside held
  have apart := notice.apart_of_held held
  rw [notice.kept apart] at held
  have offset := orderly.windowed seq inside held
  have bound := orderly.counted.nextBound
  have small := notice.small
  rw [notice.next]
  rcases clear with circle | ⟨jumped, -⟩
  · rw [notice.full_circle circle]
    omega
  · have ahead : (packet.seq + 256 - waiting.nextSeq) % 256 ≤
        (seq + 256 - waiting.nextSeq) % 256 := by
      by_contra before
      have vacant := jumped _ (Nat.lt_of_not_le before)
      have same : (waiting.nextSeq + (seq + 256 - waiting.nextSeq) % 256) % 256 = seq % 256 := by
        omega
      rw [waiting.queue.get_congr same] at vacant
      simp [vacant] at held
    have behind : count ≤ (seq + 256 - waiting.nextSeq) % 256 -
        (packet.seq + 256 - waiting.nextSeq) % 256 := by
      by_contra lower
      exact apart _ (Nat.lt_of_not_le lower) (by omega)
    omega

theorem NoticePassage.passed (notice : NoticePassage waiting packet answered events count)
    (bound : waiting.nextSeq < 256) (clear : waiting.NoticeClear packet.seq) {distance : Nat}
    (lower : distance < (answered.nextSeq + 256 - waiting.nextSeq) % 256) :
    answered.queue.get (waiting.nextSeq + distance) = none := by
  have small := notice.small
  rw [notice.next] at lower
  rcases clear with circle | ⟨jumped, -⟩
  · rw [notice.full_circle circle] at lower
    omega
  · by_cases between : distance < (packet.seq + 256 - waiting.nextSeq) % 256
    · cases held : answered.queue.get (waiting.nextSeq + distance) with
      | none => rfl
      | some old =>
          have apart := notice.apart_of_held (Option.isSome_iff_exists.mpr ⟨old, held⟩)
          rw [notice.kept apart, jumped distance between] at held
          contradiction
    · have place : distance - (packet.seq + 256 - waiting.nextSeq) % 256 < count := by omega
      rw [← notice.cleared place]
      apply answered.queue.get_congr
      omega

theorem NoticePassage.packets
    (notice : NoticePassage waiting packet answered events count) (orderly : waiting.Orderly)
    (clear : waiting.NoticeClear packet.seq) {number : Nat} {old : Packet}
    (found : waiting.queue.get number = some old) (filled : old.payload ≠ []) :
    (.delivered old ∈ events ∧ answered.nextSeq = (number + 1) % 256) ∨
      answered.queue.get number = some old := by
  have small := notice.small
  by_cases inPlace : number % 256 = packet.seq
  · have same : number % 256 = packet.seq % 256 := by omega
    rw [waiting.queue.get_congr same] at found
    rcases clear with circle | ⟨-, free⟩
    · have offset := orderly.windowed packet.seq small (by simp [found])
      omega
    · exact absurd (free old found) filled
  · have stays : (waiting.posted packet).queue.get number = some old := by
      rw [posted_get waiting small, if_neg inPlace, found]
    by_cases taken : ∃ place, place < count ∧ number % 256 = (packet.seq + place) % 256
    · obtain ⟨place, lower, same⟩ := taken
      left
      have there : (waiting.posted packet).queue.get
          ((waiting.posted packet).nextSeq + place) = some old := by
        rw [posted_next_seq waiting small, ← stays]
        exact (waiting.posted packet).queue.get_congr same.symm
      obtain ⟨delivered, last⟩ := notice.passage.delivers place old lower there filled
      refine ⟨delivered, ?_⟩
      rw [notice.next]
      omega
    · right
      rw [notice.kept, found]
      intro place lower same
      exact taken ⟨place, lower, same⟩

theorem NoticePassage.jumped_free
    (notice : NoticePassage waiting packet answered events count) (orderly : waiting.Orderly)
    (keeps : NoticeKeeps waiting answered events)
    (noCircle : (packet.seq + 1) % 256 ≠ waiting.nextSeq) {distance : Nat}
    (between : distance < (packet.seq + 256 - waiting.nextSeq) % 256) :
    waiting.queue.get (waiting.nextSeq + distance) = none := by
  have small := notice.small
  have bound := orderly.counted.nextBound
  have stopsBefore : (packet.seq + 256 - waiting.nextSeq) % 256 + count ≤ 256 := by
    by_contra beyond
    have held := notice.occupied
      (256 - (packet.seq + 256 - waiting.nextSeq) % 256) (by omega) (by omega)
    have same : (packet.seq + (256 - (packet.seq + 256 - waiting.nextSeq) % 256)) % 256 =
        waiting.nextSeq % 256 := by omega
    rw [waiting.queue.get_congr same, notice.waits] at held
    contradiction
  have stopsEarly : (packet.seq + 256 - waiting.nextSeq) % 256 + count ≠ 256 := by
    intro full
    have held := notice.occupied
      (255 - (packet.seq + 256 - waiting.nextSeq) % 256) (by omega) (by omega)
    rw [← CyclicSlots.get_mod] at held
    have offset := orderly.windowed _ (Nat.mod_lt _ (by decide)) held
    omega
  have gone := keeps.passed distance (by
    rw [notice.next]
    omega)
  rwa [notice.kept] at gone
  intro place lower
  omega

theorem NoticePassage.keeps_iff
    (notice : NoticePassage waiting packet answered events count) (orderly : waiting.Orderly) :
    NoticeKeeps waiting answered events ↔ waiting.NoticeClear packet.seq := by
  constructor
  · intro keeps
    by_cases circle : (packet.seq + 1) % 256 = waiting.nextSeq
    · exact .inl circle
    · refine .inr ⟨fun distance between => notice.jumped_free orderly keeps circle between, ?_⟩
      intro old found
      by_contra filled
      rcases keeps.packets packet.seq old found filled with ⟨delivered, next⟩ | stays
      · have few := notice.passage.few
        have single : count = 1 := by
          rw [notice.next] at next
          have started := notice.passage.started
          omega
        have origin := notice.passage.origin old delivered
        rw [single, posted_next_seq waiting notice.small, posted_get waiting notice.small,
          if_pos (by have small := notice.small; omega)] at origin
        obtain rfl : packet = old := Option.some.inj origin
        exact filled notice.empty
      · rw [← Nat.add_zero packet.seq, notice.cleared notice.passage.started] at stays
        contradiction
  · intro clear
    exact {
      windowed := notice.windowed orderly clear
      passed := fun _ lower => notice.passed orderly.counted.nextBound clear lower
      packets := fun _ _ found filled => notice.packets orderly clear found filled }

theorem NoticePassage.behind (notice : NoticePassage waiting packet answered events count)
    (before : List Event) (silent : ∀ old, .delivered old ∉ before) :
    NoticePassage waiting packet answered (before ++ events) count := by
  have passage := notice.passage
  refine ⟨notice.small, notice.empty, notice.waits, passage.started, passage.few, passage.next,
    passage.present, passage.cleared, passage.kept, ?_, ?_⟩
  · intro place old lower found filled
    obtain ⟨delivered, last⟩ := passage.delivers place old lower found filled
    exact ⟨List.mem_append_right _ delivered, last⟩
  · intro old delivered
    apply passage.origin old
    exact (List.mem_append.mp delivered).resolve_left (silent old)

end Notice

theorem notice_passage {waiting received : UdpData} {packet : Packet} {events : List Event}
    (counted : waiting.Counted) (waits : waiting.queue.get waiting.nextSeq = none)
    (small : packet.seq < 256) (empty : packet.payload = [])
    (notPadding : dataIsPes packet.data = false)
    (receives : { waiting with nextSeq := packet.seq }.receive packet = some (received, events)) :
    ∃ count, NoticePassage waiting packet received events count := by
  have moved := counted.expect small
  have inside : (({ waiting with nextSeq := packet.seq } : UdpData).note packet).insideWindow =
      true := by
    have offset := add_seq_offset small small
    simp only [insideWindow, note, Nat.mod_eq_of_lt small, ite_self, offset, decide_eq_true_eq]
    omega
  rw [moved.receive_inside inside] at receives
  simp only [Option.map_eq_some_iff, Prod.mk.injEq, Prod.exists] at receives
  obtain ⟨_, more, answers, rfl, rfl⟩ := receives
  obtain ⟨count, passage⟩ := answer_passage ((moved.note packet).place packet)
    (by simp [UdpData.place, note, notPadding])
    (by
      have head := posted_get waiting small packet.seq
      rw [if_pos (Nat.mod_eq_of_lt small), ← posted_next_seq waiting small] at head
      exact Option.isSome_iff_exists.mpr ⟨packet, head⟩) answers
  exact ⟨count, NoticePassage.behind ⟨small, empty, waits, passage⟩ _ (by simp)⟩

theorem Orderly.notice {waiting received : UdpData} {packet : Packet} {events : List Event}
    (orderly : waiting.Orderly) (waits : waiting.queue.get waiting.nextSeq = none)
    (small : packet.seq < 256) (empty : packet.payload = [])
    (notPadding : dataIsPes packet.data = false) (clear : waiting.NoticeClear packet.seq)
    (receives : { waiting with nextSeq := packet.seq }.receive packet = some (received, events)) :
    received.Orderly := by
  have moved := orderly.counted.expect small
  obtain ⟨count, notice⟩ := notice_passage orderly.counted waits small empty notPadding receives
  obtain ⟨same, _, again, counted, -⟩ := moved.receive packet
  have agree := again.symm.trans receives
  simp only [Option.some.injEq, Prod.mk.injEq] at agree
  refine ⟨agree.1 ▸ counted, notice.windowed orderly clear, ?_⟩
  intro initially
  rcases moved.receive_cases receives with ⟨-, more, answers, -⟩ | ⟨-, rfl, -⟩
  · rw [(answer_setting ((moved.note packet).place packet) answers).receivedFrames] at initially
    exact absurd initially (note_started _ packet)
  · exact fun _ => rfl

end UdpData

namespace UdpInput

def ClearNotice (input : UdpInput) (turn : Turn) : Prop :=
  ∀ place ∈ input.takesArrival turn, ∀ last ∈ place.1.acceptedNotice place.2,
    place.1.udp.NoticeClear last

instance (input : UdpInput) (turn : Turn) : Decidable (input.ClearNotice turn) :=
  inferInstanceAs (Decidable (∀ place ∈ _, ∀ last ∈ _, _))

def clearMachine (rtp : Bool) (maxSize : Nat) (serverAddress : Address)
    (arrivals : List Arrival) : Machine UdpInput (Turn × List Event) where
  initial input := input = new rtp maxSize serverAddress arrivals
  step input label next :=
    input.round label.1 = some (next, label.2) ∧ input.ClearNotice label.1

theorem clear_step {rtp : Bool} {maxSize : Nat} {serverAddress : Address}
    {arrivals : List Arrival} {input next : UdpInput} (turn : Turn) {events : List Event}
    (steps : input.round turn = some (next, events)) (clear : input.ClearNotice turn) :
    (clearMachine rtp maxSize serverAddress arrivals).step input (turn, events) next :=
  ⟨steps, clear⟩

theorem orderly_round {input next : UdpInput} {turn : Turn} {events : List Event}
    (orderly : input.udp.Orderly) (clear : input.ClearNotice turn)
    (steps : input.round turn = some (next, events)) : next.udp.Orderly := by
  cases round_cases steps with
  | rests nothing => exact orderly
  | serves nothing result processes => exact orderly.process_queue processes
  | @reads result processes unanswered arrival rest waiting takes handled more handles =>
      have served := orderly.process_queue processes
      have drained := drained_of_unanswered orderly.counted processes unanswered
      cases handle_cases handles with
      | dropped ordinary => exact served
      | executed ordinary data => exact served
      | queued ordinary packet small receives => exact served.receive receives
      | noticed packet small empty notPadding accepted receives =>
          exact served.notice drained.waits small empty notPadding
            (clear _ takes _ accepted) receives

/-- Between the clear notices everything stays in the window, and a further notice
keeps the queue if and only if it is clear. -/
theorem notice_keeps_packets {rtp : Bool} {maxSize : Nat} {serverAddress : Address}
    {arrivals : List Arrival} {labels : List (Turn × List Event)} {input : UdpInput}
    (run : (clearMachine rtp maxSize serverAddress arrivals).Run labels input) :
    input.udp.Windowed ∧
      ∀ turn waiting arrival last next events, input.takesArrival turn = some (waiting, arrival) →
        waiting.acceptedNotice arrival = some last → input.round turn = some (next, events) →
        (waiting.udp.NoticeKeeps next.udp events ↔ waiting.udp.NoticeClear last) := by
  have orderly : input.udp.Orderly := by
    apply run.invariant fun _ input => input.udp.Orderly
    · intro input begins
      obtain rfl := begins
      exact UdpData.orderly_init serverAddress
    · rintro _ input ⟨turn, events⟩ next before ⟨steps, clear⟩
      exact orderly_round before clear steps
  refine ⟨orderly.windowed, ?_⟩
  intro turn waiting arrival last next events takes accepts steps
  cases round_cases steps with
  | rests nothing => simp [nothing] at takes
  | serves nothing result processes => simp [nothing] at takes
  | @reads result processes unanswered arrival' rest pending takes' handled more handles =>
      rw [takes'] at takes
      simp only [Option.some.injEq, Prod.mk.injEq] at takes
      obtain ⟨rfl, rfl⟩ := takes
      have served := orderly.process_queue processes
      have drained := drained_of_unanswered orderly.counted processes unanswered
      cases handle_cases handles with
      | dropped ordinary => simp [ordinary] at accepts
      | executed ordinary data => simp [ordinary] at accepts
      | queued ordinary packet small receives => simp [ordinary] at accepts
      | noticed packet small empty notPadding accepted receives =>
          obtain rfl : last = packet.seq := Option.some.inj (accepts.symm.trans accepted)
          obtain ⟨count, notice⟩ := UdpData.notice_passage served.counted drained.waits small empty
            notPadding receives
          have whole := notice.behind result.events (by simp [QueueResult.events, unanswered])
          exact whole.keeps_iff served

def lastRequest (labels : List (Turn × List Event)) : Option (Nat × Nat) :=
  ((labels.flatMap Prod.snd).filterMap fun event =>
    match event with
    | .resend first last _ => some (first, last)
    | .delivered _ | .freed _ | .control _ | .reset | .corrupt => none).getLast?

def InsideRequest (labels : List (Turn × List Event)) (number : Nat) : Prop :=
  ∃ request ∈ lastRequest labels,
    (number + 256 - request.1) % 256 ≤ (request.2 + 256 - request.1) % 256

/-- The control datagram with which the server reports numbers as missing. -/
def noticeArrival (first last pos : Nat) : Arrival :=
  ⟨⟨1, 2⟩, (Datagram.control (snprintf controlPayload (missingText first last pos))).bytes, []⟩

theorem notice_keeps_packets_window_open :
    ∃ labels input, (clearMachine false 2048 ⟨1, 2⟩ [plainArrival 5, plainArrival 9,
        plainArrival 8, noticeArrival 6 7 3, noticeArrival 9 9 3]).Run labels input ∧
      (input.udp.Windowed ∧
        ∀ turn waiting arrival last next events,
          input.takesArrival turn = some (waiting, arrival) →
          waiting.acceptedNotice arrival = some last → input.round turn = some (next, events) →
          (waiting.udp.NoticeKeeps next.udp events ↔ waiting.udp.NoticeClear last)) := by
  have begun : (clearMachine false 2048 ⟨1, 2⟩ [plainArrival 5, plainArrival 9,
      plainArrival 8, noticeArrival 6 7 3, noticeArrival 9 9 3]).Run [] _ := .start rfl
  have first := begun.snoc (clear_step readyTurn rfl (by decide +kernel))
  have second := first.snoc (clear_step readyTurn rfl (by decide +kernel))
  have third := second.snoc (clear_step readyTurn rfl (by decide +kernel))
  have noticed := third.snoc (clear_step readyTurn rfl (by decide +kernel))
  exact ⟨_, _, noticed, notice_keeps_packets noticed⟩

/-- Packet 7 has come out of order when the notice for 6 and 7 arrives. -/
theorem notice_frees_packet :
    ¬ ∀ rtp maxSize serverAddress arrivals labels input,
      (machine rtp maxSize serverAddress arrivals).Run labels input →
      ∀ turn waiting arrival last next events, input.takesArrival turn = some (waiting, arrival) →
        waiting.acceptedNotice arrival = some last → InsideRequest labels last →
        input.round turn = some (next, events) → waiting.udp.NoticeKeeps next.udp events := by
  intro claimed
  have run := Machine.Run.drive (machine false 2048 ⟨1, 2⟩ [plainArrival 5, plainArrival 8,
    plainArrival 7, noticeArrival 6 7 3]) [readyTurn, readyTurn, readyTurn]
    (fun _ _ _ _ _ performed => performed) (.start rfl) rfl
  have keeps := claimed _ _ _ _ _ _ run readyTurn _ _ 7 _ _ rfl rfl
    ⟨(6, 7), rfl, by decide⟩ rfl
  have lost := keeps.packets 7 _ rfl (by decide +kernel)
  revert lost
  decide +kernel

end UdpInput
end Xineliboutput.Udp
