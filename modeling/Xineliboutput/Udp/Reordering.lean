import Xineliboutput.Udp.Delivery

/-!
# Frames that arrive out of order

Frames arrive repeatedly and in any order in which none is more than 31 numbers
away from the others. The receiver then holds exactly what has arrived ahead of
the first frame missing, and delivers the frames in order, once each, provided
that frame 0 is the first to arrive, that no frame arrives again behind all the
frames up to it, and that a padding packet never finds a gap in front of it.
-/

namespace Xineliboutput.Udp

open Xineliboutput.Foundation Xineliboutput.StreamHeaders Xineliboutput.Client

set_option autoImplicit false

/-- The frames 0, 1, 2, … up to a total arrive in the given order, each at least
once and none 32 or more numbers early or late. -/
structure Reordering (frames : Nat → Frame) (maxSize total : Nat) (order : List Nat) : Prop where
  media : ∀ number, number < total → (frames number).Media maxSize
  pos : ∀ number, number < total → (frames number).pos < 2 ^ 64
  seq : ∀ number, number < total → (frames number).seq = number % 256
  known : ∀ number ∈ order, number < total
  complete : ∀ number, number < total → number ∈ order
  spread : EachAfter (fun before number =>
    (∀ early, early + 32 ≤ number → early ∈ before) ∧ ∀ late ∈ before, late < number + 32) order

def StartsAtZero (order : List Nat) : Prop :=
  EachAfter (fun before number => before = [] → number = 0) order

/-- No frame arrives when all frames up to it have arrived before. -/
def NoLateRepeat (order : List Nat) : Prop :=
  EachAfter (fun before number => ¬ ∀ early, early ≤ number → early ∈ before) order

def NoGap (arrived : List Nat) : Prop := ∀ late ∈ arrived, ∀ early, early < late → early ∈ arrived

/-- No gap is left when a padding packet has arrived. -/
def PaddingBehindAll (frames : Nat → Frame) (order : List Nat) : Prop :=
  EachAfter (fun before number =>
    (frames number).carriesPadding = true → NoGap (before ++ [number])) order

instance (arrived : List Nat) : Decidable (NoGap arrived) :=
  inferInstanceAs (Decidable (∀ late ∈ arrived, ∀ early, early < late → _))

instance (order : List Nat) : Decidable (StartsAtZero order) :=
  inferInstanceAs (Decidable (EachAfter _ order))

instance (order : List Nat) : Decidable (NoLateRepeat order) :=
  inferInstanceAs (Decidable (EachAfter _ order))

instance (frames : Nat → Frame) (order : List Nat) : Decidable (PaddingBehindAll frames order) :=
  inferInstanceAs (Decidable (EachAfter _ order))

def firstPackets (frames : Nat → Frame) (count : Nat) : List Packet :=
  (List.range count).map fun number => (frames number).packet []

theorem first_packets_succ (frames : Nat → Frame) (count : Nat) :
    firstPackets frames (count + 1) = firstPackets frames count ++ [(frames count).packet []] := by
  simp [firstPackets, List.range_succ]

namespace UdpData

/-- The queue holds what has arrived and not been served yet, in its slots. -/
structure Sorted (frames : Nat → Frame) (arrived : List Nat) (served : Nat) (udp : UdpData) :
    Prop where
  counted : udp.Counted
  next : udp.nextSeq = served % 256
  behind : ∀ number, number < served → number ∈ arrived
  ahead : ∀ number ∈ arrived, number < served + 32
  filled : ∀ number ∈ arrived, (frames number).payload ≠ []
  held : ∀ distance, distance < 256 → served + distance ∈ arrived →
    ∃ beyond, udp.queue.get (served + distance) = some ((frames (served + distance)).packet beyond)
  free : ∀ distance, distance < 256 → served + distance ∉ arrived →
    udp.queue.get (served + distance) = none
  padding : udp.isPadding = true → NoGap arrived

section Queue

variable {frames : Nat → Frame} {arrived : List Nat} {served : Nat} {udp : UdpData}

theorem Sorted.get_next (sorted : Sorted frames arrived served udp) (distance : Nat) :
    udp.queue.get (udp.nextSeq + distance) = udp.queue.get (served + distance) := by
  apply udp.queue.get_congr
  rw [sorted.next]
  omega

theorem Sorted.queued_le (sorted : Sorted frames arrived served udp) : udp.queued ≤ 64 := by
  have few : udp.queue.occupied ≤ 32 := by
    apply udp.queue.occupied_le_of_stretch served 32
    intro place held
    have bound := place.isLt
    have reached : Fin.ofNat 256 (served + (place.val + 256 - served % 256) % 256) = place := by
      apply Fin.ext
      simp only [Fin.val_ofNat]
      omega
    refine ⟨(place.val + 256 - served % 256) % 256, ?_, reached⟩
    by_contra far
    have absent : served + (place.val + 256 - served % 256) % 256 ∉ arrived := by
      intro member
      have near := sorted.ahead _ member
      omega
    have vacant := sorted.free _ (Nat.mod_lt _ (by decide)) absent
    rw [CyclicSlots.get, reached] at vacant
    simp [vacant] at held
  rw [sorted.counted.queued]
  omega

theorem Sorted.window_kept (sorted : Sorted frames arrived served udp) {windowed : UdpData}
    (kept : udp.WindowKept windowed) : windowed = udp := by
  have few := sorted.queued_le
  cases kept with
  | inside few => rfl
  | exceeded many distance first => omega

theorem Sorted.skip_stays (sorted : Sorted frames arrived served udp)
    (isPadding : udp.isPadding = true) {distance : Nat} (first : udp.FirstHeld distance) :
    distance = 0 := by
  by_contra moved
  have near := first.near
  have vacant := first.vacant 0 (Nat.pos_of_ne_zero moved)
  have found := first.held
  rw [sorted.get_next] at vacant found
  have reached : served + distance ∈ arrived := by
    by_contra absent
    rw [sorted.free distance near absent] at found
    simp at found
  have present := sorted.padding isPadding _ reached served (by omega)
  obtain ⟨beyond, stands⟩ := sorted.held 0 (by decide) present
  rw [vacant] at stands
  contradiction

theorem Sorted.head (sorted : Sorted frames arrived served udp) {packet : Packet}
    (found : udp.queue.get udp.nextSeq = some packet) :
    served ∈ arrived ∧ packet.received = (frames served).packet [] ∧ packet.payload ≠ [] := by
  have here := sorted.get_next 0
  rw [Nat.add_zero, found] at here
  have present : served ∈ arrived := by
    by_contra absent
    have vacant := sorted.free 0 (by decide) absent
    rw [← here] at vacant
    contradiction
  obtain ⟨beyond, stands⟩ := sorted.held 0 (by decide) present
  rw [← here, Nat.add_zero] at stands
  obtain rfl := Option.some.inj stands
  exact ⟨present, rfl, sorted.filled served present⟩

theorem Sorted.take (sorted : Sorted frames arrived served udp) {packet : Packet}
    (found : udp.queue.get udp.nextSeq = some packet) :
    Sorted frames arrived (served + 1) (udp.takeNext packet) := by
  obtain ⟨present, -, -⟩ := sorted.head found
  have remains (distance : Nat) (inside : distance < 255) :
      (udp.takeNext packet).queue.get (served + 1 + distance) =
        udp.queue.get (served + (distance + 1)) := by
    rw [show served + 1 + distance = served + (distance + 1) by omega]
    simp only [takeNext]
    rw [udp.queue.get_put_other none (by rw [sorted.next]; omega)]
  refine ⟨sorted.counted.take_next found, ?_, ?_, ?_, sorted.filled, ?_, ?_, sorted.padding⟩
  · simp only [takeNext, nextSeqOf, sorted.next]
    omega
  · intro number lower
    rcases Nat.lt_succ_iff_lt_or_eq.mp lower with before | rfl
    · exact sorted.behind number before
    · exact present
  · intro number member
    have near := sorted.ahead number member
    omega
  · intro distance inside member
    have near := sorted.ahead _ member
    rw [remains distance (by omega), show served + 1 + distance = served + (distance + 1) by omega]
    exact sorted.held (distance + 1) (by omega) (by
      rwa [show served + (distance + 1) = served + 1 + distance by omega])
  · intro distance inside absent
    by_cases last : distance = 255
    · subst last
      have same : (served + 1 + 255) % 256 = udp.nextSeq % 256 := by
        rw [sorted.next]
        omega
      rw [CyclicSlots.get_congr _ same]
      exact CyclicSlots.get_put_same _ _ _
    · rw [remains distance (by omega)]
      apply sorted.free (distance + 1) (by omega)
      rwa [show served + (distance + 1) = served + 1 + distance by omega]

theorem Sorted.run (sorted : Sorted frames arrived served udp) {labels : List (List Event)}
    {reached : UdpData} (run : (queueMachine udp).Run labels reached) :
    ∃ now, Sorted frames arrived now reached ∧
      firstPackets frames now = firstPackets frames served ++
        (labels.flatten.filterMap UdpInput.delivered?).map Packet.received := by
  apply queue_run_invariant (fun labels reached => ∃ now, Sorted frames arrived now reached ∧
    firstPackets frames now = firstPackets frames served ++
      (labels.flatten.filterMap UdpInput.delivered?).map Packet.received) _ _ run
  · exact ⟨served, sorted, by simp⟩
  · rintro labels state events next ⟨now, here, packets⟩ move
    cases move with
    | skip distance isPadding first =>
        have stays := here.skip_stays isPadding first
        subst stays
        refine ⟨now, ?_, by simpa using packets⟩
        rw [Nat.add_zero, Nat.mod_eq_of_lt here.counted.nextBound]
        exact here
    | pass packet found empty => exact absurd empty (here.head found).2.2
    | deliver packet found filled =>
        obtain ⟨-, same, -⟩ := here.head found
        refine ⟨now + 1, here.take found, ?_⟩
        rw [first_packets_succ, packets, ← same]
        simp [UdpInput.delivered?]

theorem Sorted.process_queue (sorted : Sorted frames arrived served udp) {result : QueueResult}
    (processes : udp.udpProcessQueue = some result) :
    ∃ now, Sorted frames arrived now result.udp ∧
      firstPackets frames now = firstPackets frames served ++
        (result.events.filterMap UdpInput.delivered?).map Packet.received := by
  obtain ⟨windowed, labels, kept, processed, -⟩ := sorted.counted.process_queue_cases processes
  obtain rfl := sorted.window_kept kept
  rw [← processed.events]
  exact sorted.run processed.run

theorem Sorted.process_resend (sorted : Sorted frames arrived served udp) :
    Sorted frames arrived served udp.udpProcessResend.1 := by
  obtain ⟨queue, -, nextSeq⟩ := process_resend_kept udp
  have setting := process_resend_setting udp
  refine ⟨sorted.counted.process_resend, by rw [nextSeq, sorted.next], sorted.behind, sorted.ahead,
    sorted.filled, ?_, ?_, ?_⟩
  · rw [queue]
    exact sorted.held
  · rw [queue]
    exact sorted.free
  · rw [setting.isPadding]
    exact sorted.padding

theorem Sorted.absent (sorted : Sorted frames arrived served udp)
    (waits : udp.queue.get udp.nextSeq = none) : served ∉ arrived := by
  intro present
  obtain ⟨beyond, stands⟩ := sorted.held 0 (by decide) present
  rw [← sorted.get_next 0, Nat.add_zero, waits] at stands
  contradiction

/-- The number of an arrival that the receiver can put into its place. -/
structure Arrives (frames : Nat → Frame) (arrived : List Nat) (served : Nat) (udp : UdpData)
    (number : Nat) : Prop where
  seq : (frames number).seq = number % 256
  behind : served ≤ number
  near : number < served + 32
  started : udp.receivedFrames = -1 → number = served
  padding : (frames number).carriesPadding = true → NoGap (arrived ++ [number])

theorem Arrives.next {number : Nat} (arrives : Arrives frames arrived served udp number)
    (sorted : Sorted frames arrived served udp) (beyond : List UInt8) :
    (udp.note ((frames number).packet beyond)).nextSeq = served % 256 := by
  simp only [note, Frame.packet]
  split
  · rename_i initially
    rw [arrives.seq, Nat.mod_mod, arrives.started initially]
  · exact sorted.next

theorem Arrives.inside {number : Nat} (arrives : Arrives frames arrived served udp number)
    (sorted : Sorted frames arrived served udp) (beyond : List UInt8) :
    (udp.note ((frames number).packet beyond)).insideWindow = true := by
  have noted := sorted.counted.note ((frames number).packet beyond)
  have current : (udp.note ((frames number).packet beyond)).currentSeq = number % 256 := by
    simp only [note, Frame.packet, arrives.seq, Nat.mod_mod]
  have behind := arrives.behind
  have near := arrives.near
  simp only [insideWindow, decide_eq_true_eq,
    add_seq_offset noted.currentBound noted.nextBound]
  rw [current, arrives.next sorted]
  omega

theorem Sorted.place (sorted : Sorted frames arrived served udp) {number maxSize : Nat}
    (arrives : Arrives frames arrived served udp number)
    (media : (frames number).Media maxSize) (beyond : List UInt8) :
    Sorted frames (arrived ++ [number]) served
      ((udp.note ((frames number).packet beyond)).place ((frames number).packet beyond)) := by
  have behind := arrives.behind
  have near := arrives.near
  have slot (distance : Nat) (inside : distance < 256) :
      ((udp.note ((frames number).packet beyond)).place
          ((frames number).packet beyond)).queue.get (served + distance) =
        if served + distance = number then some ((frames number).packet beyond)
        else udp.queue.get (served + distance) := by
    simp only [UdpData.place, note, CyclicSlots.get_put, Frame.packet, arrives.seq, Nat.mod_mod]
    by_cases here : served + distance = number
    · rw [if_pos here, if_pos (by rw [here])]
    · rw [if_neg here, if_neg (by omega)]
  refine ⟨(sorted.counted.note _).place _, arrives.next sorted beyond, ?_, ?_, ?_, ?_, ?_, ?_⟩
  · intro early lower
    exact List.mem_append_left _ (sorted.behind early lower)
  · intro other member
    rcases List.mem_append.mp member with earlier | last
    · exact sorted.ahead other earlier
    · rwa [List.mem_singleton.mp last]
  · intro other member
    rcases List.mem_append.mp member with earlier | last
    · exact sorted.filled other earlier
    · rw [List.mem_singleton.mp last]
      exact media_not_empty media
  · intro distance inside member
    rw [slot distance inside]
    by_cases here : served + distance = number
    · rw [if_pos here, here]
      exact ⟨beyond, rfl⟩
    · rw [if_neg here]
      apply sorted.held distance inside
      exact (List.mem_append.mp member).resolve_right fun last =>
        here (List.mem_singleton.mp last)
  · intro distance inside absent
    rw [List.mem_append, not_or, List.mem_singleton] at absent
    rw [slot distance inside, if_neg absent.2]
    exact sorted.free distance inside absent.1
  · intro isPadding
    apply arrives.padding
    rw [← (media_data media beyond).2.1]
    exact isPadding

theorem queue_result_not_reset (result : QueueResult) : Event.reset ∉ result.events := by
  simp [QueueResult.events]

theorem Sorted.answer (sorted : Sorted frames arrived served udp) {answered : UdpData}
    {events : List Event} (answers : udp.answer = some (answered, events)) :
    Event.reset ∉ events ∧ ∃ now, Sorted frames arrived now answered ∧
      firstPackets frames now = firstPackets frames served ++
        (events.filterMap UdpInput.delivered?).map Packet.received := by
  obtain ⟨result, processes, outcome⟩ := answer_cases answers
  obtain ⟨now, after, packets⟩ := sorted.process_queue processes
  have quiet := queue_result_not_reset result
  rcases outcome with ⟨rfl, rfl⟩ | ⟨rfl, rfl⟩
  · exact ⟨quiet, now, after, packets⟩
  · refine ⟨?_, now, after.process_resend, ?_⟩
    · rw [List.mem_append, not_or]
      refine ⟨quiet, ?_⟩
      intro reset
      obtain ⟨first, last, pos, request⟩ := process_resend_asks result.udp reset
      contradiction
    · have undelivered : result.udp.udpProcessResend.2.filterMap UdpInput.delivered? = [] := by
        apply List.filterMap_eq_nil_iff.mpr
        intro event member
        obtain ⟨first, last, pos, rfl⟩ := process_resend_asks result.udp member
        rfl
      rw [List.filterMap_append, undelivered, List.append_nil, packets]

theorem Sorted.receive (sorted : Sorted frames arrived served udp) {number maxSize : Nat}
    (arrives : Arrives frames arrived served udp number)
    (media : (frames number).Media maxSize) (beyond : List UInt8) :
    ∃ received events now, udp.receive ((frames number).packet beyond) = some (received, events) ∧
      Sorted frames (arrived ++ [number]) now received ∧ Event.reset ∉ events ∧
      firstPackets frames now = firstPackets frames served ++
        (events.filterMap UdpInput.delivered?).map Packet.received ∧
      received.receivedFrames ≠ -1 ∧ received.serverAddress = udp.serverAddress := by
  have placed := sorted.place arrives media beyond
  obtain ⟨answered, events, answers, -⟩ := placed.counted.answer
  obtain ⟨noReset, now, after, packets⟩ := placed.answer answers
  have setting := answer_setting placed.counted answers
  refine ⟨answered, _, now, by
    rw [sorted.counted.receive_inside (arrives.inside sorted beyond), answers, Option.map_some],
    after, ?_, ?_, ?_, setting.serverAddress⟩
  · rw [List.mem_append, not_or]
    exact ⟨by simp, noReset⟩
  · have replaced (old : Option Packet) :
        (old.toList.map Event.freed).filterMap UdpInput.delivered? = [] := by
      cases old <;> simp [UdpInput.delivered?]
    rw [List.filterMap_append, replaced, List.nil_append, packets]
  · rw [setting.receivedFrames]
    exact note_started udp ((frames number).packet beyond)

end Queue

end UdpData

namespace UdpInput

/-- The arrivals that the client has read, and the frames it has returned. -/
structure InOrder (frames : Nat → Frame) (total : Nat) (order : List Nat)
    (labels : List (Turn × List Event)) (input : UdpInput) (place served : Nat) : Prop where
  remaining : input.socket.length + place = order.length
  delivered : ((eventsOf labels).filterMap delivered?).map Packet.received =
    firstPackets frames served
  noReset : Event.reset ∉ eventsOf labels
  kept : ∀ number ∈ order.take place, number < served ∨
    ∃ beyond, input.udp.queue.get number = some ((frames number).packet beyond)
  progress : ∀ turn, input.Attentive turn → ∃ next events,
    input.round turn = some (next, events) ∧
      ((∃ packet, .delivered packet ∈ events) ∨
        next.socket.length + 1 = input.socket.length ∨ input.socket = [] ∧ served = total)

/-- In every run of the client, whatever the memory of its buffers holds, the
frames come out in order, once each, none is lost and the link is not reset. -/
def DeliversInOrder (frames : Nat → Frame) (maxSize total : Nat) (order : List Nat)
    (server : Address) : Prop :=
  ∀ memory labels input,
    (machine false maxSize server
      (Frame.arrivals server memory (order.map frames))).Run labels input →
      ∃ place served, InOrder frames total order labels input place served

structure Ordering (frames : Nat → Frame) (maxSize : Nat) (server : Address)
    (memory : Nat → List UInt8) (order : List Nat) (labels : List (Turn × List Event))
    (input : UdpInput) (place served : Nat) : Prop where
  rtp : input.rtp = false
  bufferSize : input.maxSize = maxSize
  address : input.udp.serverAddress = server
  bound : place ≤ order.length
  socket : input.socket = (Frame.arrivals server memory (order.map frames)).drop place
  started : input.udp.receivedFrames = -1 → order.take place = []
  sorted : input.udp.Sorted frames (order.take place) served
  delivered : ((eventsOf labels).filterMap delivered?).map Packet.received =
    firstPackets frames served
  noReset : Event.reset ∉ eventsOf labels

section Link

variable {frames : Nat → Frame} {maxSize total : Nat} {server : Address}
  {memory : Nat → List UInt8} {order : List Nat} {labels : List (Turn × List Event)}
  {input : UdpInput} {place served : Nat}

/-- Every arrival finds its place, if the receiver waits for a frame in front of it. -/
theorem arrives_next (reordering : Reordering frames maxSize total order)
    (zero : StartsAtZero order) (late : NoLateRepeat order)
    (padding : PaddingBehindAll frames order) {udp : UdpData} (more : place < order.length)
    (sorted : udp.Sorted frames (order.take place) served) (absent : served ∉ order.take place)
    (started : udp.receivedFrames = -1 → order.take place = []) :
    UdpData.Arrives frames (order.take place) served udp order[place] where
  seq := reordering.seq _ (reordering.known _ (List.getElem_mem more))
  behind := by
    by_contra before
    apply late place more
    intro early lower
    exact sorted.behind early (by omega)
  near := by
    by_contra far
    exact absent ((reordering.spread place more).1 served (by omega))
  started := by
    intro initially
    have none_yet := started initially
    have first := zero place more none_yet
    cases served with
    | zero => exact first
    | succ served =>
        have earlier := sorted.behind 0 (Nat.succ_pos served)
        rw [none_yet] at earlier
        contradiction
  padding := padding place more

theorem Ordering.serve
    (ordering : Ordering frames maxSize server memory order labels input place served)
    {result : QueueResult} (processes : input.udp.udpProcessQueue = some result) (turn : Turn) :
    ∃ now, Ordering frames maxSize server memory order (labels ++ [(turn, result.events)])
      { input with udp := result.udp } place now := by
  obtain ⟨now, sorted, packets⟩ := ordering.sorted.process_queue processes
  have setting := UdpData.process_queue_setting ordering.sorted.counted processes
  refine ⟨now, ordering.rtp, ordering.bufferSize, setting.serverAddress.trans ordering.address,
    ordering.bound, ordering.socket, ?_, sorted, ?_, ?_⟩
  · intro initially
    exact ordering.started (setting.receivedFrames.symm.trans initially)
  · rw [events_of_snoc, List.filterMap_append, List.map_append, ordering.delivered, packets]
  · rw [events_of_snoc, List.mem_append, not_or]
    exact ⟨ordering.noReset, UdpData.queue_result_not_reset result⟩

theorem Ordering.congr {other : List (Turn × List Event)}
    (ordering : Ordering frames maxSize server memory order labels input place served)
    (same : eventsOf other = eventsOf labels) :
    Ordering frames maxSize server memory order other input place served := by
  refine ⟨ordering.rtp, ordering.bufferSize, ordering.address, ordering.bound, ordering.socket,
    ordering.started, ordering.sorted, ?_, ?_⟩
  · rw [same, ordering.delivered]
  · rw [same]
    exact ordering.noReset

theorem Ordering.read (reordering : Reordering frames maxSize total order)
    (zero : StartsAtZero order) (late : NoLateRepeat order)
    (padding : PaddingBehindAll frames order)
    (ordering : Ordering frames maxSize server memory order labels input place served)
    (waits : input.udp.queue.get input.udp.nextSeq = none) {arrival : Arrival}
    {rest : List Arrival} (pending : input.socket = arrival :: rest) (turn : Turn) :
    ∃ handled events now, { input with socket := rest }.handle arrival = some (handled, events) ∧
      Ordering frames maxSize server memory order (labels ++ [(turn, events)]) handled
        (place + 1) now ∧ handled.socket = rest := by
  have more : place < order.length := by
    by_contra none_left
    have short : (Frame.arrivals server memory (order.map frames)).length ≤ place := by
      simpa [Frame.arrivals] using none_left
    rw [ordering.socket, List.drop_eq_nil_of_le short] at pending
    contradiction
  have inside : place < (order.map frames).length := by simpa using more
  have taken := pending
  rw [ordering.socket, arrivals_drop server memory _ inside, List.cons.injEq] at taken
  obtain ⟨rfl, rest_eq⟩ := taken
  have known := reordering.known _ (List.getElem_mem more)
  have media := reordering.media _ known
  have seq := reordering.seq _ known
  have numbered : (frames order[place]).Numbered :=
    ⟨reordering.pos _ known, by rw [seq]; exact Nat.mod_lt _ (by decide)⟩
  have arrives := arrives_next reordering zero late padding more ordering.sorted
    (ordering.sorted.absent waits) ordering.started
  obtain ⟨received, events, now, receives, sorted, noReset, packets, started, address⟩ :=
    ordering.sorted.receive arrives media (memory place)
  have sender := ordering.address
  have size := ordering.bufferSize
  subst sender
  subst size
  have prefixes : order.take (place + 1) = order.take place ++ [order[place]] :=
    (List.take_concat_get' order place more).symm
  refine ⟨{ input with udp := received, socket := rest }, events, now, ?_, ?_, rfl⟩
  · rw [List.getElem_map, handle_media { input with socket := rest } ordering.rtp numbered media,
      receives]
    rfl
  · refine ⟨ordering.rtp, rfl, address, more, rest_eq.symm, fun initially => absurd initially started,
      ?_, ?_, ?_⟩
    · rw [prefixes]
      exact sorted
    · rw [events_of_snoc, List.filterMap_append, List.map_append, ordering.delivered, packets]
    · rw [events_of_snoc, List.mem_append, not_or]
      exact ⟨ordering.noReset, noReset⟩

theorem Ordering.round (reordering : Reordering frames maxSize total order)
    (zero : StartsAtZero order) (late : NoLateRepeat order)
    (padding : PaddingBehindAll frames order)
    (ordering : Ordering frames maxSize server memory order labels input place served)
    {turn : Turn} {next : UdpInput} {events : List Event}
    (steps : input.round turn = some (next, events)) :
    ∃ place now,
      Ordering frames maxSize server memory order (labels ++ [(turn, events)]) next place now := by
  cases round_cases steps with
  | rests nothing => exact ⟨place, served, ordering.congr (by simp)⟩
  | serves nothing result processes =>
      obtain ⟨now, after⟩ := ordering.serve processes turn
      exact ⟨place, now, after⟩
  | @reads result processes unanswered arrival rest pending takes handled more handles =>
      obtain ⟨now, before⟩ := ordering.serve processes turn
      have waits := (drained_of_unanswered ordering.sorted.counted processes unanswered).waits
      obtain ⟨same, events, after, again, reached, -⟩ :=
        before.read reordering zero late padding waits pending turn
      have agree := again.symm.trans handles
      simp only [Option.some.injEq, Prod.mk.injEq] at agree
      obtain ⟨rfl, rfl⟩ := agree
      exact ⟨place + 1, after, reached.congr (by
        rw [events_of_snoc, events_of_snoc, events_of_snoc, List.append_assoc])⟩

theorem ordering_run (reordering : Reordering frames maxSize total order)
    (zero : StartsAtZero order) (late : NoLateRepeat order)
    (padding : PaddingBehindAll frames order)
    (run : (machine false maxSize server
      (Frame.arrivals server memory (order.map frames))).Run labels input) :
    ∃ place served, Ordering frames maxSize server memory order labels input place served := by
  apply run.invariant fun labels input =>
    ∃ place served, Ordering frames maxSize server memory order labels input place served
  · intro input begins
    obtain rfl := begins
    refine ⟨0, 0, rfl, rfl, rfl, Nat.zero_le _, rfl, fun _ => rfl, ?_, rfl, by simp [eventsOf]⟩
    exact ⟨UdpData.counted_init server, rfl, by simp, by simp, by simp, by simp, by
      intro distance _ _
      simp [new, initUdpData], by simp [new, initUdpData]⟩
  · rintro labels input ⟨turn, events⟩ next ⟨place, served, ordering⟩ steps
    exact ordering.round reordering zero late padding steps

/-- An attentive round returns a frame, or reads an arrival, or all is done. -/
theorem Ordering.progress (reordering : Reordering frames maxSize total order)
    (zero : StartsAtZero order) (late : NoLateRepeat order)
    (padding : PaddingBehindAll frames order)
    (ordering : Ordering frames maxSize server memory order labels input place served)
    {turn : Turn} (attentive : input.Attentive turn) :
    ∃ next events, input.round turn = some (next, events) ∧
      ((∃ packet, .delivered packet ∈ events) ∨
        next.socket.length + 1 = input.socket.length ∨ input.socket = [] ∧ served = total) := by
  obtain ⟨awake, reads⟩ := attentive_goes_on attentive
  obtain ⟨-, result, -, processes, -, -, -⟩ :=
    UdpData.process_queue_moves ordering.sorted.counted
  cases returned : result.returned with
  | some packet =>
      refine ⟨{ input with udp := result.udp }, result.events, ?_, .inl ⟨packet, ?_⟩⟩
      · simp [UdpInput.round, awake, processes, returned]
      · simp [QueueResult.events, returned]
  | none =>
      obtain ⟨now, before⟩ := ordering.serve processes turn
      have waits := (drained_of_unanswered ordering.sorted.counted processes returned).waits
      cases pending : input.socket with
      | nil =>
          refine ⟨{ input with udp := result.udp }, result.events, ?_, .inr (.inr ⟨rfl, ?_⟩)⟩
          · simp only [UdpInput.round, awake, Bool.false_eq_true, if_false, processes, returned,
              Option.isSome_none, Bool.false_or, reads, pending]
          · have finished : order.length ≤ place := by
              have left := congrArg List.length (ordering.socket.symm.trans pending)
              simp only [Frame.arrivals, List.length_drop, List.length_mapIdx, List.length_map,
                List.length_nil] at left
              omega
            have unmoved : now = served := by
              have silent : result.events.filterMap delivered? = [] := by
                simp [QueueResult.events, returned, delivered?]
              have same := before.delivered
              rw [events_of_snoc, List.filterMap_append, silent, List.append_nil,
                ordering.delivered] at same
              have lengths := congrArg List.length same
              simp only [firstPackets, List.length_map, List.length_range] at lengths
              exact lengths.symm
            subst unmoved
            have absent := before.sorted.absent waits
            rw [List.take_of_length_le finished] at absent
            have all : total ≤ now := by
              by_contra fewer
              exact absent (reordering.complete now (by omega))
            by_contra more
            have early := before.sorted.behind total (by omega)
            rw [List.take_of_length_le finished] at early
            exact absurd (reordering.known total early) (Nat.lt_irrefl total)
      | cons arrival rest =>
          obtain ⟨handled, events, after, handles, -, left⟩ :=
            before.read reordering zero late padding waits pending turn
          refine ⟨handled, result.events ++ events, ?_, .inr (.inl ?_)⟩
          · simp only [UdpInput.round, awake, Bool.false_eq_true, if_false, processes, returned,
              Option.isSome_none, Bool.false_or, reads, pending, handles, Option.map_some]
          · rw [left, List.length_cons]

theorem reordered_frames_in_order (reordering : Reordering frames maxSize total order)
    (zero : StartsAtZero order) (late : NoLateRepeat order)
    (padding : PaddingBehindAll frames order) (server : Address) :
    DeliversInOrder frames maxSize total order server := by
  intro memory labels input run
  obtain ⟨place, served, ordering⟩ := ordering_run reordering zero late padding run
  have size : (Frame.arrivals server memory (order.map frames)).length = order.length := by
    simp [Frame.arrivals]
  have bound := ordering.bound
  refine ⟨place, served, ?_, ordering.delivered, ordering.noReset, ?_, ?_⟩
  · rw [ordering.socket, List.length_drop, size]
    omega
  · intro number member
    by_cases done : number < served
    · exact .inl done
    · right
      have near := ordering.sorted.ahead number member
      have held := ordering.sorted.held (number - served) (by omega)
      rw [show served + (number - served) = number by omega] at held
      exact held member
  · intro turn attentive
    exact ordering.progress reordering zero late padding attentive

end Link

/-! ## Concrete arrivals -/

def sampleFrame (idle : Nat) (number : Nat) : Frame :=
  ⟨33, number, number, number % 256, 0,
    if number = idle then [0, 0, 1, 0xbe] else [0x47, UInt8.ofNat number, 0, 0]⟩

theorem sample_reordering (idle total : Nat) {order : List Nat}
    (known : ∀ number ∈ order, number < total) (complete : ∀ number, number < total → number ∈ order)
    (few : total ≤ 32) : Reordering (sampleFrame idle) 2048 total order where
  media := by
    intro number bound
    refine ⟨?_, .inl ?_, ?_⟩
    · simp only [sampleFrame]
      split
      · right
        decide
      · left
        rfl
    · simp only [sampleFrame, controlPos]
      omega
    · simp only [sampleFrame, udpHeaderSize]
      split <;> simp
  pos := by
    intro number bound
    simp only [sampleFrame]
    omega
  seq := fun _ _ => rfl
  known := known
  complete := complete
  spread := by
    intro place bound
    have small := known _ (List.getElem_mem bound)
    refine ⟨fun early lower => by omega, ?_⟩
    intro other member
    have otherSmall := known other (List.mem_of_mem_take member)
    omega

theorem reordered_frames_in_order_four_frames :
    DeliversInOrder (sampleFrame 3) 2048 4 [0, 2, 2, 1, 3] ⟨1, 2⟩ :=
  reordered_frames_in_order (sample_reordering 3 4 (by decide) (by decide) (by decide))
    (by decide) (by decide) (by decide) ⟨1, 2⟩

theorem not_in_order_of_reset {frames : Nat → Frame} {maxSize total : Nat} {order : List Nat}
    {server : Address} {memory : Nat → List UInt8} {labels : List (Turn × List Event)}
    {input : UdpInput}
    (run : (machine false maxSize server
      (Frame.arrivals server memory (order.map frames))).Run labels input)
    (reset : Event.reset ∈ eventsOf labels) : ¬ DeliversInOrder frames maxSize total order server := by
  intro delivers
  obtain ⟨_, _, inOrder⟩ := delivers _ _ _ run
  exact inOrder.noReset reset

set_option maxRecDepth 2000 in
/-- Each of the three further conditions is needed: frame 0 arrives again when it has
been delivered, frame 1 arrives first, and padding packet 2 arrives in front of
frame 1. -/
theorem reordering_alone_resets :
    (¬ ∀ frames maxSize total order server, Reordering frames maxSize total order →
      StartsAtZero order → PaddingBehindAll frames order →
        DeliversInOrder frames maxSize total order server) ∧
    (¬ ∀ frames maxSize total order server, Reordering frames maxSize total order →
      NoLateRepeat order → PaddingBehindAll frames order →
        DeliversInOrder frames maxSize total order server) ∧
    ¬ ∀ frames maxSize total order server, Reordering frames maxSize total order →
      StartsAtZero order → NoLateRepeat order →
        DeliversInOrder frames maxSize total order server := by
  refine ⟨?_, ?_, ?_⟩
  · intro claimed
    have run := Machine.Run.drive (machine false 2048 ⟨1, 2⟩
      (Frame.arrivals ⟨1, 2⟩ (fun _ => []) ([0, 0].map (sampleFrame 9)))) [readyTurn, readyTurn]
      (fun _ _ _ _ _ performed => performed) (.start rfl) rfl
    exact not_in_order_of_reset run (by decide +kernel) (claimed (sampleFrame 9) 2048 1 [0, 0] _
      (sample_reordering 9 1 (by decide) (by decide) (by decide)) (by decide) (by decide))
  · intro claimed
    have run := Machine.Run.drive (machine false 2048 ⟨1, 2⟩
      (Frame.arrivals ⟨1, 2⟩ (fun _ => []) ([1, 0].map (sampleFrame 9)))) [readyTurn, readyTurn]
      (fun _ _ _ _ _ performed => performed) (.start rfl) rfl
    exact not_in_order_of_reset run (by decide +kernel) (claimed (sampleFrame 9) 2048 2 [1, 0] _
      (sample_reordering 9 2 (by decide) (by decide) (by decide)) (by decide) (by decide))
  · intro claimed
    have run := Machine.Run.drive (machine false 2048 ⟨1, 2⟩
      (Frame.arrivals ⟨1, 2⟩ (fun _ => []) ([0, 2, 1].map (sampleFrame 2))))
      [readyTurn, readyTurn, readyTurn]
      (fun _ _ _ _ _ performed => performed) (.start rfl) rfl
    exact not_in_order_of_reset run (by decide +kernel) (claimed (sampleFrame 2) 2048 3 [0, 2, 1] _
      (sample_reordering 2 3 (by decide) (by decide) (by decide)) (by decide) (by decide))

end UdpInput
end Xineliboutput.Udp
