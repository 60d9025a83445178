import Xineliboutput.Udp.ReceiverQueue

/-!
# What a round of the receiver does

A round rests, serves the queue, or serves it and reads a datagram; a datagram is
dropped, executed, queued, or accepted as the answer to a request. Later proofs
about rounds go by these cases. A queue behind a packet that is not padding is
passed in the order of its slots, up to the first one that is free.
-/

namespace Xineliboutput.Udp

open Xineliboutput.Foundation Xineliboutput.StreamHeaders Xineliboutput.Client

set_option autoImplicit false

namespace UdpData

/-- What `answer` did: the queue was processed, and perhaps a request was sent. -/
theorem answer_cases {udp answered : UdpData} {events : List Event}
    (answers : udp.answer = some (answered, events)) :
    ∃ result, udp.udpProcessQueue = some result ∧
      ((answered = result.udp ∧ events = result.events) ∨
        (answered = result.udp.udpProcessResend.1 ∧
          events = result.events ++ result.udp.udpProcessResend.2)) := by
  simp only [answer] at answers
  cases processes : udp.udpProcessQueue with
  | none => simp [processes] at answers
  | some result =>
      refine ⟨result, rfl, ?_⟩
      simp only [processes] at answers
      split at answers
      · simp only [Option.some.injEq, Prod.mk.injEq] at answers
        exact .inl ⟨answers.1.symm, answers.2.symm⟩
      · simp only [Option.some.injEq, Prod.mk.injEq] at answers
        exact .inr ⟨answers.1.symm, answers.2.symm⟩

structure SameSetting (before after : UdpData) : Prop where
  serverAddress : after.serverAddress = before.serverAddress
  receivedFrames : after.receivedFrames = before.receivedFrames
  isPadding : after.isPadding = before.isPadding

theorem SameSetting.trans {first second third : UdpData} (before : SameSetting first second)
    (after : SameSetting second third) : SameSetting first third where
  serverAddress := after.serverAddress.trans before.serverAddress
  receivedFrames := after.receivedFrames.trans before.receivedFrames
  isPadding := after.isPadding.trans before.isPadding

theorem process_queue_setting {udp : UdpData} (counted : udp.Counted) {result : QueueResult}
    (processes : udp.udpProcessQueue = some result) : SameSetting udp result.udp := by
  obtain ⟨windowed, labels, kept, processed, -⟩ := counted.process_queue_cases processes
  have entered : SameSetting udp windowed := by cases kept <;> exact ⟨rfl, rfl, rfl⟩
  apply entered.trans
  apply queue_run_invariant (fun _ udp => SameSetting windowed udp) ⟨rfl, rfl, rfl⟩ _ processed.run
  intro _ _ _ _ before move
  apply before.trans
  cases move <;> exact ⟨rfl, rfl, rfl⟩

theorem process_resend_setting (udp : UdpData) : SameSetting udp udp.udpProcessResend.1 := by
  simp only [udpProcessResend]
  split
  · exact ⟨rfl, rfl, rfl⟩
  · split <;> exact ⟨rfl, rfl, rfl⟩

theorem answer_setting {udp answered : UdpData} {events : List Event} (counted : udp.Counted)
    (answers : udp.answer = some (answered, events)) : SameSetting udp answered := by
  obtain ⟨result, processes, ⟨rfl, -⟩ | ⟨rfl, -⟩⟩ := answer_cases answers
  · exact process_queue_setting counted processes
  · exact (process_queue_setting counted processes).trans (process_resend_setting result.udp)

/-- What becomes of a packet that the delivery loop takes. -/
def takeEvent (packet : Packet) : Event :=
  if packet.payload = [] then .freed packet else .delivered packet

/-- The queue has taken `count` packets, from the expected one on. -/
structure Passage (start : UdpData) (labels : List (List Event)) (udp : UdpData) (count : Nat) :
    Prop where
  few : count ≤ 256
  next : udp.nextSeq = (start.nextSeq + count) % 256
  length : labels.flatten.length = count
  taken : ∀ place, place < count → udp.queue.get (start.nextSeq + place) = none ∧
    ∃ packet, start.queue.get (start.nextSeq + place) = some packet ∧
      labels.flatten[place]? = some (takeEvent packet)
  kept : ∀ number, (∀ place, place < count → number % 256 ≠ (start.nextSeq + place) % 256) →
    udp.queue.get number = start.queue.get number
  isPadding : udp.isPadding = false

theorem move_takes {udp next : UdpData} {events : List Event} (plain : udp.isPadding = false)
    (move : udp.QueueMove events next) :
    ∃ packet, udp.queue.get udp.nextSeq = some packet ∧ events = [takeEvent packet] ∧
      next = udp.takeNext packet := by
  cases move with
  | skip distance isPadding first => simp [plain] at isPadding
  | pass packet found empty => exact ⟨packet, found, by rw [takeEvent, if_pos empty], rfl⟩
  | deliver packet found filled => exact ⟨packet, found, by rw [takeEvent, if_neg filled], rfl⟩

theorem Passage.move {start udp next : UdpData} {labels : List (List Event)} {events : List Event}
    {count : Nat} (passage : Passage start labels udp count) (move : udp.QueueMove events next) :
    Passage start (labels ++ [events]) next (count + 1) := by
  obtain ⟨packet, found, rfl, rfl⟩ := move_takes passage.isPadding move
  have here : udp.queue.get (start.nextSeq + count) = some packet := by
    rw [← found, passage.next, CyclicSlots.get_mod]
  have fresh : ∀ place, place < count →
      (start.nextSeq + count) % 256 ≠ (start.nextSeq + place) % 256 := by
    intro place lower same
    rw [udp.queue.get_congr same, (passage.taken place lower).1] at here
    contradiction
  have removed (number : Nat) : (udp.takeNext packet).queue.get number =
      if number % 256 = (start.nextSeq + count) % 256 then none else udp.queue.get number := by
    simp only [takeNext, CyclicSlots.get_put, passage.next, Nat.mod_mod]
  refine ⟨?_, ?_, ?_, ?_, ?_, passage.isPadding⟩
  · by_contra many
    have full : count = 256 := Nat.le_antisymm passage.few (by omega)
    exact fresh 0 (by omega) (by omega)
  · simp only [takeNext, nextSeqOf, passage.next]
    omega
  · simp [passage.length]
  · intro place lower
    by_cases last : place = count
    · subst last
      refine ⟨by rw [removed, if_pos rfl], packet, ?_, ?_⟩
      · rw [← passage.kept _ fresh, here]
      · simp [passage.length]
    · have before : place < count := by omega
      obtain ⟨gone, old, stood, event⟩ := passage.taken place before
      refine ⟨?_, old, stood, ?_⟩
      · rw [removed, if_neg (Ne.symm (fresh place before)), gone]
      · rw [List.flatten_append, List.getElem?_append_left (by rw [passage.length]; exact before),
          event]
  · intro number apart
    rw [removed, if_neg (apart count (Nat.lt_succ_self count))]
    exact passage.kept number fun place lower => apart place (by omega)

theorem passage_of_run {start udp : UdpData} {labels : List (List Event)}
    (nextBound : start.nextSeq < 256) (plain : start.isPadding = false)
    (run : (queueMachine start).Run labels udp) : ∃ count, Passage start labels udp count := by
  apply queue_run_invariant (fun labels udp => ∃ count, Passage start labels udp count) _ _ run
  · exact ⟨0, by omega, by rw [Nat.add_zero, Nat.mod_eq_of_lt nextBound], rfl, by simp,
      fun _ _ => rfl, plain⟩
  · rintro labels udp events next ⟨count, passage⟩ move
    exact ⟨count + 1, passage.move move⟩

end UdpData

namespace UdpInput

/-- The receiver at the moment when a round has taken a datagram from the socket,
with that datagram. -/
def takesArrival (input : UdpInput) (turn : Turn) : Option (UdpInput × Arrival) :=
  if !turn.running || turn.discardIndex < input.discardIndexDs then none
  else
    match input.udp.udpProcessQueue with
    | none => none
    | some result =>
        if result.returned.isSome || turn.actionPending || !turn.ready then none
        else
          match input.socket with
          | [] => none
          | arrival :: rest => some ({ input with udp := result.udp, socket := rest }, arrival)

/-- The last number of the notice that a datagram is accepted as. -/
def acceptedNotice (input : UdpInput) (arrival : Arrival) : Option Nat :=
  let packet := udpParseHeader input.rtp arrival
  if input.readSocketUdp arrival && isControlPacket packet then
    match readMissing (terminated packet.data) with
    | some (seq1, seq2, _) =>
        if seq1 = input.udp.nextSeq then some (seq2 % 256).toNat else none
    | none => none
  else none

inductive HandleCase (input : UdpInput) (arrival : Arrival) : UdpInput → List Event → Prop where
  | dropped (ordinary : input.acceptedNotice arrival = none) : HandleCase input arrival input []
  | executed (ordinary : input.acceptedNotice arrival = none) (data : List UInt8) :
      HandleCase input arrival
        { input with discardIndexDs := discardIndexAfter input.discardIndexDs data }
        [.control (dataStreamParseControl data)]
  | queued (ordinary : input.acceptedNotice arrival = none) (packet : Packet)
      (small : packet.seq < 256) {udp : UdpData} {events : List Event}
      (receives : input.udp.receive packet = some (udp, events)) :
      HandleCase input arrival { input with udp := udp } events
  | noticed (packet : Packet) (small : packet.seq < 256) (empty : packet.payload = [])
      (notPadding : dataIsPes packet.data = false)
      (accepted : input.acceptedNotice arrival = some packet.seq) {udp : UdpData}
      {events : List Event}
      (receives : { input.udp with nextSeq := packet.seq }.receive packet = some (udp, events)) :
      HandleCase input arrival { input with udp := udp } events

theorem notice_not_pes {data : List UInt8} {notice : Int × Int × Nat}
    (reads : readMissing data = some notice) : dataIsPes data = false := by
  simp only [readMissing] at reads
  split at reads
  · rename_i named
    cases data with
    | nil => simp [dataIsPes]
    | cons first rest =>
        rw [List.take_succ_cons, udpMissing, ascii, List.map_cons, List.cons.injEq] at named
        simp [dataIsPes, named.1]
  · simp at reads

theorem check_packet_small {packet : Packet} (valid : udpCheckPacket packet = true) :
    packet.seq < 256 := by
  simp only [udpCheckPacket, Bool.and_eq_true, decide_eq_true_eq] at valid
  exact Nat.lt_succ_of_le valid.2

theorem handle_cases {input handled : UdpInput} {arrival : Arrival} {events : List Event}
    (handles : input.handle arrival = some (handled, events)) :
    HandleCase input arrival handled events := by
  simp only [handle] at handles
  by_cases received : input.readSocketUdp arrival = true
  · simp only [if_pos received, udpParseControl] at handles
    by_cases control : isControlPacket (udpParseHeader input.rtp arrival) = true
    · simp only [if_pos control] at handles
      cases reads : readMissing (terminated (udpParseHeader input.rtp arrival).data) with
      | none =>
          simp only [reads, Option.some.injEq, Prod.mk.injEq] at handles
          obtain ⟨rfl, rfl⟩ := handles
          exact .executed (by simp [acceptedNotice, reads]) _
      | some notice =>
          obtain ⟨seq1, seq2, rpos⟩ := notice
          simp only [reads] at handles
          by_cases expected : seq1 = input.udp.nextSeq
          · simp only [if_pos expected] at handles
            have small : (seq2 % 256).toNat < 256 := by omega
            split at handles
            · simp only [Option.map_eq_some_iff, Prod.mk.injEq, Prod.exists] at handles
              obtain ⟨udp, more, receives, rfl, rfl⟩ := handles
              refine .noticed _ small rfl ?_ ?_ receives
              · simpa [Packet.data] using notice_not_pes reads
              · simp [acceptedNotice, received, control, reads, expected]
            · rename_i invalid
              simp [udpCheckPacket, udpSeqMask] at invalid
              omega
          · simp only [if_neg expected, Option.some.injEq, Prod.mk.injEq] at handles
            obtain ⟨rfl, rfl⟩ := handles
            exact .dropped (by simp [acceptedNotice, reads, expected])
    · simp only [if_neg control] at handles
      have ordinary : input.acceptedNotice arrival = none := by simp [acceptedNotice, control]
      split at handles
      · rename_i valid
        simp only [Option.map_eq_some_iff, Prod.mk.injEq, Prod.exists] at handles
        obtain ⟨udp, more, receives, rfl, rfl⟩ := handles
        exact .queued ordinary _ (check_packet_small valid) receives
      · simp only [Option.some.injEq, Prod.mk.injEq] at handles
        obtain ⟨rfl, rfl⟩ := handles
        exact .dropped ordinary
  · simp only [if_neg received, Option.some.injEq, Prod.mk.injEq] at handles
    obtain ⟨rfl, rfl⟩ := handles
    exact .dropped (by simp [acceptedNotice, received])

inductive RoundCase (input : UdpInput) (turn : Turn) : UdpInput → List Event → Prop where
  | rests (nothing : input.takesArrival turn = none) : RoundCase input turn input []
  | serves (nothing : input.takesArrival turn = none) (result : QueueResult)
      (processes : input.udp.udpProcessQueue = some result) :
      RoundCase input turn { input with udp := result.udp } result.events
  | reads (result : QueueResult) (processes : input.udp.udpProcessQueue = some result)
      (unanswered : result.returned = none) {arrival : Arrival} {rest : List Arrival}
      (waiting : input.socket = arrival :: rest)
      (takes : input.takesArrival turn =
        some ({ input with udp := result.udp, socket := rest }, arrival))
      {handled : UdpInput} {more : List Event}
      (handles : { input with udp := result.udp, socket := rest }.handle arrival =
        some (handled, more)) :
      RoundCase input turn handled (result.events ++ more)

theorem round_cases {input next : UdpInput} {turn : Turn} {events : List Event}
    (steps : input.round turn = some (next, events)) : RoundCase input turn next events := by
  simp only [round] at steps
  by_cases stays : (!turn.running || decide (turn.discardIndex < input.discardIndexDs)) = true
  · simp only [if_pos stays, Option.some.injEq, Prod.mk.injEq] at steps
    obtain ⟨rfl, rfl⟩ := steps
    exact .rests (by simp only [takesArrival, if_pos stays])
  · simp only [if_neg stays] at steps
    cases processes : input.udp.udpProcessQueue with
    | none => simp [processes] at steps
    | some result =>
        simp only [processes] at steps
        by_cases served : (result.returned.isSome || turn.actionPending || !turn.ready) = true
        · simp only [if_pos served, Option.some.injEq, Prod.mk.injEq] at steps
          obtain ⟨rfl, rfl⟩ := steps
          exact .serves (by simp only [takesArrival, if_neg stays, processes, if_pos served])
            result processes
        · simp only [if_neg served] at steps
          cases waiting : input.socket with
          | nil =>
              simp only [waiting, Option.some.injEq, Prod.mk.injEq] at steps
              obtain ⟨rfl, rfl⟩ := steps
              have same : ({ input with udp := result.udp } : UdpInput) =
                  { input with udp := result.udp, socket := [] } := by rw [← waiting]
              rw [← same]
              exact .serves (by simp only [takesArrival, if_neg stays, processes, if_neg served,
                waiting]) result processes
          | cons arrival rest =>
              simp only [waiting, Option.map_eq_some_iff, Prod.mk.injEq, Prod.exists] at steps
              obtain ⟨handled, more, handles, rfl, rfl⟩ := steps
              have unanswered : result.returned = none := by
                cases returned : result.returned with
                | none => rfl
                | some packet => simp [returned] at served
              exact .reads result processes unanswered waiting (by
                simp only [takesArrival, if_neg stays, processes, if_neg served, waiting]) handles

theorem drained_of_unanswered {udp : UdpData} (counted : udp.Counted) {result : QueueResult}
    (processes : udp.udpProcessQueue = some result) (unanswered : result.returned = none) :
    result.udp.Drained := by
  obtain ⟨_, _, -, processed, -⟩ := counted.process_queue_cases processes
  exact processed.drained unanswered

end UdpInput
end Xineliboutput.Udp
