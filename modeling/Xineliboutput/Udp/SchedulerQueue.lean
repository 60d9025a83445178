import Xineliboutput.Foundation.Fifo
import Xineliboutput.Udp.Scheduler

/-!
# The scheduler's queue is a queue

The frames between `m_QueueNextSeq` and the backlog's next sequence number are the
waiting items of a FIFO queue, and the slot just behind `m_QueueNextSeq` holds the
frame in transit. The three counters agree in every reachable state, which keeps
the slot that `MakeFrame` is about to fill out of the way of both.
-/

namespace Xineliboutput.Udp

open Xineliboutput.Foundation Xineliboutput.StreamHeaders

set_option autoImplicit false

namespace Scheduler

structure SameQueue (scheduler next : Scheduler) : Prop where
  queueNextSeq : next.queueNextSeq = scheduler.queueNextSeq
  queuePending : next.queuePending = scheduler.queuePending
  backLog : next.backLog = scheduler.backLog

inductive Performed (scheduler : Scheduler) : Operation → Effect → Scheduler → Prop where
  | aside (operation : Operation) {effect : Effect} {next : Scheduler}
      (nothing : effect = .unchanged ∨ effect = .refused) (same : SameQueue scheduler next)
      (thread : next.thread = scheduler.thread) : Performed scheduler operation effect next
  | queues (stream : StreamId) (streamPos : Nat) (data : List UInt8)
      (room : scheduler.queuePending < maxLiveQueueSize) :
      Performed scheduler (.queue stream streamPos data)
        (.queued (scheduler.backLog.frameFor stream streamPos data))
        (scheduler.append stream streamPos data)
  | pads (room : scheduler.queuePending < maxLiveQueueSize) :
      Performed scheduler .queuePadding
        (.queued (scheduler.backLog.frameFor .sidPadding scheduler.paddingPos padding))
        scheduler.queuePaddingInternal
  | clears : Performed scheduler .clear .flushed scheduler.clear
  | flushes (fd : Int) (nanoseconds : Nat) (idle : ∀ number, scheduler.thread ≠ .sending number) :
      Performed scheduler (.removeHandle fd nanoseconds) .flushed { scheduler with
        handles := handlesWithout scheduler.handles fd
        queueNextSeq := 0
        queuePending := 0
        backLog := .new nanoseconds }
  | waits (ready : scheduler.thread = .ready) :
      Performed scheduler .startWaiting .unchanged { scheduler with thread := .waiting }
  | wakes (waiting : scheduler.thread = .waiting) :
      Performed scheduler .wake .unchanged { scheduler with thread := .ready }
  | padsIdle (waiting : scheduler.thread = .waiting) (drained : scheduler.queuePending = 0) :
      Performed scheduler .wake
        (.queued (scheduler.backLog.frameFor .sidPadding scheduler.paddingPos padding))
        { scheduler.queuePaddingInternal with thread := .ready }
  | takes {frame : Frame} (ready : scheduler.thread = .ready)
      (found : scheduler.backLog.get scheduler.queueNextSeq = some frame)
      (some_pending : scheduler.queuePending ≠ 0) :
      Performed scheduler .take (.taken frame) { scheduler with
        queueNextSeq := (scheduler.queueNextSeq + 1) % 256
        queuePending := scheduler.queuePending - 1
        thread := .sending scheduler.queueNextSeq }
  | transmits {number : Nat} {frame : Frame} (sends : scheduler.thread = .sending number)
      (found : scheduler.backLog.get number = some frame) :
      Performed scheduler .transmit (.transmitted frame) { scheduler with thread := .ready }

theorem queue_limit_le (scheduler : Scheduler) : scheduler.queueLimit ≤ maxLiveQueueSize := by
  unfold queueLimit maxQueueSize maxLiveQueueSize
  split <;> omega

theorem remove_handle_cases (scheduler : Scheduler) (fd : Int) (nanoseconds : Nat) :
    (scheduler.removeHandle fd nanoseconds).hasClients = true ∧
      SameQueue scheduler (scheduler.removeHandle fd nanoseconds) ∧
      (scheduler.removeHandle fd nanoseconds).thread = scheduler.thread ∨
    (scheduler.removeHandle fd nanoseconds).hasClients = false ∧
      scheduler.removeHandle fd nanoseconds = { scheduler with
        handles := handlesWithout scheduler.handles fd
        queueNextSeq := 0
        queuePending := 0
        backLog := .new nanoseconds } := by
  by_cases left : ({ scheduler with
      handles := handlesWithout scheduler.handles fd } : Scheduler).hasClients = true
  · left
    simp only [removeHandle, if_pos left]
    exact ⟨left, ⟨rfl, rfl, rfl⟩, trivial⟩
  · right
    simp only [removeHandle, if_neg left]
    exact ⟨by simpa [hasClients] using left, trivial⟩

theorem perform_cases {scheduler next : Scheduler} {operation : Operation} {effect : Effect}
    (performed : scheduler.perform operation = some (next, effect)) :
    Performed scheduler operation effect next := by
  cases operation with
  | addHandle fd sendBuffer =>
      simp only [perform, Option.some.injEq, Prod.mk.injEq] at performed
      obtain ⟨rfl, rfl⟩ := performed
      simp only [addHandle]
      split <;> exact .aside _ (.inl rfl) ⟨rfl, rfl, rfl⟩ rfl
  | removeHandle fd nanoseconds =>
      simp only [perform] at performed
      rcases remove_handle_cases scheduler fd nanoseconds with ⟨left, same, thread⟩ | ⟨gone, flushed⟩
      · rw [if_pos left, Option.some.injEq, Prod.mk.injEq] at performed
        obtain ⟨rfl, rfl⟩ := performed
        exact .aside _ (.inl rfl) same thread
      · rw [if_neg (by simp [gone]), flushed] at performed
        cases at_ : scheduler.thread with
        | sending number => simp [at_] at performed
        | ready | waiting =>
            simp only [at_, Option.some.injEq, Prod.mk.injEq] at performed
            obtain ⟨rfl, rfl⟩ := performed
            rw [← at_]
            exact .flushes fd nanoseconds (by simp [at_])
  | poll master =>
      simp only [perform, Option.some.injEq, Prod.mk.injEq] at performed
      obtain ⟨rfl, rfl⟩ := performed
      exact .aside _ (.inl rfl) ⟨rfl, rfl, rfl⟩ rfl
  | queue stream streamPos data =>
      have limit := queue_limit_le scheduler
      simp only [perform] at performed
      split at performed
      · simp only [Option.some.injEq, Prod.mk.injEq] at performed
        obtain ⟨rfl, rfl⟩ := performed
        exact .aside _ (.inl rfl) ⟨rfl, rfl, rfl⟩ rfl
      · split at performed
        all_goals
          simp only [Option.some.injEq, Prod.mk.injEq] at performed
          obtain ⟨rfl, rfl⟩ := performed
        · exact .aside _ (.inr rfl) ⟨rfl, rfl, rfl⟩ rfl
        · exact .queues stream streamPos data (by omega)
  | queuePadding =>
      simp only [perform] at performed
      split at performed
      · simp only [Option.some.injEq, Prod.mk.injEq] at performed
        obtain ⟨rfl, rfl⟩ := performed
        exact .aside _ (.inl rfl) ⟨rfl, rfl, rfl⟩ rfl
      · split at performed
        all_goals
          simp only [Option.some.injEq, Prod.mk.injEq] at performed
          obtain ⟨rfl, rfl⟩ := performed
        · exact .aside _ (.inl rfl) ⟨rfl, rfl, rfl⟩ rfl
        · refine .pads ?_
          simp only [maxLiveQueueSize]
          omega
  | clear =>
      simp only [perform, Option.some.injEq, Prod.mk.injEq] at performed
      obtain ⟨rfl, rfl⟩ := performed
      exact .clears
  | startWaiting =>
      simp only [perform] at performed
      split at performed
      · split at performed
        · simp only [Option.some.injEq, Prod.mk.injEq] at performed
          obtain ⟨rfl, rfl⟩ := performed
          exact .waits ‹_›
        · simp at performed
      all_goals simp at performed
  | wake =>
      simp only [perform] at performed
      split at performed
      · split at performed
        all_goals
          simp only [Option.some.injEq, Prod.mk.injEq] at performed
          obtain ⟨rfl, rfl⟩ := performed
        · exact .padsIdle ‹_› ‹_›
        · exact .wakes ‹_›
      all_goals simp at performed
  | take =>
      simp only [perform] at performed
      split at performed
      · split at performed
        · rename_i ready
          simp only [Option.map_eq_some_iff, Prod.mk.injEq] at performed
          obtain ⟨frame, found, rfl, rfl⟩ := performed
          exact .takes ‹_› found (by simpa using (by simpa using ready : _ ∧ _).2)
        · simp at performed
      all_goals simp at performed
  | transmit =>
      simp only [perform] at performed
      split at performed
      · simp only [Option.map_eq_some_iff, Prod.mk.injEq] at performed
        obtain ⟨frame, found, rfl, rfl⟩ := performed
        exact .transmits ‹_› found
      all_goals simp at performed

/-- What the rest of the program may know of an operation: its move on the queue. -/
def observe (label : Operation × Effect) : Option (Fifo.Move Frame) :=
  match label.2 with
  | .queued frame => some (.put frame)
  | .taken frame => some (.take frame)
  | .transmitted frame => some (.hand frame)
  | .flushed => some .giveUp
  | .refused | .unchanged => none

/-- The frame in transit sits in the slot behind `m_QueueNextSeq`. -/
def TransitMatches (scheduler : Scheduler) (inTransit : Option Frame) : Prop :=
  match scheduler.thread with
  | .sending number =>
      number = (scheduler.queueNextSeq + 255) % 256 ∧
        ∃ frame, inTransit = some frame ∧ scheduler.backLog.get number = some frame
  | .ready | .waiting => inTransit = none

structure Represents (scheduler : Scheduler) (model : Fifo Frame) : Prop where
  nextBound : scheduler.queueNextSeq < 256
  pending : model.waiting.length = scheduler.queuePending
  limited : scheduler.queuePending ≤ maxLiveQueueSize
  numbering : scheduler.backLog.seqNo = (scheduler.queueNextSeq + scheduler.queuePending) % 256
  stored : ∀ place, place < scheduler.queuePending →
    scheduler.backLog.get (scheduler.queueNextSeq + place) = model.waiting[place]?
  transit : TransitMatches scheduler model.inTransit

theorem new_represents (nanoseconds : Nat) : Represents (new nanoseconds) ⟨[], none⟩ where
  nextBound := by simp [new]
  pending := rfl
  limited := by simp [new]
  numbering := rfl
  stored := by
    intro place bound
    simp [new] at bound
  transit := rfl

theorem append_represents {scheduler : Scheduler} {model : Fifo Frame}
    (related : Represents scheduler model) (room : scheduler.queuePending < maxLiveQueueSize)
    (stream : StreamId) (streamPos : Nat) (data : List UInt8) :
    Represents (scheduler.append stream streamPos data)
      { model with waiting :=
          model.waiting ++ [scheduler.backLog.frameFor stream streamPos data] } where
  nextBound := related.nextBound
  pending := by simp [append, related.pending]
  limited := room
  numbering := by
    have before := related.numbering
    simp only [append, BackLog.make_frame_seq_no]
    omega
  stored := by
    intro place bound
    have before := related.numbering
    have nextBound := related.nextBound
    simp only [append, maxLiveQueueSize] at bound room ⊢
    rw [BackLog.get_make_frame, before]
    by_cases last : place = scheduler.queuePending
    · rw [if_pos (by rw [last]), last, ← related.pending]
      simp
    · rw [if_neg (by omega), related.stored place (by omega),
        List.getElem?_append_left (by rw [related.pending]; omega)]
  transit := by
    have before := related.transit
    have numbering := related.numbering
    have nextBound := related.nextBound
    unfold TransitMatches at before ⊢
    cases at_ : scheduler.thread with
    | ready => simpa [append, at_] using before
    | waiting => simpa [append, at_] using before
    | sending number =>
        simp only [at_, append, maxLiveQueueSize] at before room ⊢
        obtain ⟨behind, frame, carried, held⟩ := before
        refine ⟨behind, frame, carried, ?_⟩
        rw [BackLog.get_make_frame, if_neg (by omega)]
        exact held

theorem clear_represents {scheduler : Scheduler} {model : Fifo Frame}
    (related : Represents scheduler model) :
    Represents scheduler.clear { model with waiting := [] } where
  nextBound := related.nextBound
  pending := rfl
  limited := Nat.zero_le _
  numbering := by
    simp only [clear, Nat.add_zero]
    exact scheduler.backLog.clear_seq_no _ _ related.numbering
  stored := by
    intro place bound
    simp [clear] at bound
  transit := by simpa [TransitMatches, clear] using related.transit

theorem take_represents {scheduler : Scheduler} {model : Fifo Frame}
    (related : Represents scheduler model) {frame : Frame}
    (found : scheduler.backLog.get scheduler.queueNextSeq = some frame)
    (some_pending : scheduler.queuePending ≠ 0) :
    ∃ rest, model.waiting = frame :: rest ∧
      Represents { scheduler with
        queueNextSeq := (scheduler.queueNextSeq + 1) % 256
        queuePending := scheduler.queuePending - 1
        thread := .sending scheduler.queueNextSeq } ⟨rest, some frame⟩ := by
  have length := related.pending
  have head := related.stored 0 (by omega)
  rw [Nat.add_zero, found] at head
  cases waiting : model.waiting with
  | nil => simp [waiting] at head
  | cons first rest =>
      have same : frame = first := by simpa [waiting] using head
      rw [waiting, List.length_cons] at length
      refine ⟨rest, by rw [same], ?_⟩
      exact {
        nextBound := Nat.mod_lt _ (by decide)
        pending := by
          show rest.length = scheduler.queuePending - 1
          omega
        limited := by
          have limited := related.limited
          show scheduler.queuePending - 1 ≤ _
          omega
        numbering := by
          have numbering := related.numbering
          show scheduler.backLog.seqNo = _
          simp only
          omega
        stored := by
          intro place bound
          simp only at bound ⊢
          have before := related.stored (place + 1) (by omega)
          rw [waiting, List.getElem?_cons_succ] at before
          rw [← before]
          apply BackLog.get_congr
          omega
        transit := by
          have nextBound := related.nextBound
          refine ⟨?_, frame, rfl, found⟩
          simp only
          omega }

theorem transmit_represents {scheduler : Scheduler} {model : Fifo Frame}
    (related : Represents scheduler model) {number : Nat}
    (sends : scheduler.thread = .sending number) {frame : Frame}
    (found : scheduler.backLog.get number = some frame) :
    model.inTransit = some frame ∧
      Represents { scheduler with thread := .ready } ⟨model.waiting, none⟩ := by
  have before := related.transit
  simp only [TransitMatches, sends] at before
  obtain ⟨-, carriedFrame, carried, held⟩ := before
  rw [found, Option.some.injEq] at held
  refine ⟨by rw [carried, held], ?_⟩
  exact {
    nextBound := related.nextBound
    pending := related.pending
    limited := related.limited
    numbering := related.numbering
    stored := related.stored
    transit := rfl }

/-- Flushing everything needs the transmission to be over, which
`m_BackLogDeleteMutex` ensures. -/
theorem flush_represents {scheduler : Scheduler} {model : Fifo Frame}
    (related : Represents scheduler model) (handles : List Int) (nanoseconds : Nat)
    (idle : ∀ number, scheduler.thread ≠ .sending number) :
    Represents { scheduler with
      handles := handles
      queueNextSeq := 0
      queuePending := 0
      backLog := .new nanoseconds } { model with waiting := [] } where
  nextBound := by simp
  pending := rfl
  limited := Nat.zero_le _
  numbering := rfl
  stored := by
    intro place bound
    simp at bound
  transit := by
    have before := related.transit
    unfold TransitMatches at before ⊢
    cases at_ : scheduler.thread with
    | ready => simpa [at_] using before
    | waiting => simpa [at_] using before
    | sending number => exact absurd at_ (idle number)

theorem Represents.congr {scheduler other : Scheduler} {model : Fifo Frame}
    (related : Represents scheduler model) (next : other.queueNextSeq = scheduler.queueNextSeq)
    (pending : other.queuePending = scheduler.queuePending)
    (backLog : other.backLog = scheduler.backLog)
    (thread : TransitMatches other model.inTransit) : Represents other model where
  nextBound := next ▸ related.nextBound
  pending := pending ▸ related.pending
  limited := pending ▸ related.limited
  numbering := by rw [backLog, next, pending, related.numbering]
  stored := by
    intro place bound
    rw [backLog, next]
    exact related.stored place (pending ▸ bound)
  transit := thread

theorem perform_represents {scheduler next : Scheduler} {model : Fifo Frame}
    {operation : Operation} {effect : Effect} (related : Represents scheduler model)
    (performed : scheduler.perform operation = some (next, effect)) :
    match observe (operation, effect) with
    | none => Represents next model
    | some move => ∃ nextModel, Fifo.Step model move nextModel ∧ Represents next nextModel := by
  have transit := related.transit
  cases perform_cases performed with
  | aside operation nothing same thread =>
      have unmoved : Represents next model := by
        apply related.congr same.queueNextSeq same.queuePending same.backLog
        simpa only [TransitMatches, thread, same.queueNextSeq, same.backLog] using transit
      rcases nothing with rfl | rfl <;> exact unmoved
  | queues stream streamPos data room =>
      exact ⟨_, .put model _, append_represents related room stream streamPos data⟩
  | pads room =>
      exact ⟨_, .put model _, append_represents related room _ _ _⟩
  | clears => exact ⟨_, .giveUp model, clear_represents related⟩
  | flushes fd nanoseconds idle =>
      exact ⟨_, .giveUp model, flush_represents related _ nanoseconds idle⟩
  | waits ready =>
      simp only [TransitMatches, ready] at transit
      exact related.congr rfl rfl rfl transit
  | wakes waiting =>
      simp only [TransitMatches, waiting] at transit
      exact related.congr rfl rfl rfl transit
  | padsIdle waiting drained =>
      simp only [TransitMatches, waiting] at transit
      have padded := append_represents related (by rw [drained]; decide) .sidPadding
        scheduler.paddingPos padding
      exact ⟨_, .put model _, padded.congr rfl rfl rfl transit⟩
  | @takes frame ready found some_pending =>
      simp only [TransitMatches, ready] at transit
      obtain ⟨rest, waiting, after⟩ := take_represents related found some_pending
      refine ⟨⟨rest, some frame⟩, ?_, after⟩
      have shape : model = ⟨frame :: rest, none⟩ := by
        rw [← waiting, ← transit]
      rw [shape]
      exact .take frame rest
  | @transmits number frame sends found =>
      obtain ⟨carried, after⟩ := transmit_represents related sends found
      refine ⟨⟨model.waiting, none⟩, ?_, after⟩
      have shape : model = ⟨model.waiting, some frame⟩ := by
        rw [← carried]
      rw [shape]
      exact .hand frame model.waiting

theorem simulates_fifo : Machine.Simulation machine (Fifo.machine Frame) observe Represents where
  initially := by
    rintro scheduler ⟨nanoseconds, rfl⟩
    exact ⟨⟨[], none⟩, rfl, new_represents nanoseconds⟩
  matched := by
    rintro scheduler model ⟨operation, effect⟩ next related performed
    have answer := perform_represents related performed
    cases seen : observe (operation, effect) with
    | none => simpa only [seen] using answer
    | some move => simpa only [seen, Fifo.machine] using answer

/-- A slot whose frame is still to be sent or is being transmitted. -/
def InUse (scheduler : Scheduler) (number : Nat) : Prop :=
  (∃ place, place < scheduler.queuePending ∧
    number % 256 = (scheduler.queueNextSeq + place) % 256) ∨
  scheduler.thread = .sending number

theorem Represents.make_frame_elsewhere {scheduler : Scheduler} {model : Fifo Frame}
    (related : Represents scheduler model) {number : Nat} (used : scheduler.InUse number)
    (stream : StreamId) (streamPos : Nat) (data : List UInt8) :
    (scheduler.backLog.makeFrame stream streamPos data).get number =
      scheduler.backLog.get number := by
  have numbering := related.numbering
  have limited := related.limited
  have nextBound := related.nextBound
  simp only [maxLiveQueueSize] at limited
  rw [BackLog.get_make_frame, if_neg]
  cases used with
  | inl pending =>
      obtain ⟨place, bound, same⟩ := pending
      omega
  | inr sends =>
      have transit := related.transit
      simp only [TransitMatches, sends] at transit
      obtain ⟨behind, -⟩ := transit
      omega

theorem Represents.take_possible {scheduler : Scheduler} {model : Fifo Frame}
    (related : Represents scheduler model) (ready : scheduler.thread = .ready)
    (clients : scheduler.hasClients = true) (some_pending : scheduler.queuePending ≠ 0) :
    ∃ next frame, scheduler.perform .take = some (next, .taken frame) := by
  have length := related.pending
  have head := related.stored 0 (by omega)
  rw [List.getElem?_eq_getElem (by omega), Nat.add_zero] at head
  simp [perform, ready, clients, some_pending, head]

/-- In every reachable state the counters agree and the queue is short of a full
turn, so frames leave in the order they were queued with none skipped, and
`MakeFrame` never touches a slot that is still in use. -/
theorem frames_leave_in_order {labels : List (Operation × Effect)} {scheduler : Scheduler}
    (run : machine.Run labels scheduler) :
    scheduler.backLog.seqNo = (scheduler.queueNextSeq + scheduler.queuePending) % 256 ∧
    scheduler.queuePending < 255 ∧
    (∃ model, (Fifo.machine Frame).Run (labels.filterMap observe) model ∧
      model.waiting.length = scheduler.queuePending) ∧
    (scheduler.thread = .ready → scheduler.hasClients = true → scheduler.queuePending ≠ 0 →
      ∃ next frame, scheduler.perform .take = some (next, .taken frame)) ∧
    ∀ number, scheduler.InUse number → ∀ stream streamPos data,
      (scheduler.backLog.makeFrame stream streamPos data).get number =
        scheduler.backLog.get number := by
  obtain ⟨model, queueRun, related⟩ := simulates_fifo.run run
  have limited := related.limited
  simp only [maxLiveQueueSize] at limited
  exact ⟨related.numbering, by omega, ⟨model, queueRun, related.pending⟩,
    related.take_possible, fun number used => related.make_frame_elsewhere used⟩

theorem frames_leave_in_order_two_queued :
    ∃ labels scheduler, machine.Run labels scheduler ∧ (labels.filterMap observe).length = 3 ∧
      scheduler.backLog.seqNo = (scheduler.queueNextSeq + scheduler.queuePending) % 256 := by
  have run := Machine.Run.drive machine
    [.addHandle 5 none, .queue .sidVdr 0 [0x47, 1, 2], .queuePadding, .take]
    (fun _ _ _ _ _ performed => performed) (.start ⟨7, rfl⟩) rfl
  exact ⟨_, _, run, by decide, (frames_leave_in_order run).1⟩

end Scheduler
end Xineliboutput.Udp
