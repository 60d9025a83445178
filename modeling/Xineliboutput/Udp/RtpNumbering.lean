import Xineliboutput.Udp.PaddingPosition

/-!
# RTP sequence numbers of the frames sent

`MakeFrame` advances `m_SeqNo` and `m_RtpSeqNo` together, but `cUdpBackLog::Clear`
takes back only the first of them. The frames that `Clear` withdraws keep their
RTP numbers, so that those transmitted before and after it are as far apart as if
the withdrawn ones had been lost on the way.
-/

namespace Xineliboutput.Udp

open Xineliboutput.Foundation Xineliboutput.StreamHeaders

set_option autoImplicit false

namespace Scheduler

def Operation.keepsClients : Operation → Bool
  | .addHandle _ _ | .removeHandle _ _ => false
  | .poll _ | .queue _ _ _ | .queuePadding | .clear | .startWaiting | .wake | .take
  | .transmit => true

def FreshWithClients (scheduler : Scheduler) : Prop :=
  scheduler.hasClients = true ∧ ∃ nanoseconds handles wmem master,
    scheduler = { new nanoseconds with handles := handles, wmem := wmem, master := master }

def fixedClientsMachine : Machine Scheduler (Operation × Effect) where
  initial := FreshWithClients
  step scheduler label next := machine.step scheduler label next ∧ label.1.keepsClients = true

/-- How many frames were withdrawn by `Clear` just before each frame that was
transmitted, since the one before it. -/
def withdrawnBefore (labels : List (Operation × Effect)) : List Nat :=
  (Fifo.Withdrawals.ofMoves (labels.filterMap observe)).before.take (sentFrames labels).length

theorem fixed_clients_fifo :
    Machine.Simulation fixedClientsMachine (Fifo.machine Frame) observe Represents where
  initially := by
    rintro scheduler ⟨-, nanoseconds, handles, wmem, master, rfl⟩
    exact ⟨⟨[], none⟩, rfl, (new_represents nanoseconds).congr rfl rfl rfl rfl⟩
  matched := by
    rintro scheduler model label next related ⟨performed, -⟩
    exact simulates_fifo.matched scheduler model label next related performed

/-- One operation leaves the RTP number as it is, or gives it to a frame and moves on. -/
theorem rtp_number_step {scheduler next : Scheduler} {operation : Operation} {effect : Effect}
    (performed : scheduler.perform operation = some (next, effect))
    (keeps : operation.keepsClients = true) :
    match (observe (operation, effect)).bind Fifo.put? with
    | some frame => frame.rtpSeq = scheduler.backLog.rtpSeqNo % 2 ^ 16 ∧
        next.backLog.rtpSeqNo = (scheduler.backLog.rtpSeqNo + 1) % 2 ^ 16
    | none => next.backLog.rtpSeqNo = scheduler.backLog.rtpSeqNo := by
  cases perform_cases performed with
  | aside operation nothing same thread =>
      have unmoved : next.backLog.rtpSeqNo = scheduler.backLog.rtpSeqNo := by rw [same.backLog]
      rcases nothing with rfl | rfl <;> exact unmoved
  | queues stream streamPos data room => exact ⟨rfl, rfl⟩
  | pads room => exact ⟨rfl, rfl⟩
  | padsIdle waiting drained => exact ⟨rfl, rfl⟩
  | clears => rfl
  | flushes fd nanoseconds idle => simp [Operation.keepsClients] at keeps
  | waits ready => rfl
  | wakes waiting => rfl
  | takes ready found some_pending => rfl
  | transmits sends found => rfl

theorem queued_numbered {labels : List (Operation × Effect)} {scheduler : Scheduler}
    (run : fixedClientsMachine.Run labels scheduler) :
    ∃ base, scheduler.backLog.rtpSeqNo % 2 ^ 16 =
        (base + (queuedFrames labels).length) % 2 ^ 16 ∧
      Fifo.NumberedFrom (2 ^ 16) base Frame.rtpSeq (queuedFrames labels) := by
  induction run with
  | start initially =>
      obtain ⟨-, nanoseconds, handles, wmem, master, rfl⟩ := initially
      refine ⟨nanoseconds, rfl, ?_⟩
      intro place frame found
      simp [queuedFrames] at found
  | @snoc labels scheduler prior label next move ih =>
      obtain ⟨base, counter, numbered⟩ := ih
      obtain ⟨performed, keeps⟩ := move
      have step := rtp_number_step performed keeps
      have grown := queued_frames_snoc labels label
      refine ⟨base, ?_⟩
      cases put : (observe label).bind Fifo.put? with
      | none =>
          rw [put] at step grown
          rw [grown, Option.toList_none, List.append_nil, step]
          exact ⟨counter, numbered⟩
      | some frame =>
          rw [put] at step grown
          obtain ⟨given, advanced⟩ := step
          rw [grown, Option.toList_some, advanced]
          refine ⟨?_, numbered.snoc (by rw [given, counter])⟩
          rw [List.length_append, List.length_singleton]
          omega

/-- The RTP numbers of the frames transmitted are consecutive exactly if between
each two of them `Clear` withdrew nothing, or whole turns of the numbering. -/
theorem rtp_consecutive_iff {labels : List (Operation × Effect)} {scheduler : Scheduler}
    (run : fixedClientsMachine.Run labels scheduler) :
    Fifo.Consecutive (2 ^ 16) ((sentFrames labels).map Frame.rtpSeq) ↔
      ∀ withdrawn ∈ (withdrawnBefore labels).tail, 2 ^ 16 ∣ withdrawn := by
  obtain ⟨base, -, numbered⟩ := queued_numbered run
  obtain ⟨model, queueRun, -⟩ := fixed_clients_fifo.run run
  exact Fifo.handed_consecutive_iff queueRun numbered

def oneClient : Scheduler :=
  { new 0xfffe with
    handles := 5 :: List.replicate 15 (-1)
    wmem := 0x8000 :: List.replicate 15 0 }

theorem one_client_fresh : oneClient.FreshWithClients :=
  ⟨by decide, 0xfffe, _, _, _, rfl⟩

theorem fixed_clients_drive (operations : List Operation)
    (keep : operations.all Operation.keepsClients = true)
    {labels : List (Operation × Effect)} {final : Scheduler}
    (driven : Machine.drive perform oneClient operations = some (final, labels)) :
    fixedClientsMachine.Run labels final := by
  have run := Machine.Run.drive fixedClientsMachine operations
    (fun scheduler next effect operation member performed =>
      ⟨performed, List.all_eq_true.mp keep operation member⟩)
    (.start one_client_fresh) driven
  simpa using run

/-- A frame is sent, another one is withdrawn, and a third one is sent. -/
def sendClearSend : List Operation :=
  [.queue .sidVdr 0 [0x47], .take, .transmit, .queue .sidVdr 1 [0x47], .clear,
    .queue .sidVdr 1 [0x47], .take, .transmit]

theorem rtp_consecutive_iff_send_clear_send :
    ∃ labels scheduler, fixedClientsMachine.Run labels scheduler ∧
      (Fifo.Consecutive (2 ^ 16) ((sentFrames labels).map Frame.rtpSeq) ↔
        ∀ withdrawn ∈ (withdrawnBefore labels).tail, 2 ^ 16 ∣ withdrawn) :=
  have run := fixed_clients_drive sendClearSend (by decide) rfl
  ⟨_, _, run, rtp_consecutive_iff run⟩

/-- The network loses nothing, yet the receiver sees one number missing. -/
theorem clear_leaves_rtp_gap :
    ¬ ∀ labels scheduler, fixedClientsMachine.Run labels scheduler →
      Fifo.Consecutive (2 ^ 16) ((sentFrames labels).map Frame.rtpSeq) := by
  intro claimed
  have run := fixed_clients_drive sendClearSend (by decide) rfl
  have held := claimed _ _ run
  revert held
  decide +kernel

end Scheduler
end Xineliboutput.Udp
