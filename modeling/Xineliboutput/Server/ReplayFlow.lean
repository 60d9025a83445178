import Xineliboutput.Server.Connections
import Xineliboutput.Udp.Scheduler

/-!
# Flow control of replay

In replay without a local frontend `cXinelibServer::Poll` tells the player how many packets
it may play, from the free places of the UDP scheduler's queue. The count is taken under the
scheduler's lock and used when the lock has been left. Until `Play` comes, other threads may
put control messages into the same queue, for which nobody asks.
-/

namespace Xineliboutput.Server

open Xineliboutput.Foundation Xineliboutput.StreamHeaders
open Xineliboutput.Udp (Scheduler maxQueueSize maxLiveQueueSize)

set_option autoImplicit false

def defaultPollSize : Nat := 16

/-- A client that `Play` counts for the UDP queue. -/
def Slot.playsUdp (slot : Slot) : Bool :=
  slot.controlOpen &&
    (slot.configOk && slot.dataOpen || slot.connType == .http || slot.connType == .rtsp) &&
    slot.udp

/-- A client that `Xine_Control_Sync` counts for the UDP queue. -/
def Slot.controlsUdp (slot : Slot) : Bool :=
  slot.controlOpen && slot.configOk && slot.dataOpen && slot.udp

/-- Where the player is: it has not asked, it is inside `Poll`, with the counts of the
clients and what their writers have free, or `Poll` has returned a positive value. -/
inductive Player where
  | idle
  | polling (clients : Nat) (free freeHttp : Int)
  | granted (packets : Nat)
  deriving DecidableEq

structure Replay where
  slots : Fin maxClients → Slot
  multicastMask : Nat
  rtpAlwaysOn : Bool
  scheduler : Scheduler
  player : Player

namespace Replay

inductive Operation where
  | poll (writerFree : Fin maxClients → Int)
  | pollReturn
  | play (streamPos : Nat) (data : List UInt8)
  | control (text : List UInt8)
  | schedule (operation : Scheduler.Operation)

def rtpClients (replay : Replay) : Bool := replay.multicastMask ≠ 0 || replay.rtpAlwaysOn

def playQueues (replay : Replay) : Bool :=
  (List.finRange maxClients).any (fun cli => (replay.slots cli).playsUdp) || replay.rtpClients

def controlQueues (replay : Replay) : Bool :=
  (List.finRange maxClients).any (fun cli => (replay.slots cli).controlsUdp) || replay.rtpClients

def configured (replay : Replay) : List (Fin maxClients) :=
  (List.finRange maxClients).filter fun cli =>
    (replay.slots cli).controlOpen && (replay.slots cli).configOk

/-- `Clients` of `Poll`. -/
def clientCount (replay : Replay) : Nat :=
  replay.configured.length + if replay.multicastMask ≠ 0 then 1 else 0

/-- `Http` of `Poll`. -/
def streaming (replay : Replay) : List (Fin maxClients) :=
  (List.finRange maxClients).filter fun cli =>
    (replay.slots cli).controlOpen && !(replay.slots cli).configOk &&
      (replay.slots cli).connType == .http && (replay.slots cli).writer

/-- `min` of what the writers have free. -/
def leastFree (writerFree : Fin maxClients → Int) (clients : List (Fin maxClients)) : Int :=
  clients.foldl (fun free cli => min free (writerFree cli)) 0xfffff

/-- `Poll` up to where it waits in the scheduler, which it makes the master. -/
def poll (replay : Replay) (writerFree : Fin maxClients → Int) : Replay :=
  let free := leastFree writerFree
    (replay.configured.filter fun cli => (replay.slots cli).writer)
  let freeHttp := leastFree writerFree replay.streaming
  if replay.clientCount = 0 ∧ replay.streaming = [] then { replay with player := .idle }
  else if free < 8128 then { replay with player := .idle }
  else { replay with
    scheduler := replay.scheduler.setMaster true
    player := .polling replay.clientCount free freeHttp }

/-- What `cUdpScheduler::Poll` returns. -/
def freePlaces (scheduler : Scheduler) : Nat :=
  if scheduler.hasClients then maxQueueSize - scheduler.queuePending else defaultPollSize

/-- `Poll` behind the scheduler. -/
def pollResult (clients : Nat) (free freeHttp freeUdp : Int) : Int :=
  if freeUdp < 1 ∨ (clients = 0 ∧ freeHttp < 8128) then 0
  else max 0 (min (min free freeHttp / 2070) freeUdp)

/-- One step of the player, of a thread that sends a control message, of a thread that pads,
or of the scheduler's thread. `none` says that it cannot happen now. -/
def perform (replay : Replay) : Operation → Option (Replay × Scheduler.Effect)
  | .poll writerFree =>
      match replay.player with
      | .idle | .granted _ => some (replay.poll writerFree, .unchanged)
      | .polling _ _ _ => none
  | .pollReturn =>
      match replay.player with
      | .polling clients free freeHttp =>
          let packets := pollResult clients free freeHttp (freePlaces replay.scheduler)
          some ({ replay with
            player := if 0 < packets then .granted packets.toNat else .idle }, .unchanged)
      | .idle | .granted _ => none
  | .play streamPos data =>
      match replay.player with
      | .granted _ =>
          if replay.playQueues then
            (replay.scheduler.perform (.queue .sidVdr streamPos data)).map fun (next, effect) =>
              ({ replay with scheduler := next, player := .idle }, effect)
          else some ({ replay with player := .idle }, .unchanged)
      | .idle | .polling _ _ _ => none
  | .control text =>
      if replay.controlQueues then
        (replay.scheduler.perform (.queue .sidControl controlPos text)).map fun (next, effect) =>
          ({ replay with scheduler := next }, effect)
      else some (replay, .unchanged)
  | .schedule operation =>
      match operation with
      | .queuePadding | .startWaiting | .wake | .take | .transmit =>
          (replay.scheduler.perform operation).map fun (next, effect) =>
            ({ replay with scheduler := next }, effect)
      | .addHandle _ _ | .removeHandle _ _ | .poll _ | .queue _ _ _ | .clear => none

/-- Steps of any threads in any order, from where the scheduler may be once it has clients. -/
def machine : Machine Replay (Operation × Scheduler.Effect) where
  initial replay := replay.player = .idle ∧ replay.scheduler.hasClients = true ∧
    Scheduler.machine.Reachable replay.scheduler
  step replay label next := replay.perform label.1 = some (next, label.2)

def reserved (replay : Replay) : Nat :=
  match replay.player with
  | .granted _ => 1
  | .idle | .polling _ _ _ => 0

/-- A control message finds a place in the queue, and is not the one to take the place
granted to the player. -/
def LeavesPlace (replay : Replay) : Operation → Prop
  | .control _ => replay.scheduler.queuePending + replay.reserved < replay.scheduler.queueLimit
  | .poll _ | .pollReturn | .play _ _ | .schedule _ => True

def leavingMachine : Machine Replay (Operation × Scheduler.Effect) where
  initial := machine.initial
  step replay label next := machine.step replay label next ∧ replay.LeavesPlace label.1

/-! ## What the steps of the queue do -/

variable {replay next : Replay} {scheduler after : Scheduler}
  {effect : Scheduler.Effect}

theorem queue_full_or_queued (scheduler : Scheduler) (clients : scheduler.hasClients = true)
    (stream : StreamId) (streamPos : Nat) (data : List UInt8) :
    scheduler.queueLimit ≤ scheduler.queuePending ∧
      scheduler.perform (.queue stream streamPos data) = some (scheduler, .refused) ∨
    scheduler.queuePending < scheduler.queueLimit ∧
      scheduler.perform (.queue stream streamPos data) =
        some (scheduler.append stream streamPos data,
          .queued (scheduler.backLog.frameFor stream streamPos data)) := by
  have some_client : ¬ (!scheduler.hasClients) = true := by rw [clients]; decide
  rw [Scheduler.perform, if_neg some_client]
  by_cases full : scheduler.queueLimit ≤ scheduler.queuePending
  · exact .inl ⟨full, if_pos full⟩
  · exact .inr ⟨Nat.lt_of_not_le full, if_neg full⟩

/-- What padding and the scheduler's thread leave as it is, and that they fill the queue up
to three frames at most. -/
structure Background (before after : Scheduler) : Prop where
  handles : after.handles = before.handles
  master : after.master = before.master
  pending : after.queuePending ≤ before.queuePending ∨ after.queuePending ≤ 3

theorem background_step {operation : Scheduler.Operation}
    (own : operation = .queuePadding ∨ operation = .startWaiting ∨ operation = .wake ∨
      operation = .take ∨ operation = .transmit)
    (performed : scheduler.perform operation = some (after, effect)) :
    Background scheduler after ∧ effect ≠ .refused := by
  rcases own with rfl | rfl | rfl | rfl | rfl
  · rw [Scheduler.perform] at performed
    split at performed
    · cases performed
      exact ⟨⟨rfl, rfl, .inl (Nat.le_refl _)⟩, nofun⟩
    · split at performed
      · cases performed
        exact ⟨⟨rfl, rfl, .inl (Nat.le_refl _)⟩, nofun⟩
      · rename_i few
        cases performed
        apply And.intro _ nofun
        exact ⟨rfl, rfl, .inr (Nat.succ_le_succ (Nat.le_of_not_lt few))⟩
  · rw [Scheduler.perform] at performed
    split at performed
    · split at performed
      · cases performed
        exact ⟨⟨rfl, rfl, .inl (Nat.le_refl _)⟩, nofun⟩
      · exact nomatch performed
    all_goals exact nomatch performed
  · rw [Scheduler.perform] at performed
    split at performed
    · split at performed
      · rename_i drained
        cases performed
        apply And.intro _ nofun
        refine ⟨rfl, rfl, .inr ?_⟩
        show scheduler.queuePending + 1 ≤ 3
        omega
      · cases performed
        exact ⟨⟨rfl, rfl, .inl (Nat.le_refl _)⟩, nofun⟩
    all_goals exact nomatch performed
  · rw [Scheduler.perform] at performed
    split at performed
    · split at performed
      · rcases Option.map_eq_some_iff.mp performed with ⟨frame, _, same⟩
        cases same
        exact ⟨⟨rfl, rfl, .inl (Nat.sub_le _ 1)⟩, nofun⟩
      · exact nomatch performed
    all_goals exact nomatch performed
  · rw [Scheduler.perform] at performed
    split at performed
    · rcases Option.map_eq_some_iff.mp performed with ⟨frame, _, same⟩
      cases same
      exact ⟨⟨rfl, rfl, .inl (Nat.le_refl _)⟩, nofun⟩
    all_goals exact nomatch performed

/-- The scheduler has clients, and what `Poll` has granted is still free. -/
structure Granting (replay : Replay) : Prop where
  clients : replay.scheduler.hasClients = true
  master : replay.player ≠ .idle → replay.scheduler.master = true
  place : ∀ packets, replay.player = .granted packets →
    replay.scheduler.queuePending < maxQueueSize

theorem has_clients_same {before after : Scheduler} (same : after.handles = before.handles) :
    after.hasClients = before.hasClients := by
  rw [Scheduler.hasClients, Scheduler.hasClients, same]

theorem Granting.play (granting : Granting replay) {packets : Nat}
    (granted : replay.player = .granted packets) (stream : StreamId) (streamPos : Nat)
    (data : List UInt8) :
    replay.scheduler.perform (.queue stream streamPos data) =
      some (replay.scheduler.append stream streamPos data,
        .queued (replay.scheduler.backLog.frameFor stream streamPos data)) := by
  have master := granting.master (by rw [granted]; nofun)
  have place := granting.place packets granted
  have limit : replay.scheduler.queueLimit = maxQueueSize := by
    rw [Scheduler.queueLimit, if_pos master]
  rcases queue_full_or_queued replay.scheduler granting.clients stream streamPos data with
    full | queued
  · omega
  · exact queued.2

theorem pollResult_pos {clients : Nat} {free freeHttp freeUdp : Int}
    (positive : 0 < pollResult clients free freeHttp freeUdp) : 1 ≤ freeUdp := by
  rw [pollResult] at positive
  split at positive <;> omega

theorem granting_poll (granting : Granting replay) (writerFree : Fin maxClients → Int) :
    Granting (replay.poll writerFree) := by
  simp only [poll]
  split
  · exact ⟨granting.clients, fun asking => absurd rfl asking, nofun⟩
  · split
    · exact ⟨granting.clients, fun asking => absurd rfl asking, nofun⟩
    · exact ⟨granting.clients, fun _ => rfl, nofun⟩

theorem granting_return (granting : Granting replay) {packets : Int}
    (asking : replay.player ≠ .idle)
    (offered : 0 < packets → replay.scheduler.queuePending < maxQueueSize) :
    Granting { replay with player := if 0 < packets then .granted packets.toNat else .idle } := by
  split
  · rename_i positive
    exact ⟨granting.clients, fun _ => granting.master asking, fun _ _ => offered positive⟩
  · exact ⟨granting.clients, fun asks => absurd rfl asks, nofun⟩

/-- A message that leaves the player its place is queued behind what is there. -/
theorem granting_control (granting : Granting replay) (stream : StreamId) (streamPos : Nat)
    (data : List UInt8)
    (leaves : replay.scheduler.queuePending + replay.reserved < replay.scheduler.queueLimit) :
    replay.scheduler.perform (.queue stream streamPos data) =
        some (replay.scheduler.append stream streamPos data,
          .queued (replay.scheduler.backLog.frameFor stream streamPos data)) ∧
      Granting { replay with scheduler := replay.scheduler.append stream streamPos data } := by
  constructor
  · rcases queue_full_or_queued replay.scheduler granting.clients stream streamPos data with
      full | queued
    · omega
    · exact queued.2
  · refine ⟨granting.clients, granting.master, ?_⟩
    intro packets granted
    have player : replay.player = .granted packets := granted
    have master := granting.master (by rw [player]; nofun)
    rw [reserved, player, Scheduler.queueLimit, if_pos master] at leaves
    exact leaves

theorem granting_background (granting : Granting replay)
    (background : Background replay.scheduler after) :
    Granting { replay with scheduler := after } := by
  constructor
  · exact (has_clients_same background.handles).trans granting.clients
  · exact fun asking => background.master.trans (granting.master asking)
  · intro packets granted
    have place := granting.place packets granted
    have pending := background.pending
    show after.queuePending < maxQueueSize
    rw [maxQueueSize] at place ⊢
    omega

theorem schedule_cases {operation : Scheduler.Operation}
    (performed : replay.perform (.schedule operation) = some (next, effect)) :
    ∃ after, replay.scheduler.perform operation = some (after, effect) ∧
      (operation = .queuePadding ∨ operation = .startWaiting ∨ operation = .wake ∨
        operation = .take ∨ operation = .transmit) ∧
      next = { replay with scheduler := after } := by
  cases operation
  case addHandle | removeHandle | poll | queue | clear => exact nomatch performed
  all_goals
    rcases Option.map_eq_some_iff.mp performed with ⟨result, did, same⟩
    cases same
    exact ⟨result.1, did, by simp, rfl⟩

/-- Each step that leaves the player its place keeps that place free, and drops nothing. -/
theorem Granting.step {operation : Operation} (granting : Granting replay)
    (leaves : replay.LeavesPlace operation)
    (performed : replay.perform operation = some (next, effect)) :
    Granting next ∧ effect ≠ .refused := by
  cases operation with
  | poll writerFree =>
      rw [perform] at performed
      split at performed
      · cases performed
        exact ⟨granting_poll granting writerFree, nofun⟩
      · cases performed
        exact ⟨granting_poll granting writerFree, nofun⟩
      · exact nomatch performed
  | pollReturn =>
      rw [perform] at performed
      split at performed
      · rename_i clients free freeHttp polling
        cases performed
        apply And.intro _ nofun
        apply granting_return granting
        · rw [polling]
          exact nofun
        · intro positive
          have places := pollResult_pos positive
          rw [freePlaces, if_pos granting.clients] at places
          omega
      all_goals exact nomatch performed
  | play streamPos data =>
      rw [perform] at performed
      split at performed
      · rename_i packets granted
        split at performed
        · rw [granting.play granted] at performed
          cases performed
          exact ⟨⟨granting.clients, fun asking => absurd rfl asking, nofun⟩, nofun⟩
        · cases performed
          exact ⟨⟨granting.clients, fun asking => absurd rfl asking, nofun⟩, nofun⟩
      all_goals exact nomatch performed
  | control text =>
      have queued := granting_control granting .sidControl controlPos text leaves
      rw [perform, queued.1] at performed
      split at performed
      · cases performed
        exact ⟨queued.2, nofun⟩
      · cases performed
        exact ⟨granting, nofun⟩
  | schedule operation =>
      rcases schedule_cases performed with ⟨after, did, own, rfl⟩
      have background := background_step own did
      exact ⟨granting_background granting background.1, background.2⟩

theorem leaving_run_granting {labels : List (Operation × Scheduler.Effect)}
    (run : leavingMachine.Run labels replay) :
    Granting replay ∧ ∀ label ∈ labels, label.2 ≠ .refused := by
  induction run with
  | start initially =>
      have idle := initially.1
      refine ⟨⟨initially.2.1, fun asking => absurd idle asking, ?_⟩, nofun⟩
      intro packets granted
      rw [idle] at granted
      exact nomatch granted
  | snoc prior step ih =>
      have after_step := ih.1.step step.2 step.1
      apply And.intro after_step.1
      intro label listed
      rcases List.mem_append.mp listed with earlier | last
      · exact ih.2 label earlier
      · rw [List.mem_singleton.mp last]
        exact after_step.2

/-- Where the control messages leave the player its place, every packet and every message is
queued. -/
theorem replay_loses_nothing {labels : List (Operation × Scheduler.Effect)}
    (run : leavingMachine.Run labels replay) :
    ∀ label ∈ labels, label.2 ≠ .refused :=
  (leaving_run_granting run).2

def oneUdpClient : Replay where
  slots := fun cli =>
    if cli.val = 0 then { controlOpen := true, configOk := true, dataOpen := true, udp := true }
    else { }
  multicastMask := 0
  rtpAlwaysOn := false
  scheduler := ((Scheduler.new 0).addHandle 5 none).1
  player := .idle

theorem one_udp_client_initial : machine.initial oneUdpClient := by
  have begun : Scheduler.machine.Run [] (Scheduler.new 0) := .start ⟨0, rfl⟩
  have added := begun.snoc (show Scheduler.machine.step _ (.addHandle 5 none, .unchanged) _
    from rfl)
  exact ⟨rfl, rfl, _, added⟩

theorem replay_loses_nothing_one_client :
    ∃ labels replay, leavingMachine.Run labels replay ∧ labels.length = 4 ∧
      ∀ label ∈ labels, label.2 ≠ .refused := by
  have begun : leavingMachine.Run [] oneUdpClient := .start one_udp_client_initial
  have asked := begun.snoc (show leavingMachine.step _ (.poll fun _ => 0, .unchanged) _ from
    ⟨rfl, True.intro⟩)
  have granted := asked.snoc (show leavingMachine.step _ (.pollReturn, .unchanged) _ from
    ⟨rfl, True.intro⟩)
  have told := granted.snoc (show leavingMachine.step _ (.control [0x0d, 0x0a, 0], .queued _) _ from
    ⟨rfl, show 0 + 1 < 64 by decide⟩)
  have played := told.snoc (show leavingMachine.step _ (.play 0 [0x47], .queued _) _ from
    ⟨rfl, True.intro⟩)
  exact ⟨_, _, played, rfl, replay_loses_nothing played⟩

theorem run_of_controls {labels : List (Operation × Scheduler.Effect)}
    (run : machine.Run labels replay) (queues : replay.controlQueues = true)
    (clients : replay.scheduler.hasClients = true) (text : List UInt8) (count : Nat)
    (room : replay.scheduler.queuePending + count ≤ replay.scheduler.queueLimit) :
    ∃ more filled, machine.Run more { replay with scheduler := filled } ∧
      filled.handles = replay.scheduler.handles ∧ filled.master = replay.scheduler.master ∧
      filled.queuePending = replay.scheduler.queuePending + count := by
  induction count with
  | zero => exact ⟨labels, replay.scheduler, run, rfl, rfl, rfl⟩
  | succ count ih =>
      rcases ih (by omega) with ⟨more, filled, prior, handles, master, pending⟩
      have limit : filled.queueLimit = replay.scheduler.queueLimit := by
        rw [Scheduler.queueLimit, Scheduler.queueLimit, master]
      have same := (has_clients_same handles).trans clients
      rcases queue_full_or_queued filled same .sidControl controlPos text with full | queued
      · omega
      · refine ⟨_, filled.append .sidControl controlPos text, prior.snoc (?_ :
          machine.step _ (.control text, .queued (filled.backLog.frameFor .sidControl controlPos
            text)) _), handles, master, ?_⟩
        · show perform { replay with scheduler := filled } (.control text) = _
          rw [perform, if_pos (show ({ replay with scheduler := filled } : Replay).controlQueues =
            true from queues), queued.2]
          rfl
        · show filled.queuePending + 1 = _
          omega

theorem play_refused {packets : Nat} (granted : replay.player = .granted packets)
    (queues : replay.playQueues = true) {streamPos : Nat} {data : List UInt8}
    (refused : replay.scheduler.perform (.queue .sidVdr streamPos data) =
      some (replay.scheduler, .refused)) :
    machine.step replay (.play streamPos data, .refused) { replay with player := .idle } := by
  show perform replay (.play streamPos data) = _
  rw [perform, granted]
  simp only [queues, if_true, refused]
  rfl

/-- `Poll` has found the queue empty; control messages fill it before the packet comes. -/
theorem granted_packet_refused :
    ∃ labels replay, machine.Run labels replay ∧
      ∃ streamPos data, (Operation.play streamPos data, Scheduler.Effect.refused) ∈ labels := by
  have begun : machine.Run [] oneUdpClient := .start one_udp_client_initial
  have asked := begun.snoc (show machine.step _ (.poll fun _ => 0, .unchanged) _ from rfl)
  have granted := asked.snoc (show machine.step _ (.pollReturn, .unchanged) _ from rfl)
  rcases run_of_controls granted rfl rfl [0x0d, 0x0a, 0] 64 (by decide) with
    ⟨more, filled, prior, handles, master, pending⟩
  have same : filled.hasClients = true := (has_clients_same handles).trans rfl
  have limit : filled.queueLimit = 64 := by
    rw [Scheduler.queueLimit, master]
    rfl
  have full : filled.queuePending = 64 := pending
  rcases queue_full_or_queued filled same .sidVdr 0 [0x47] with refused | room
  · have played := prior.snoc (play_refused rfl rfl refused.2)
    exact ⟨_, _, played, 0, [0x47], List.mem_append_right _ (List.mem_singleton.mpr rfl)⟩
  · omega

end Replay
end Xineliboutput.Server
