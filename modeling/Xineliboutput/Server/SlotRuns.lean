import Xineliboutput.Server.PrimaryDeviceCount
import Xineliboutput.Server.SlotDescriptors

/-!
# Slots over whole runs

In every run of connections, messages and closed connections the descriptors, the table of
the scheduler and the mask fit together, and a new client finds nothing of the client before
it, as long as no message does what the code has no provision for.
-/

namespace Xineliboutput.Server

open Xineliboutput.Foundation
open Xineliboutput.Device

set_option autoImplicit false

namespace SlotSockets

variable {server : SlotSockets} {cli : Fin maxClients} {arg cmd : List UInt8}
  {answer : SystemAnswer}

/-! ## The multicast stream -/

theorem add_rtp_opened (created : answer.rtpCreated = true) :
    (server.addRtp answer).rtpOpen = true := by
  unfold addRtp
  dsimp only
  rw [if_pos created]

@[simp] theorem add_rtp_always : (server.addRtp answer).alwaysOn = server.alwaysOn := by
  unfold addRtp
  dsimp only
  split
  · rfl
  · rfl

theorem Placed.join (placed : server.Placed) :
    Placed
      { server.modify cli fun slot => { slot with multicast := true } with
        multicastMask := server.multicastMask ||| clientBit cli } := by
  have holds : (server.modify cli fun slot => { slot with multicast := true }).held = server.held := by
    rw [modify_held .rtp _ (fun slot => { slot with multicast := true }) rfl (fun _ => rfl)
      (fun _ => rfl) fun _ => rfl]
    exact Function.update_eq_self .rtp server.held
  have lists : (server.modify cli fun slot => { slot with multicast := true }).listed =
      server.listed := by
    funext place
    cases place with
    | control other | osd other => rfl
    | rtp => rfl
    | data other =>
        simp only [SlotSockets.listed, holds, modify_slot]
        by_cases same : other = cli
        · simp [same]
        · simp [same]
  constructor
  · exact holds ▸ placed.owned
  · exact lists ▸ placed.listed
  · intro other
    have bit : (server.multicastMask ||| clientBit cli).getLsbD other.val =
        ((server.slots other).multicast || decide (other = cli)) := by
      rw [BitVec.getLsbD_or, client_bit, placed.mask other]
    refine bit.trans ?_
    have slot : (server.modify cli fun slot => { slot with multicast := true }).slots other =
        if other = cli then { server.slots cli with multicast := true } else server.slots other :=
      modify_slot _ other
    refine Eq.trans ?_ (congrArg Slot.multicast slot).symm
    by_cases same : other = cli
    · simp [same]
    · simp [same]

theorem Consistent.join_multicast (consistent : server.Consistent)
    (created : server.needsRtp → answer.rtpCreated = true) :
    (server.joinMulticast cli answer).Consistent := by
  have some : ∀ mask : BitVec 32, mask ||| clientBit cli ≠ 0 := by
    intro mask empty
    have bit := congrArg (fun bits => bits.getLsbD cli.val) empty
    simp [client_bit] at bit
  unfold joinMulticast
  dsimp only
  split
  · next needs =>
      have shut : server.rtpOpen = false := by
        rw [Bool.eq_false_iff, Ne, consistent.rtp, needs.1, needs.2]
        decide
      refine ⟨(consistent.toPlaced.add_rtp answer (created needs) shut).join,
        fun _ => .inl (some _), fun _ => ?_⟩
      exact add_rtp_opened (created needs)
  · next listens =>
      have opened : server.rtpOpen = true := by
        apply consistent.rtp.mpr
        by_contra neither
        rw [not_or, not_not, Bool.not_eq_true] at neither
        exact listens neither
      exact ⟨consistent.toPlaced.join, fun _ => .inl (some _), fun _ => opened⟩

/-! ## Handlers -/

theorem close_data_udp : ((server.closeDataConnection cli).slots cli).udp = false := by
  rw [close_data_connections, Connections.close_data_slot, if_pos rfl]

theorem Consistent.control_pipe (consistent : server.Consistent) :
    (server.handleControlPipe cli answer).Consistent := by
  have closes : ((server.closeDataConnection cli).closeOsdConnection cli).Consistent :=
    consistent.close_data.close_osd
  unfold handleControlPipe
  dsimp only
  split
  · exact closes
  · split
    · apply closes.open_pipe answer.kernel
      simp [Connections.close_osd_slot, Connections.close_data_slot]
    · exact closes

theorem Consistent.control_osd (consistent : server.Consistent)
    (opened : (server.slots cli).controlOpen = true) :
    (server.handleControlOsd cli arg).Consistent := by
  have closes : ((server.closeOsdConnection cli).closeDataConnection cli).Consistent :=
    consistent.close_osd.close_data
  unfold handleControlOsd
  dsimp only
  rcases parse_client_id_cases ((server.closeOsdConnection cli).closeDataConnection cli) cli arg with
    ⟨clientId, -, -, found⟩ | ⟨-, wrong⟩
  · rw [found]
    have same : (((server.closeOsdConnection cli).closeDataConnection cli).closeOsdConnection
        clientId).toConnections.controlPart cli = server.toConnections.controlPart cli := by simp
    apply Consistent.force_primary
    apply closes.close_osd.hand_over ((congrArg Prod.fst same).trans opened) (.osd clientId) nofun
      (fun _ => nofun) (fun _ => nofun)
    · simp [isOpen, modify, Connections.modify_slot]
    · exact fun _ => rfl
    · exact fun different => absurd rfl different
    · exact fun _ _ => rfl
    · exact fun _ => rfl
    · exact fun _ => rfl
  · rw [wrong]
    exact closes.close_connection

theorem Consistent.control_data (consistent : server.Consistent)
    (opened : (server.slots cli).controlOpen = true) :
    (server.handleControlData cli arg).Consistent := by
  have closes : ((server.closeOsdConnection cli).closeDataConnection cli).Consistent :=
    consistent.close_osd.close_data
  unfold handleControlData
  dsimp only
  split
  · exact closes.close_connection
  · rcases parse_client_id_cases ((server.closeOsdConnection cli).closeDataConnection cli) cli arg with
      ⟨clientId, -, -, found⟩ | ⟨-, wrong⟩
    · rw [found]
      have same : (((server.closeOsdConnection cli).closeDataConnection cli).closeDataConnection
          clientId).toConnections.controlPart cli = server.toConnections.controlPart cli := by simp
      apply Consistent.force_primary
      apply closes.close_data.hand_over ((congrArg Prod.fst same).trans opened) (.data clientId)
        nofun (fun _ => nofun)
      · intro other data
        cases data
        exact close_data_udp
      · simp [isOpen, modify, Connections.modify_slot]
      · exact fun _ => rfl
      · exact fun _ _ => rfl
      · exact fun different => absurd rfl different
      · exact fun _ => rfl
      · exact fun _ => rfl
    · rw [wrong]
      exact closes.close_connection

theorem close_data_needs :
    (server.closeDataConnection cli).needsRtp ↔
      server.multicastMask &&& ~~~clientBit cli = 0 ∧ server.alwaysOn = false := by
  unfold closeDataConnection removeUnusedRtp needsRtp
  split
  · rw [remove_rtp_mask, remove_rtp_always]
    rfl
  · rfl

theorem Consistent.control_rtp (consistent : server.Consistent)
    (created : server.config.remoteUseRtp = true →
      server.multicastMask &&& ~~~clientBit cli = 0 ∧ server.alwaysOn = false →
      answer.rtpCreated = true) :
    (server.handleControlRtp cli answer).Consistent := by
  unfold handleControlRtp
  dsimp only
  split
  · exact consistent.close_data
  · next enabled =>
      apply consistent.close_data.join_multicast
      intro needs
      rw [close_data_connections] at enabled
      exact created (Bool.not_eq_false _ ▸ enabled) (close_data_needs.mp needs)

theorem Consistent.control_udp (consistent : server.Consistent) :
    (server.handleControlUdp cli answer).Consistent := by
  unfold handleControlUdp
  dsimp only
  split
  · exact consistent.close_data
  · split
    · have other : ((server.closeDataConnection cli).slots cli).udp = false := close_data_udp
      apply consistent.close_data.connect_udp answer.kernel other
      simp [openSocket, modify]
    · exact consistent.close_data

theorem Consistent.control_grab (consistent : server.Consistent) :
    (server.handleControlGrab cli arg answer).Consistent := by
  unfold handleControlGrab
  split
  · exact consistent
  · split
    · exact consistent
    · split
      · exact consistent.close_connection
      · exact consistent

theorem Consistent.start_request (consistent : server.Consistent) (type : ConnType)
    (proper : ConnState → Bool) : (server.startRequest cli arg type proper).Consistent := by
  unfold startRequest
  split
  · exact consistent.close_connection
  · split
    · exact consistent.modify_flags _ rfl rfl rfl rfl rfl
    · exact consistent.close_connection

theorem Consistent.answer_http (consistent : server.Consistent) (request : ConnState) :
    (server.answerHttp cli request).Consistent := by
  unfold answerHttp
  split
  · split
    · exact consistent.close_connection
    · exact consistent.modify_flags _ rfl rfl rfl rfl rfl
  · split
    · exact consistent.close_control.close_connection
    · exact consistent.close_connection

theorem Consistent.control_http (consistent : server.Consistent) :
    (server.handleControlHttp cli arg).Consistent := by
  have silent : (server.modify cli fun slot => { slot with writer := false }).Consistent :=
    consistent.modify_flags _ rfl rfl rfl rfl rfl
  unfold handleControlHttp
  split
  · split
    · exact consistent
    · exact consistent.answer_http _
  · exact silent.start_request _ _
  · exact silent.start_request _ _
  · exact consistent

/-- The request that the message completes asks for the multicast stream. -/
def AnswersPlay (server : SlotSockets) (cli : Fin maxClients) (cmd : List UInt8) : Prop :=
  cmd = [] ∧ server.config.remoteUseRtsp = true ∧ (server.slots cli).connType = .rtsp ∧
    ∃ request, (server.slots cli).state = some request ∧ request.name = ascii "PLAY".toList

theorem Consistent.answer_rtsp (consistent : server.Consistent) (request : ConnState)
    (created : server.config.remoteUseRtsp = true → request.name = ascii "PLAY".toList →
      server.needsRtp → answer.rtpCreated = true) :
    (server.answerRtsp cli answer request).Consistent := by
  unfold answerRtsp
  split
  · exact consistent.close_connection
  · next enabled =>
      apply Consistent.modify_flags _ _ rfl rfl rfl rfl rfl
      split
      · next play =>
          exact consistent.join_multicast (created (Bool.not_eq_false _ ▸ enabled) play)
      · split
        · exact consistent.close_connection
        · exact consistent

theorem Consistent.control_rtsp (consistent : server.Consistent)
    (created : server.AnswersPlay cli arg → server.needsRtp → answer.rtpCreated = true) :
    (server.handleControlRtsp cli arg answer).Consistent := by
  unfold handleControlRtsp
  split
  · next request type held =>
      split
      · exact consistent
      · next complete =>
          apply consistent.answer_rtsp
          intro enabled play
          exact created ⟨not_not.mp complete, enabled, type, request, held, play⟩
  · exact consistent.start_request _ _
  · exact consistent.start_request _ _
  · exact consistent

/-! ## Messages -/

def CreatesRtp (server : SlotSockets) (cli : Fin maxClients) (cmd : List UInt8)
    (answer : SystemAnswer) : Prop :=
  match messageOf (server.slots cli).connType cmd with
  | .rtp =>
      server.config.remoteUseRtp = true →
        server.multicastMask &&& ~~~clientBit cli = 0 ∧ server.alwaysOn = false →
        answer.rtpCreated = true
  | .rtsp => server.AnswersPlay cli cmd → server.needsRtp → answer.rtpCreated = true
  | _ => True

theorem Consistent.handle_control (consistent : server.Consistent)
    (opened : (server.slots cli).controlOpen = true) (creates : server.CreatesRtp cli cmd answer) :
    (server.handleControl cli answer cmd).Consistent := by
  unfold CreatesRtp at creates
  unfold handleControl
  cases kind : messageOf (server.slots cli).connType cmd with
  | rtsp =>
      rw [kind] at creates
      exact consistent.control_rtsp creates
  | http => exact consistent.control_http
  | pipe => exact consistent.control_pipe
  | rtp =>
      rw [kind] at creates
      exact consistent.control_rtp creates
  | udp => exact consistent.control_udp
  | data => exact consistent.control_data opened
  | osd => exact consistent.control_osd opened
  | config | info | control => exact consistent.modify_flags _ rfl rfl rfl rfl rfl
  | grab => exact consistent.control_grab
  | close => exact consistent.close_connection
  | other => exact consistent

/-! ## Connections -/

theorem Consistent.ctrl_buf (consistent : server.Consistent) (bytes : List UInt8) :
    (server.setCtrlBuf cli bytes).Consistent :=
  consistent.keep ⟨rfl, rfl, rfl, rfl, fun _ => rfl, fun _ => rfl, fun _ _ => rfl, rfl⟩
    consistent.owned

structure Spare (server : SlotSockets) (fd : Nat) : Prop where
  used : fd ∈ server.opened
  unheld : ∀ place, server.held place ≠ some fd

theorem Spare.closed {next : SlotSockets} {fd : Nat} (spare : server.Spare fd) {place : Place}
    (holds : next.held = Function.update server.held place none)
    (opened : next.opened = Foundation.closed server.opened (server.held place)) :
    next.Spare fd := by
  constructor
  · rw [opened]
    exact used_after_close spare.used (spare.unheld place)
  · intro other
    rw [holds, Function.update_apply]
    split
    · exact nofun
    · exact spare.unheld other

theorem Spare.close_data {fd : Nat} (spare : server.Spare fd) :
    (server.closeDataConnection cli).Spare fd := by
  have left : (server.leaveData cli).Spare fd := spare.closed leave_data_held rfl
  unfold closeDataConnection removeUnusedRtp
  split
  · exact left.closed remove_rtp_held remove_rtp_opened
  · exact left

theorem Consistent.take_control (consistent : server.Consistent) {fd : Nat}
    (spare : server.Spare fd) :
    ((server.renumber (.control cli) fd server.opened).modify cli fun slot =>
      { slot with connType := .detecting, controlOpen := true }).Consistent := by
  have holds : ((server.renumber (.control cli) fd server.opened).modify cli fun slot =>
      { slot with connType := .detecting, controlOpen := true }).held =
      Function.update server.held (.control cli) (some fd) := by
    rw [← renumber_update (.control cli) fd server.opened]
    apply modify_held _ _ _ _ (fun different => absurd rfl different) (fun _ => rfl) (fun _ => rfl)
    simp [held, isOpen, modify, renumber, Connections.modify_slot]
  have numbered : TableKept server (server.renumber (.control cli) fd server.opened) :=
    renumber_kept (.control cli) (by intro same; cases same) (by intro other same; cases same) fd
      server.opened
  apply consistent.keep (numbered.trans (modify_kept _ rfl rfl fun _ => rfl))
  rw [holds]
  exact consistent.owned.take (.control cli) spare.used spare.unheld

theorem Consistent.connected (consistent : server.Consistent) (kernel : Kernel)
    (peerKnown acceptable nonBlocking primary : Bool)
    (forced : acceptedIn server.toConnections peerKnown acceptable nonBlocking ≠ none →
      primary = true) :
    (server.handleClientConnected peerKnown acceptable nonBlocking primary kernel).Consistent := by
  have unused := kernel.unused server.opened
  have wider : Consistent { server with opened := kernel.next server.opened :: server.opened } :=
    consistent.keep ⟨rfl, rfl, rfl, rfl, fun _ => rfl, fun _ => rfl, fun _ _ => rfl, rfl⟩
      (consistent.owned.widen fun _ used => List.mem_cons_of_mem _ used)
  have spare : Spare { server with opened := kernel.next server.opened :: server.opened }
      (kernel.next server.opened) := ⟨List.mem_cons_self, consistent.owned.unheld unused⟩
  unfold handleClientConnected
  dsimp only
  cases accepted : acceptedIn server.toConnections peerKnown acceptable nonBlocking with
  | none =>
      dsimp only
      rw [List.erase_cons_head]
      exact consistent
  | some cli =>
      dsimp only
      rw [if_pos (forced (by rw [accepted]; exact nofun))]
      apply Consistent.force_primary
      exact (wider.close_data.ctrl_buf []).take_control ⟨spare.close_data.used, spare.close_data.unheld⟩

theorem Placed.listen (placed : server.Placed) (unused : server.multicastMask = 0)
    (startable : server.alwaysOn = true →
      server.config.remoteUseRtp = true ∧ answer.rtpCreated = true) :
    (server.listen answer).Consistent := by
  have removed := placed.remove_rtp
  unfold SlotSockets.listen
  dsimp only
  rw [remove_rtp_connections, remove_rtp_always, remove_rtp_mask, unused]
  split
  · next needs =>
      have always : server.alwaysOn = true := needs.2.resolve_right (absurd rfl)
      have created := (startable always).2
      refine ⟨removed.add_rtp answer created remove_rtp_shut, fun _ => .inr ?_, fun _ => ?_⟩
      · simpa using always
      · exact add_rtp_opened created
  · next needless =>
      refine ⟨removed, ?_⟩
      rw [remove_rtp_shut, remove_rtp_always, remove_rtp_mask, unused]
      constructor
      · exact nofun
      · intro always
        have on := always.resolve_left (absurd rfl)
        exact absurd ⟨(startable on).1, .inl on⟩ needless

/-! ## Events -/

def completed (server : SlotSockets) (cli : Fin maxClients) (byte : UInt8) :
    Option (List UInt8) :=
  if (server.slots cli).controlOpen ∧ (server.ctrlBuf cli).length + 1 ≤ ctrlBufSize - 2 then
    completeMessage (server.ctrlBuf cli ++ [byte])
  else none

/-- The primary device is there for a new client, the multicast socket can be created where it
is needed, and the message is one that leaves its slot clean. -/
def Proper (server : SlotSockets) : SocketEvent → Prop
  | .connected peerKnown acceptable nonBlocking primary _ =>
      acceptedIn server.toConnections peerKnown acceptable nonBlocking ≠ none → primary = true
  | .received cli byte answer =>
      ∀ cmd, server.completed cli byte = some cmd →
        server.toConnections.ProperMessage cli cmd ∧ server.CreatesRtp cli cmd answer
  | .dropped _ | .osdFailed _ | .playing _ => True

def OpensOsd (server : SlotSockets) (event : SocketEvent) (target : Fin maxClients) : Prop :=
  match event with
  | .received cli byte _ =>
      ∃ cmd, server.completed cli byte = some cmd ∧ server.toConnections.OpensOsd cli cmd target
  | _ => False

def accepts (server : SlotSockets) : SocketEvent → Option (Fin maxClients)
  | .connected peerKnown acceptable nonBlocking _ _ =>
      acceptedIn server.toConnections peerKnown acceptable nonBlocking
  | _ => none

theorem completed_complete {byte : UInt8} (opened : (server.slots cli).controlOpen = true)
    (short : ¬ctrlBufSize - 2 < (server.ctrlBuf cli ++ [byte]).length) :
    server.completed cli byte = completeMessage (server.ctrlBuf cli ++ [byte]) := by
  rw [List.length_append, List.length_singleton, not_lt] at short
  exact if_pos ⟨opened, short⟩

theorem Consistent.perform (consistent : server.Consistent) {event : SocketEvent}
    (proper : server.Proper event) : (server.perform event).Consistent := by
  cases event with
  | connected peerKnown acceptable nonBlocking primary kernel =>
      exact consistent.connected kernel peerKnown acceptable nonBlocking primary proper
  | received cli byte answer =>
      unfold SlotSockets.perform
      dsimp only
      split
      · next opened =>
          unfold readControl
          dsimp only
          split
          · exact (consistent.ctrl_buf _).close_connection
          · next short =>
              have whole := completed_complete opened short
              cases complete : completeMessage (server.ctrlBuf cli ++ [byte]) with
              | none => exact consistent.ctrl_buf _
              | some cmd =>
                  have creates := (proper cmd (whole.trans complete)).2
                  exact ((consistent.ctrl_buf _).handle_control opened creates).ctrl_buf []
      · exact consistent
  | dropped cli => exact consistent.close_connection
  | osdFailed cli =>
      unfold SlotSockets.perform osdCmdFailed
      dsimp only
      split
      · split
        · exact consistent.close_osd
        · exact consistent.close_connection
      · exact consistent
  | playing play =>
      exact consistent.keep ⟨rfl, rfl, rfl, rfl, fun _ => rfl, fun _ => rfl, fun _ _ => rfl, rfl⟩
        consistent.owned

theorem perform_tidy {event : SocketEvent} (proper : server.Proper event) :
    server.toConnections.Tidy (server.OpensOsd event) (server.perform event).toConnections := by
  cases event with
  | connected peerKnown acceptable nonBlocking primary kernel =>
      have same := connected_connections server peerKnown acceptable nonBlocking primary kernel
      exact same ▸ Connections.connected_tidy peerKnown acceptable nonBlocking
  | received cli byte answer =>
      unfold perform
      dsimp only
      split
      · next opened =>
          unfold readControl
          dsimp only
          split
          · rw [close_connections]
            exact Connections.close_connection_tidy
          · next short =>
              have whole := completed_complete opened short
              cases complete : completeMessage (server.ctrlBuf cli ++ [byte]) with
              | none => exact .refl _
              | some cmd =>
                  rw [complete] at whole
                  have tidy : Connections.Tidy (server.toConnections.OpensOsd cli cmd)
                      server.toConnections
                      (server.toConnections.handleControl cli answer.toOutcome cmd) :=
                    Connections.handle_control_tidy opened (proper cmd whole).1
                  dsimp only
                  rw [ctrl_buf_connections, handle_control_connections]
                  exact tidy.mono fun target asks => ⟨cmd, whole, asks⟩
      · exact .refl _
  | dropped cli => exact close_connections server cli ▸ Connections.close_connection_tidy
  | osdFailed cli =>
      unfold perform osdCmdFailed
      dsimp only
      split
      · split
        · exact Connections.close_osd_tidy
        · exact close_connections server cli ▸ Connections.close_connection_tidy
      · exact .refl _
  | playing play => exact ⟨id, fun _ set => .inl set⟩

/-! ## What holds in every state -/

/-- The mask, the table of the scheduler and the slots agree. -/
structure SlotsRight (server : SlotSockets) : Prop where
  mask : ∀ cli : Fin maxClients,
    server.multicastMask.getLsbD cli.val = (server.slots cli).multicast
  rtp : (∃ fd, server.held .rtp = some fd ∧ fd ∈ server.opened ∧ (fd : Int) ∈ server.handles) ↔
    server.multicastMask ≠ 0 ∨ server.alwaysOn = true
  udp : ∀ cli, (server.slots cli).udp = true →
    (server.slots cli).writer = false ∧
      ∃ fd, server.held (.data cli) = some fd ∧ fd ∈ server.opened ∧ (fd : Int) ∈ server.handles
  others : ∀ fd : Nat, (fd : Int) ∈ server.handles →
    (∀ cli, (server.slots cli).udp = true → server.held (.data cli) ≠ some fd) →
    ∀ cli, server.held (.control cli) ≠ some fd ∧ server.held (.osd cli) ≠ some fd ∧
      server.held (.data cli) ≠ some fd

/-- A slot as the first message of its client finds it. -/
structure Fresh (server : SlotSockets) (cli : Fin maxClients) : Prop where
  data : server.held (.data cli) = none
  writer : (server.slots cli).writer = false
  state : (server.slots cli).state = none
  configOk : (server.slots cli).configOk = false
  argbOsd : (server.slots cli).argbOsd = false
  rleArgbOsd : (server.slots cli).rleArgbOsd = false
  osdConn : (server.slots cli).osdConn = false
  ctrlBuf : server.ctrlBuf cli = []

theorem consistent_right (consistent : server.Consistent) (clean : server.toConnections.Clean) :
    server.SlotsRight := by
  have members : ∀ fd : Nat, (fd : Int) ∈ server.handles ↔ ∃ place, server.listed place = some fd :=
    fun _ => consistent.listed.mem_handles
  constructor
  · exact consistent.mask
  · rw [← consistent.rtp]
    constructor
    · intro found
      obtain ⟨fd, holds, _⟩ := found
      by_contra shut
      have vacant : server.held .rtp = none := held_of_shut shut
      rw [vacant] at holds
      cases holds
    · intro opened
      have holds : server.held .rtp = some (server.number .rtp) := held_of_open opened
      exact ⟨_, holds, consistent.owned.used _ _ holds, (members _).mpr ⟨.rtp, holds⟩⟩
  · intro cli client
    obtain ⟨opened, writer⟩ := (clean cli).udp client
    have holds : server.held (.data cli) = some (server.number (.data cli)) := held_of_open opened
    have lists : server.listed (.data cli) = some (server.number (.data cli)) := by
      rw [listed, if_pos client, holds]
    exact ⟨writer, _, holds, consistent.owned.used _ _ holds, (members _).mpr ⟨_, lists⟩⟩
  · intro fd handle free cli
    obtain ⟨place, lists⟩ := (members fd).mp handle
    have isRtp : place = .rtp := by
      cases place with
      | rtp => rfl
      | control other | osd other => cases lists
      | data other =>
          rw [listed] at lists
          split at lists
          · next client => exact absurd lists (free other client)
          · cases lists
    have holds : server.held .rtp = some fd := isRtp ▸ listed_held lists
    have only : ∀ place, place ≠ .rtp → server.held place ≠ some fd :=
      fun place different also => different (consistent.owned.once place .rtp fd also holds)
    refine ⟨only _ ?_, only _ ?_, only _ ?_⟩
    all_goals
      intro same
      cases same

theorem accepted_in {peerKnown acceptable nonBlocking primary : Bool} {kernel : Kernel}
    (accepted : server.accepts (.connected peerKnown acceptable nonBlocking primary kernel) = some cli) :
    acceptedIn server.toConnections peerKnown acceptable nonBlocking = some cli := accepted

theorem accepted_fresh {event : SocketEvent} (clean : server.toConnections.Clean)
    (accepted : server.accepts event = some cli) : (server.perform event).Fresh cli := by
  cases event with
  | received cli byte answer | dropped cli | osdFailed cli | playing play => cases accepted
  | connected peerKnown acceptable nonBlocking primary kernel =>
      have shut := (clean cli).shut (Connections.accepted_shut accepted)
      have slot : ((server.perform
          (.connected peerKnown acceptable nonBlocking primary kernel)).slots cli) =
          { server.slots cli with
            controlOpen := true
            dataOpen := false
            writer := false
            udp := false
            multicast := false
            configOk := false
            argbOsd := false
            rleArgbOsd := false
            connType := .detecting } := by
        rw [perform, connected_connections, Connections.connected_accepted,
          accepted_in accepted]
        simp [Connections.forcePrimaryDevice, Connections.modify_slot, Connections.close_data_slot]
      have buffer : (server.perform
          (.connected peerKnown acceptable nonBlocking primary kernel)).ctrlBuf cli = [] := by
        unfold perform handleClientConnected
        dsimp only
        rw [accepted_in accepted]
        cases primary with
        | true => simp [forcePrimaryDevice, modify, setCtrlBuf]
        | false => simp [forcePrimaryDevice, modify, setCtrlBuf]
      constructor
      · apply held_of_shut
        rw [isOpen, slot]
        intro data
        cases data
      · rw [slot]
      · rw [slot]
        exact shut.2
      · rw [slot]
      · rw [slot]
      · rw [slot]
      · rw [slot]
        exact shut.1
      · exact buffer

/-! ## Runs -/

def start (device : ForcedDevice) (config : ServerConfig) (alwaysOn : Bool)
    (answer : SystemAnswer) : SlotSockets := (new device config alwaysOn).listen answer

def stateAt (start : SlotSockets) (events : List SocketEvent) (count : Nat) : SlotSockets :=
  (events.take count).foldl perform start

/-- The slots are right in every state, each new client finds a fresh slot, and it gets its OSD
on the control connection until it opens another one. -/
structure RunRight (start : SlotSockets) (events : List SocketEvent) : Prop where
  right : ∀ count ≤ events.length, (stateAt start events count).SlotsRight
  fresh : ∀ (count : Nat) (within : count < events.length) (cli : Fin maxClients),
    (stateAt start events count).accepts events[count] = some cli →
    (stateAt start events (count + 1)).Fresh cli
  osd : ∀ (first : Nat) (within : first < events.length) (cli : Fin maxClients),
    (stateAt start events first).accepts events[first] = some cli →
    ∀ last, first < last → last ≤ events.length →
    (∀ (count : Nat) (inside : count < events.length), first < count → count < last →
      ¬(stateAt start events count).OpensOsd events[count] cli) →
    (stateAt start events last).osdSocket cli = .control cli

theorem new_placed (device : ForcedDevice) (config : ServerConfig) (alwaysOn : Bool) :
    (new device config alwaysOn).Placed := by
  have nothing : (new device config alwaysOn).held = fun _ => none := by
    funext place
    cases place with
    | control cli | osd cli | data cli | rtp => rfl
  have unlisted : (new device config alwaysOn).listed = fun _ => none := by
    funext place
    cases place with
    | control cli | osd cli | data cli | rtp => rfl
  constructor
  · rw [nothing]
    exact .empty
  · rw [unlisted]
    exact .empty
  · intro cli
    exact BitVec.getLsbD_zero

theorem start_consistent {device : ForcedDevice} {config : ServerConfig} {alwaysOn : Bool}
    (startable : alwaysOn = true → config.remoteUseRtp = true ∧ answer.rtpCreated = true) :
    (start device config alwaysOn answer).Consistent :=
  (new_placed device config alwaysOn).listen rfl startable

theorem start_clean (device : ForcedDevice) (config : ServerConfig) (alwaysOn : Bool) :
    (start device config alwaysOn answer).toConnections.Clean := by
  have same : (start device config alwaysOn answer).toConnections = .start device config := by
    unfold start listen
    dsimp only
    split
    · simp [new]
    · simp [new]
  rw [same]
  intro cli
  exact ⟨fun _ => ⟨rfl, rfl⟩, fun some => absurd rfl some, nofun⟩

structure Kept (server : SlotSockets) : Prop where
  consistent : server.Consistent
  clean : server.toConnections.Clean

theorem Kept.perform {event : SocketEvent} (kept : server.Kept) (proper : server.Proper event) :
    (server.perform event).Kept :=
  ⟨kept.consistent.perform proper, (perform_tidy proper).clean kept.clean⟩

theorem state_at_succ (first : SlotSockets) (events : List SocketEvent) {count : Nat}
    (within : count < events.length) :
    stateAt first events (count + 1) = (stateAt first events count).perform events[count] :=
  Machine.foldl_take_succ perform first events within

section Runs

variable {first : SlotSockets} {events : List SocketEvent}

theorem run_kept (begins : first.Kept)
    (proper : ∀ (count : Nat) (within : count < events.length),
      (stateAt first events count).Proper events[count]) :
    ∀ count ≤ events.length, (stateAt first events count).Kept :=
  @Machine.foldl_invariant SlotSockets SocketEvent perform Kept Proper first begins
    (fun _ _ kept proper => kept.perform proper) events proper

/-- Without a hand-over to the slot its `m_bOsdConn` stays as the new client found it. -/
theorem osd_conn_unset
    (proper : ∀ (count : Nat) (within : count < events.length),
      (stateAt first events count).Proper events[count])
    {begin last : Nat} (later : begin ≤ last) (inside : last ≤ events.length)
    (unset : ((stateAt first events begin).slots cli).osdConn = false)
    (none : ∀ (count : Nat) (within : count < events.length), begin ≤ count → count < last →
      ¬(stateAt first events count).OpensOsd events[count] cli) :
    ((stateAt first events last).slots cli).osdConn = false := by
  induction last, later using Nat.le_induction with
  | base => exact unset
  | succ last later ih =>
      have before := ih (Nat.le_of_lt inside) fun count within above below =>
        none count within above (Nat.lt_succ_of_lt below)
      rw [state_at_succ first events inside, Bool.eq_false_iff]
      intro set
      cases (perform_tidy (proper last inside)).osdConn cli set with
      | inl already => exact absurd already (Bool.eq_false_iff.mp before)
      | inr asked => exact none last inside later (Nat.lt_succ_self last) asked

end Runs

/-- In every run of events that the code provides for, the slots stay right and are fresh for
each new client. -/
theorem slots_right_throughout (device : ForcedDevice) (config : ServerConfig) (alwaysOn : Bool)
    (answer : SystemAnswer)
    (startable : alwaysOn = true → config.remoteUseRtp = true ∧ answer.rtpCreated = true)
    (events : List SocketEvent)
    (proper : ∀ (count : Nat) (within : count < events.length),
      (stateAt (start device config alwaysOn answer) events count).Proper events[count]) :
    RunRight (start device config alwaysOn answer) events := by
  have kept := run_kept ⟨start_consistent startable, start_clean device config alwaysOn⟩ proper
  have fresh : ∀ (count : Nat) (within : count < events.length) (cli : Fin maxClients),
      (stateAt (start device config alwaysOn answer) events count).accepts events[count] = some cli →
      (stateAt (start device config alwaysOn answer) events (count + 1)).Fresh cli := by
    intro count within cli accepted
    rw [state_at_succ _ events within]
    exact accepted_fresh (kept count (Nat.le_of_lt within)).clean accepted
  constructor
  · intro count within
    exact consistent_right (kept count within).consistent (kept count within).clean
  · exact fresh
  · intro first within cli accepted last later inside none
    have unset := osd_conn_unset proper later inside (fresh first within cli accepted).osdConn
      fun count bounded above below => none count bounded above below
    rw [osdSocket, unset]
    rfl

def ascending : Kernel where
  next := fun opened => opened.foldr max 0 + 1
  unused := by
    intro opened member
    have bound : ∀ fd ∈ opened, fd ≤ opened.foldr max 0 := by
      clear member
      induction opened with
      | nil => exact nofun
      | cons first opened ih =>
          intro fd member
          cases List.mem_cons.mp member with
          | inl same =>
              rw [same]
              exact Nat.le_max_left first _
          | inr later => exact Nat.le_trans (ih fd later) (Nat.le_max_right first _)
    exact Nat.not_succ_le_self _ (bound _ member)

def answering : SystemAnswer where
  pipeOpened := true
  socketConnected := true
  imageRead := true
  kernel := ascending
  rtpCreated := true

def arrival : SocketEvent := .connected true true true true ascending

def message (cli : Fin maxClients) (text : String) : List SocketEvent :=
  (ascii text.toList ++ [13, 10]).map fun byte => .received cli byte answering

def listening : SlotSockets := start Connections.secondDevice Connections.mediaConfig false answering

theorem first_client : 0 < maxClients := by decide

def twoClients : List SocketEvent :=
  arrival :: message ⟨0, first_client⟩ "UDP 9" ++ [.dropped ⟨0, first_client⟩, arrival]

theorem part_proper {byte : UInt8} (part : server.completed cli byte = none) :
    server.Proper (.received cli byte answer) := by
  intro cmd whole
  rw [part] at whole
  cases whole

theorem udp_proper {byte : UInt8} (whole : server.completed cli byte = some cmd)
    (kind : messageOf (server.slots cli).connType cmd = .udp) :
    server.Proper (.received cli byte answer) := by
  intro other same
  obtain rfl : cmd = other := Option.some.inj (whole.symm.trans same)
  unfold Connections.ProperMessage CreatesRtp
  rw [kind]
  exact ⟨trivial, trivial⟩

theorem two_clients_right : RunRight listening twoClients := by
  apply slots_right_throughout
  · decide
  · intro count within
    match count with
    | 0 | 9 => exact fun _ => rfl
    | 1 | 2 | 3 | 4 | 5 | 6 => exact part_proper (by decide +kernel)
    | 7 =>
        have whole : (stateAt listening twoClients 7).completed 0 10 = some (ascii "UDP 9".toList) := by
          decide +kernel
        exact udp_proper whole (by decide +kernel)
    | 8 => trivial

/-- The client asks for its own socket as OSD socket, and another one comes. -/
def ownSocket : List SocketEvent :=
  arrival :: message ⟨0, first_client⟩ "OSD 0 0x0:0" ++ [arrival]

theorem own_socket_left :
    (stateAt listening ownSocket 14).accepts arrival = some 0 ∧
      (stateAt listening ownSocket 15).held (.control 0) ≠
        (stateAt listening ownSocket 15).held (.osd 0) ∧
      (stateAt listening ownSocket 15).osdSocket 0 = .osd 0 ∧
      ¬RunRight listening ownSocket := by
  refine ⟨by decide +kernel, by decide +kernel, by decide +kernel, ?_⟩
  intro right
  have fresh := right.fresh 14 (by decide +kernel) 0 (by decide +kernel)
  have osdConn := fresh.osdConn
  revert osdConn
  decide +kernel

end SlotSockets
end Xineliboutput.Server
