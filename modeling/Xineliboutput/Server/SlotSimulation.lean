import Xineliboutput.Server.SlotSockets

/-!
# Slots with and without their sockets

`SlotSockets` does with its slots what `Connections` does: leaving the descriptors away, each
of its events is none, one or several of the events there.
-/

namespace Xineliboutput.Server

open Xineliboutput.Foundation
open Xineliboutput.Device

set_option autoImplicit false

theorem Connections.parse_client_id_cases (server : Connections) (cli : Fin maxClients)
    (arg : List UInt8) :
    (∃ clientId, (server.slots clientId).controlOpen = true ∧
        server.parseClientId cli arg = (server, some clientId)) ∨
      server.parseClientId cli arg = (server.closeConnection cli, none) := by
  unfold parseClientId
  cases scanClientId arg with
  | none => exact .inr rfl
  | some id =>
      dsimp only
      split
      · split
        · next opened => exact .inl ⟨_, opened, rfl⟩
        · exact .inr rfl
      · exact .inr rfl

namespace SlotSockets

variable (server : SlotSockets) (cli : Fin maxClients) (arg : List UInt8) (answer : SystemAnswer)

/-! ## Sockets -/

@[simp] theorem modify_connections (change : Slot → Slot) :
    (server.modify cli change).toConnections = server.toConnections.modify cli change := rfl

@[simp] theorem force_primary_connections (on : Bool) :
    (server.forcePrimaryDevice on).toConnections = server.toConnections.forcePrimaryDevice on := rfl

@[simp] theorem close_socket_connections (place : Place) :
    (server.closeSocket place).toConnections = server.toConnections := rfl

@[simp] theorem open_socket_connections (kernel : Kernel) (place : Place) :
    (server.openSocket kernel place).toConnections = server.toConnections := rfl

@[simp] theorem move_number_connections (source target : Place) :
    (server.moveNumber source target).toConnections = server.toConnections := rfl

@[simp] theorem ctrl_buf_connections (bytes : List UInt8) :
    (server.setCtrlBuf cli bytes).toConnections = server.toConnections := rfl

@[simp] theorem remove_rtp_connections : server.removeRtp.toConnections = server.toConnections := by
  unfold removeRtp
  split
  · rfl
  · rfl

@[simp] theorem add_rtp_connections :
    (server.addRtp answer).toConnections = server.toConnections := by
  unfold addRtp
  dsimp only
  split
  · rfl
  · rfl

@[simp] theorem remove_unused_rtp_connections :
    server.removeUnusedRtp.toConnections = server.toConnections := by
  unfold removeUnusedRtp
  split
  · exact remove_rtp_connections server
  · rfl

@[simp] theorem leave_data_connections :
    (server.leaveData cli).toConnections = server.toConnections.closeDataConnection cli := rfl

@[simp] theorem close_data_connections :
    (server.closeDataConnection cli).toConnections =
      server.toConnections.closeDataConnection cli := by
  rw [closeDataConnection, remove_unused_rtp_connections, leave_data_connections]

@[simp] theorem close_osd_connections :
    (server.closeOsdConnection cli).toConnections = server.toConnections.closeOsdConnection cli := rfl

@[simp] theorem close_connections :
    (server.closeConnection cli).toConnections = server.toConnections.closeConnection cli := by
  unfold closeConnection Connections.closeConnection
  simp only [modify_connections, close_osd_connections, close_data_connections]
  split
  · simp
  · simp

/-! ## Handlers -/

theorem parse_client_id_cases :
    (∃ clientId, (server.slots clientId).controlOpen = true ∧
        server.toConnections.parseClientId cli arg = (server.toConnections, some clientId) ∧
        server.parseClientId cli arg = (server, some clientId)) ∨
      server.toConnections.parseClientId cli arg = (server.toConnections.closeConnection cli, none) ∧
        server.parseClientId cli arg = (server.closeConnection cli, none) := by
  have parsed := Connections.parse_client_id_cases server.toConnections cli arg
  unfold parseClientId
  cases parsed with
  | inl found =>
      obtain ⟨clientId, opened, same⟩ := found
      refine .inl ⟨clientId, opened, same, ?_⟩
      rw [same]
  | inr wrong =>
      refine .inr ⟨wrong, ?_⟩
      rw [wrong]

theorem control_pipe_connections :
    (server.handleControlPipe cli answer).toConnections =
      server.toConnections.handleControlPipe cli answer.toOutcome := by
  unfold handleControlPipe Connections.handleControlPipe
  simp only [close_osd_connections, close_data_connections]
  split
  · simp
  · split
    · simp
    · simp

theorem control_osd_connections :
    (server.handleControlOsd cli arg).toConnections =
      server.toConnections.handleControlOsd cli arg := by
  have parsed := parse_client_id_cases
    ((server.closeOsdConnection cli).closeDataConnection cli) cli arg
  unfold handleControlOsd Connections.handleControlOsd
  simp only [close_data_connections, close_osd_connections] at parsed ⊢
  cases parsed with
  | inl found =>
      obtain ⟨clientId, -, without, same⟩ := found
      rw [without, same]
      simp
  | inr wrong =>
      rw [wrong.1, wrong.2]
      simp

theorem control_data_connections :
    (server.handleControlData cli arg).toConnections =
      server.toConnections.handleControlData cli arg := by
  have parsed := parse_client_id_cases
    ((server.closeOsdConnection cli).closeDataConnection cli) cli arg
  unfold handleControlData Connections.handleControlData
  simp only [close_data_connections, close_osd_connections] at parsed ⊢
  split
  · simp
  · cases parsed with
    | inl found =>
        obtain ⟨clientId, -, without, same⟩ := found
        rw [without, same]
        simp
    | inr wrong =>
        rw [wrong.1, wrong.2]
        simp

@[simp] theorem join_multicast_connections :
    (server.joinMulticast cli answer).toConnections =
      server.toConnections.modify cli fun slot => { slot with multicast := true } := by
  unfold joinMulticast
  dsimp only
  split
  · simp
  · simp

theorem control_rtp_connections :
    (server.handleControlRtp cli answer).toConnections =
      server.toConnections.handleControlRtp cli := by
  unfold handleControlRtp Connections.handleControlRtp
  simp only [close_data_connections]
  split
  · simp
  · simp

theorem control_udp_connections :
    (server.handleControlUdp cli answer).toConnections =
      server.toConnections.handleControlUdp cli answer.toOutcome := by
  unfold handleControlUdp Connections.handleControlUdp
  simp only [close_data_connections]
  split
  · simp
  · split
    · simp
    · simp

theorem control_grab_connections :
    (server.handleControlGrab cli arg answer).toConnections =
      server.toConnections.handleControlGrab cli arg answer.toOutcome := by
  unfold handleControlGrab Connections.handleControlGrab
  cases scanInteger arg with
  | none => rfl
  | some token =>
      dsimp only
      cases scanInteger token.2 with
      | none => rfl
      | some size =>
          dsimp only
          split
          · simp
          · rfl

theorem start_request_connections (type : ConnType) (proper : ConnState → Bool) :
    (server.startRequest cli arg type proper).toConnections =
      server.toConnections.startRequest cli arg type proper := by
  unfold startRequest Connections.startRequest
  cases setCommand arg with
  | none => simp
  | some request =>
      dsimp only
      split
      · simp
      · simp

theorem answer_http_connections (request : ConnState) :
    (server.answerHttp cli request).toConnections = server.toConnections.answerHttp cli request := by
  unfold answerHttp Connections.answerHttp
  split
  · split
    · simp
    · simp
  · split
    · simp
    · simp

theorem control_http_connections :
    (server.handleControlHttp cli arg).toConnections =
      server.toConnections.handleControlHttp cli arg := by
  unfold handleControlHttp Connections.handleControlHttp
  have started :=
    start_request_connections (server.modify cli fun slot => { slot with writer := false })
    cli arg .http Connections.properHttp
  cases (server.slots cli).state with
  | none =>
      cases (server.slots cli).connType with
      | detecting | control | http | rtsp => exact started
  | some request =>
      cases (server.slots cli).connType with
      | detecting => exact started
      | control | rtsp => rfl
      | http =>
          dsimp only
          split
          · rfl
          · exact answer_http_connections server cli request

theorem answer_rtsp_connections (request : ConnState) :
    (server.answerRtsp cli answer request).toConnections =
      server.toConnections.answerRtsp cli request := by
  unfold answerRtsp Connections.answerRtsp
  split
  · simp
  · dsimp only
    split
    · simp
    · split
      · simp
      · simp

theorem control_rtsp_connections :
    (server.handleControlRtsp cli arg answer).toConnections =
      server.toConnections.handleControlRtsp cli arg := by
  unfold handleControlRtsp Connections.handleControlRtsp
  have started := start_request_connections server cli arg .rtsp Connections.properRtsp
  cases (server.slots cli).state with
  | none =>
      cases (server.slots cli).connType with
      | detecting | control | http | rtsp => exact started
  | some request =>
      cases (server.slots cli).connType with
      | detecting => exact started
      | control | http => rfl
      | rtsp =>
          dsimp only
          split
          · rfl
          · exact answer_rtsp_connections server cli answer request

end SlotSockets

/-! ## Messages and events -/

/-- What `Handle_Control` does with each kind of message. -/
def Connections.respond (server : Connections) (cli : Fin maxClients) (outcome : Outcome)
    (cmd : List UInt8) : Message → Connections
  | .rtsp => server.handleControlRtsp cli cmd
  | .http => server.handleControlHttp cli cmd
  | .pipe => server.handleControlPipe cli outcome
  | .rtp => server.handleControlRtp cli
  | .udp => server.handleControlUdp cli outcome
  | .data => server.handleControlData cli (cmd.drop 5)
  | .osd => server.handleControlOsd cli (cmd.drop 4)
  | .config => server.modify cli fun slot => { slot with configOk := true }
  | .info =>
      server.modify cli fun slot =>
        { slot with
          argbOsd := slot.argbOsd || (ascii "INFO ARGBOSD".toList).isPrefixOf cmd
          rleArgbOsd := slot.rleArgbOsd || (ascii "INFO ARGBOSD RLE".toList).isPrefixOf cmd }
  | .grab => server.handleControlGrab cli (cmd.drop 5) outcome
  | .close => server.closeConnection cli
  | .control => server.modify cli fun slot => { slot with connType := .control }
  | .other => server

theorem Connections.handle_control_respond (server : Connections) (cli : Fin maxClients)
    (outcome : Outcome) (cmd : List UInt8) :
    server.handleControl cli outcome cmd =
      server.respond cli outcome cmd (messageOf (server.slots cli).connType cmd) := by
  unfold handleControl messageOf
  simp only [apply_ite (server.respond cli outcome cmd)]
  rfl

/-- `Handle_ClientConnected` by the slot that the new client gets. -/
theorem Connections.connected_accepted (server : Connections)
    (peerKnown acceptable nonBlocking : Bool) :
    server.handleClientConnected peerKnown acceptable nonBlocking =
      match SlotSockets.acceptedIn server peerKnown acceptable nonBlocking with
      | none => server
      | some cli =>
          ((server.closeDataConnection cli).modify cli fun slot =>
            { slot with connType := .detecting, controlOpen := true }).forcePrimaryDevice true := by
  unfold handleClientConnected SlotSockets.acceptedIn
  cases (List.finRange maxClients).find? fun cli => !(server.slots cli).controlOpen with
  | none => rfl
  | some free =>
      have refused : (peerKnown = false ∨ acceptable = false ∨
          server.config.remoteMaxClients ≤ free.val ∨ nonBlocking = false) ↔
          ¬(peerKnown && acceptable && decide (free.val < server.config.remoteMaxClients) &&
            nonBlocking) = true := by
        simp only [Bool.and_eq_true, decide_eq_true_eq, not_and_or, Bool.not_eq_true, not_lt]
        tauto
      simp only [refused, Option.filter_some]
      by_cases accepted : (peerKnown && acceptable &&
          decide (free.val < server.config.remoteMaxClients) && nonBlocking) = true
      · simp [accepted]
      · simp [accepted]

namespace SlotSockets

variable (server : SlotSockets) (cli : Fin maxClients) (answer : SystemAnswer)

theorem handle_control_connections (cmd : List UInt8) :
    (server.handleControl cli answer cmd).toConnections =
      server.toConnections.handleControl cli answer.toOutcome cmd := by
  rw [Connections.handle_control_respond]
  unfold handleControl
  cases messageOf (server.slots cli).connType cmd with
  | rtsp => exact control_rtsp_connections server cli cmd answer
  | http => exact control_http_connections server cli cmd
  | pipe => exact control_pipe_connections server cli answer
  | rtp => exact control_rtp_connections server cli answer
  | udp => exact control_udp_connections server cli answer
  | data => exact control_data_connections server cli (cmd.drop 5)
  | osd => exact control_osd_connections server cli (cmd.drop 4)
  | grab => exact control_grab_connections server cli (cmd.drop 5) answer
  | close => exact close_connections server cli
  | config | info | control | other => rfl

/-- The event for `Connections` that a byte ends in. -/
def readEvents (server : SlotSockets) (cli : Fin maxClients) (byte : UInt8)
    (outcome : Outcome) : List ConnectionEvent :=
  let buf := server.ctrlBuf cli ++ [byte]
  if ctrlBufSize - 2 < buf.length then [.dropped cli]
  else
    match completeMessage buf with
    | some cmd => [.received cli cmd outcome]
    | none => []

/-- What an event is for `Connections`. -/
def eventsOf (server : SlotSockets) : SocketEvent → List ConnectionEvent
  | .connected peerKnown acceptable nonBlocking _ _ =>
      [.connected peerKnown acceptable nonBlocking]
  | .received cli byte answer =>
      if (server.slots cli).controlOpen then server.readEvents cli byte answer.toOutcome else []
  | .dropped cli => [.dropped cli]
  | .osdFailed cli =>
      if (server.slots cli).controlOpen ∧ (server.slots cli).configOk ∧
          server.isOpen (server.osdSocket cli) then
        if (server.slots cli).osdConn then [.osdDropped cli] else [.dropped cli]
      else []
  | .playing play => [.configured { server.config with play := play }]

theorem connected_connections (peerKnown acceptable nonBlocking primary : Bool) (kernel : Kernel) :
    (server.handleClientConnected peerKnown acceptable nonBlocking primary kernel).toConnections =
      server.toConnections.handleClientConnected peerKnown acceptable nonBlocking := by
  rw [Connections.connected_accepted]
  unfold handleClientConnected
  dsimp only
  cases acceptedIn server.toConnections peerKnown acceptable nonBlocking with
  | none => rfl
  | some cli =>
      cases primary with
      | true => simp
      | false => simp

variable {server}

/-- Every event is a run of the slots alone. -/
theorem perform_connections (setPrimaryDevice : Nat → Nat → Nat) (event : SocketEvent) :
    (server.perform event).toConnections =
      (server.eventsOf event).foldl (Connections.perform setPrimaryDevice) server.toConnections := by
  cases event with
  | connected peerKnown acceptable nonBlocking primary kernel =>
      exact connected_connections server peerKnown acceptable nonBlocking primary kernel
  | received cli byte answer =>
      unfold perform eventsOf
      dsimp only
      split
      · next opened =>
          unfold readControl readEvents
          dsimp only
          split
          · simp [Connections.perform]
          · cases completeMessage (server.ctrlBuf cli ++ [byte]) with
            | none => rfl
            | some cmd =>
                simp [Connections.perform, opened, handle_control_connections]
      · rfl
  | dropped cli => exact close_connections server cli
  | osdFailed cli =>
      unfold perform osdCmdFailed eventsOf
      dsimp only
      split
      · split
        · simp [Connections.perform]
        · simp [Connections.perform]
      · rfl
  | playing play => rfl

end SlotSockets
end Xineliboutput.Server
