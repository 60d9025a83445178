import Xineliboutput.Server.SlotSimulation

/-!
# What is left in a slot

`Handle_ClientConnected` resets less than `CloseConnection`: it relies on what a slot without
control socket holds. A hand-over of the socket to another slot can leave `m_bOsdConn` set,
and an HTTP stream can give a writer to a client of the UDP scheduler. All other messages
keep the slots clean.
-/

namespace Xineliboutput.Server

open Xineliboutput.Foundation
open Xineliboutput.Client (startsWith)

set_option autoImplicit false

structure Slot.Clean (slot : Slot) : Prop where
  shut : slot.controlOpen = false → slot.osdConn = false ∧ slot.state = none
  request : slot.state ≠ none → slot.connType = .http ∨ slot.connType = .rtsp
  udp : slot.udp = true → slot.dataOpen = true ∧ slot.writer = false

namespace Connections

def Clean (server : Connections) : Prop := ∀ cli, (server.slots cli).Clean

/-- The answer to the request that the message completes is the stream of the primary
device. -/
def AnswersPrimary (server : Connections) (cli : Fin maxClients) (cmd : List UInt8) : Prop :=
  cmd = [] ∧ server.config.remoteUseHttp = true ∧ (server.slots cli).connType = .http ∧
    ∃ request, (server.slots cli).state = some request ∧ request.uri = ascii "/".toList

/-- A socket is handed over by a slot without OSD connection only, and as OSD socket only to
another slot. The HTTP stream is for clients that do not use UDP. -/
def ProperMessage (server : Connections) (cli : Fin maxClients) (cmd : List UInt8) : Prop :=
  match messageOf (server.slots cli).connType cmd with
  | .osd =>
      ∀ clientId, (server.parseClientId cli (cmd.drop 4)).2 = some clientId →
        clientId ≠ cli ∧ (server.slots cli).osdConn = false
  | .data =>
      server.config.remoteUseTcp = true → (server.parseClientId cli (cmd.drop 5)).2 ≠ none →
        (server.slots cli).osdConn = false
  | .http => server.AnswersPrimary cli cmd → (server.slots cli).udp = false
  | _ => True

def OpensOsd (server : Connections) (cli : Fin maxClients) (cmd : List UInt8)
    (target : Fin maxClients) : Prop :=
  messageOf (server.slots cli).connType cmd = .osd ∧
    (server.parseClientId cli (cmd.drop 4)).2 = some target

/-- Clean slots stay clean, and `m_bOsdConn` is set only where it was asked for. -/
structure Tidy (asked : Fin maxClients → Prop) (server next : Connections) : Prop where
  clean : server.Clean → next.Clean
  osdConn : ∀ cli, (next.slots cli).osdConn = true → (server.slots cli).osdConn = true ∨ asked cli

variable {asked : Fin maxClients → Prop} {server middle next : Connections} {cli : Fin maxClients}

theorem Tidy.refl (server : Connections) : Tidy asked server server := ⟨id, fun _ set => .inl set⟩

theorem Tidy.trans (first : Tidy asked server middle) (second : Tidy asked middle next) :
    Tidy asked server next := by
  constructor
  · exact fun clean => second.clean (first.clean clean)
  · intro cli set
    cases second.osdConn cli set with
    | inl earlier => exact first.osdConn cli earlier
    | inr asked => exact .inr asked

theorem Tidy.mono {more : Fin maxClients → Prop} (tidy : Tidy asked server next)
    (wider : ∀ cli, asked cli → more cli) : Tidy more server next :=
  ⟨tidy.clean, fun cli set => (tidy.osdConn cli set).imp_right (wider cli)⟩

theorem modify_tidy (change : Slot → Slot)
    (clean : (server.slots cli).Clean → (change (server.slots cli)).Clean)
    (osdConn : (change (server.slots cli)).osdConn = true →
      (server.slots cli).osdConn = true ∨ asked cli) :
    Tidy asked server (server.modify cli change) := by
  constructor
  · intro all other
    rw [modify_slot]
    split
    · exact clean (all cli)
    · exact all other
  · intro other
    rw [modify_slot]
    split
    · next same =>
        rw [same]
        exact osdConn
    · exact .inl

theorem force_tidy (on : Bool) : Tidy asked server (server.forcePrimaryDevice on) :=
  ⟨id, fun _ set => .inl set⟩

/-! ## Closing -/

theorem close_data_slot (other : Fin maxClients) :
    (server.closeDataConnection cli).slots other =
      if other = cli then
        { server.slots cli with
          dataOpen := false
          writer := false
          udp := false
          multicast := false
          configOk := false
          argbOsd := false
          rleArgbOsd := false }
      else server.slots other := modify_slot _ other

theorem close_osd_slot (other : Fin maxClients) :
    (server.closeOsdConnection cli).slots other =
      if other = cli then { server.slots cli with osdOpen := false } else server.slots other :=
  modify_slot _ other

def controlPart (server : Connections) (cli : Fin maxClients) :
    Bool × Bool × ConnType × Option ConnState :=
  ((server.slots cli).controlOpen, (server.slots cli).osdConn, (server.slots cli).connType,
    (server.slots cli).state)

@[simp] theorem close_data_control (other : Fin maxClients) :
    (server.closeDataConnection cli).controlPart other = server.controlPart other := by
  unfold controlPart
  rw [close_data_slot]
  split
  · next same => rw [same]
  · rfl

@[simp] theorem close_osd_control (other : Fin maxClients) :
    (server.closeOsdConnection cli).controlPart other = server.controlPart other := by
  unfold controlPart
  rw [close_osd_slot]
  split
  · next same => rw [same]
  · rfl

theorem close_data_tidy : Tidy asked server (server.closeDataConnection cli) :=
  modify_tidy _ (fun clean => ⟨clean.shut, clean.request, nofun⟩) .inl

theorem close_osd_tidy : Tidy asked server (server.closeOsdConnection cli) :=
  modify_tidy _ (fun clean => ⟨clean.shut, clean.request, clean.udp⟩) .inl

theorem close_connection_slot :
    (server.closeConnection cli).slots cli =
      { server.slots cli with
        controlOpen := false
        osdOpen := false
        dataOpen := false
        writer := false
        udp := false
        multicast := false
        configOk := false
        argbOsd := false
        rleArgbOsd := false
        osdConn := false
        state := if (server.slots cli).controlOpen then none else (server.slots cli).state } := by
  unfold closeConnection
  cases opened : (server.slots cli).controlOpen with
  | true => simp [forcePrimaryDevice, modify_slot, close_osd_slot, close_data_slot, opened]
  | false => simp [modify_slot, close_osd_slot, close_data_slot, opened]

theorem close_connection_other {other : Fin maxClients} (different : other ≠ cli) :
    (server.closeConnection cli).slots other = server.slots other := by
  unfold closeConnection
  cases opened : (server.slots cli).controlOpen with
  | true => simp [forcePrimaryDevice, modify_slot, close_osd_slot, close_data_slot, opened, different]
  | false => simp [modify_slot, close_osd_slot, close_data_slot, opened, different]

theorem close_connection_cleans (others : ∀ other, other ≠ cli → (server.slots other).Clean)
    (shut : (server.slots cli).controlOpen = false → (server.slots cli).state = none) :
    (server.closeConnection cli).Clean := by
  intro other
  by_cases same : other = cli
  · subst same
    rw [close_connection_slot]
    have gone : (if (server.slots other).controlOpen = true then none
        else (server.slots other).state) = none := by
      cases opened : (server.slots other).controlOpen with
      | true => rfl
      | false => exact shut opened
    exact ⟨fun _ => ⟨rfl, gone⟩, fun some => absurd gone some, nofun⟩
  · rw [close_connection_other same]
    exact others other same

theorem close_connection_osd (other : Fin maxClients)
    (set : ((server.closeConnection cli).slots other).osdConn = true) :
    (server.slots other).osdConn = true := by
  by_cases same : other = cli
  · subst same
    rw [close_connection_slot] at set
    cases set
  · rwa [close_connection_other same] at set

theorem close_connection_tidy : Tidy asked server (server.closeConnection cli) where
  clean := fun clean => close_connection_cleans (fun other _ => clean other)
    fun closed => ((clean cli).shut closed).2
  osdConn := fun other set => .inl (close_connection_osd other set)

/-! ## Handlers -/

variable {arg cmd : List UInt8} {outcome : Outcome}

theorem parse_found_congr (same : ∀ other, next.controlPart other = server.controlPart other) :
    (next.parseClientId cli arg).2 = (server.parseClientId cli arg).2 := by
  have controls : ∀ other, (next.slots other).controlOpen = (server.slots other).controlOpen :=
    fun other => congrArg Prod.fst (same other)
  unfold parseClientId
  cases scanClientId arg with
  | none => rfl
  | some id =>
      dsimp only
      split
      · rw [controls]
        split
        · rfl
        · rfl
      · rfl

theorem handle_pipe_tidy : Tidy asked server (server.handleControlPipe cli outcome) := by
  have closes : Tidy asked server ((server.closeDataConnection cli).closeOsdConnection cli) :=
    close_data_tidy.trans close_osd_tidy
  unfold handleControlPipe
  dsimp only
  split
  · exact closes
  · split
    · apply closes.trans (modify_tidy _ ?_ .inl)
      intro clean
      exact ⟨clean.shut, clean.request, by simp [close_osd_slot, close_data_slot]⟩
    · exact closes

theorem handle_rtp_tidy : Tidy asked server (server.handleControlRtp cli) := by
  unfold handleControlRtp
  dsimp only
  split
  · exact close_data_tidy
  · exact close_data_tidy.trans
      (modify_tidy _ (fun clean => ⟨clean.shut, clean.request, clean.udp⟩) .inl)

theorem handle_udp_tidy : Tidy asked server (server.handleControlUdp cli outcome) := by
  unfold handleControlUdp
  dsimp only
  split
  · exact close_data_tidy
  · split
    · apply close_data_tidy.trans (modify_tidy _ ?_ .inl)
      intro clean
      exact ⟨clean.shut, clean.request, by simp [close_data_slot]⟩
    · exact close_data_tidy

theorem handle_grab_tidy : Tidy asked server (server.handleControlGrab cli arg outcome) := by
  unfold handleControlGrab
  split
  · exact .refl server
  · split
    · exact .refl server
    · split
      · exact close_connection_tidy
      · exact .refl server

theorem start_request_tidy (opened : (server.slots cli).controlOpen = true) (type : ConnType)
    (request : type = .http ∨ type = .rtsp) (proper : ConnState → Bool) :
    Tidy asked server (server.startRequest cli arg type proper) := by
  unfold startRequest
  split
  · exact close_connection_tidy
  · split
    · apply modify_tidy _ _ .inl
      intro clean
      refine ⟨?_, fun _ => request, clean.udp⟩
      intro shut
      rw [opened] at shut
      cases shut
    · exact close_connection_tidy

theorem detach_tidy :
    Tidy asked server ((server.modify cli fun slot =>
      { slot with controlOpen := false, state := none }).closeConnection cli) := by
  constructor
  · intro clean
    apply close_connection_cleans
    · intro other different
      rw [modify_slot, if_neg different]
      exact clean other
    · intro _
      rw [modify_slot, if_pos rfl]
  · intro other set
    have earlier := close_connection_osd other set
    rw [modify_slot] at earlier
    split at earlier
    · next same => exact .inl (same ▸ earlier)
    · exact .inl earlier

theorem answer_http_tidy (request : ConnState)
    (proper : request.uri = ascii "/".toList → server.config.remoteUseHttp = true →
      (server.slots cli).udp = false) :
    Tidy asked server (server.answerHttp cli request) := by
  unfold answerHttp
  split
  · next root =>
      split
      · exact close_connection_tidy
      · next enabled =>
          have without := proper root (Bool.not_eq_false _ ▸ enabled)
          apply modify_tidy _ _ .inl
          intro clean
          refine ⟨fun shut => ⟨(clean.shut shut).1, rfl⟩, fun some => absurd rfl some, ?_⟩
          intro udp
          rw [without] at udp
          cases udp
  · split
    · exact detach_tidy
    · exact close_connection_tidy

theorem handle_http_tidy (opened : (server.slots cli).controlOpen = true)
    (proper : server.AnswersPrimary cli arg → (server.slots cli).udp = false) :
    Tidy asked server (server.handleControlHttp cli arg) := by
  have silent : Tidy asked server (server.modify cli fun slot => { slot with writer := false }) :=
    modify_tidy _ (fun clean => ⟨clean.shut, clean.request, fun udp => ⟨(clean.udp udp).1, rfl⟩⟩) .inl
  have still : ((server.modify cli fun slot => { slot with writer := false }).slots
      cli).controlOpen = true := by
    rw [modify_slot, if_pos rfl]
    exact opened
  unfold handleControlHttp
  split
  · next request type held =>
      split
      · exact .refl server
      · next complete =>
          apply answer_http_tidy
          intro root enabled
          exact proper ⟨not_not.mp complete, enabled, type, request, held, root⟩
  · exact silent.trans (start_request_tidy still _ (.inl rfl) _)
  · exact silent.trans (start_request_tidy still _ (.inl rfl) _)
  · exact .refl server

theorem answer_rtsp_tidy (request : ConnState) :
    Tidy asked server (server.answerRtsp cli request) := by
  have done : ∀ server : Connections,
      Tidy asked server (server.modify cli fun slot => { slot with state := none }) := by
    intro server
    apply modify_tidy _ _ .inl
    intro clean
    exact ⟨fun shut => ⟨(clean.shut shut).1, rfl⟩, fun some => absurd rfl some, clean.udp⟩
  unfold answerRtsp
  dsimp only
  split
  · exact close_connection_tidy
  · split
    · refine Tidy.trans ?_ (done _)
      exact modify_tidy _ (fun clean => ⟨clean.shut, clean.request, clean.udp⟩) .inl
    · split
      · exact close_connection_tidy.trans (done _)
      · exact done server

theorem handle_rtsp_tidy (opened : (server.slots cli).controlOpen = true) :
    Tidy asked server (server.handleControlRtsp cli arg) := by
  unfold handleControlRtsp
  split
  · split
    · exact .refl server
    · exact answer_rtsp_tidy _
  · exact start_request_tidy opened _ (.inr rfl) _
  · exact start_request_tidy opened _ (.inr rfl) _
  · exact .refl server

/-! ## Sockets that are handed over -/

theorem message_of_rtsp : messageOf .rtsp cmd = .rtsp := if_pos (.inr (.inr (.inr rfl)))

theorem message_of_http : messageOf .http cmd = .rtsp ∨ messageOf .http cmd = .http := by
  by_cases words : startsWith cmd (ascii "OPTIONS ".toList) ∨
      startsWith cmd (ascii "SETUP ".toList) ∨ startsWith cmd (ascii "DESCRIBE ".toList) ∨
      ConnType.http = .rtsp
  · exact .inl (if_pos words)
  · exact .inr ((if_neg words).trans (if_pos (.inr rfl)))

theorem message_of_plain {type : ConnType} (notRtsp : messageOf type cmd ≠ .rtsp)
    (notHttp : messageOf type cmd ≠ .http) : ¬(type = .http ∨ type = .rtsp) := by
  intro stream
  cases stream with
  | inl http =>
      subst http
      exact message_of_http.elim notRtsp notHttp
  | inr rtsp =>
      subst rtsp
      exact notRtsp message_of_rtsp

theorem give_control_tidy (same : middle.controlPart cli = server.controlPart cli)
    (osdConn : (server.slots cli).osdConn = false)
    (plain : ¬((server.slots cli).connType = .http ∨ (server.slots cli).connType = .rtsp)) :
    Tidy asked middle (middle.modify cli fun slot => { slot with controlOpen := false }) := by
  simp only [controlPart, Prod.mk.injEq] at same
  obtain ⟨-, sameOsd, sameType, -⟩ := same
  rw [← sameOsd] at osdConn
  rw [← sameType] at plain
  apply modify_tidy _ _ .inl
  intro clean
  refine ⟨fun _ => ⟨osdConn, ?_⟩, clean.request, clean.udp⟩
  by_contra some
  exact plain (clean.request some)

theorem closed_both_tidy :
    Tidy asked server ((server.closeOsdConnection cli).closeDataConnection cli) :=
  close_osd_tidy.trans close_data_tidy

theorem closed_both_found (server : Connections) (cli : Fin maxClients) (arg : List UInt8) :
    (((server.closeOsdConnection cli).closeDataConnection cli).parseClientId cli arg).2 =
      (server.parseClientId cli arg).2 :=
  parse_found_congr (by simp)

theorem handle_osd_tidy
    (plain : ¬((server.slots cli).connType = .http ∨ (server.slots cli).connType = .rtsp))
    (proper : ∀ clientId, (server.parseClientId cli arg).2 = some clientId →
      clientId ≠ cli ∧ (server.slots cli).osdConn = false)
    (names : ∀ clientId, (server.parseClientId cli arg).2 = some clientId → asked clientId) :
    Tidy asked server (server.handleControlOsd cli arg) := by
  have closes : Tidy asked server ((server.closeOsdConnection cli).closeDataConnection cli) :=
    closed_both_tidy
  have sameClient := closed_both_found server cli arg
  unfold handleControlOsd
  dsimp only
  rcases parse_client_id_cases ((server.closeOsdConnection cli).closeDataConnection cli) cli arg with
    ⟨clientId, opened, found⟩ | wrong
  · rw [found]
    rw [found] at sameClient
    obtain ⟨different, osdConn⟩ := proper clientId sameClient.symm
    dsimp only
    have shuts : Tidy asked server
        (((server.closeOsdConnection cli).closeDataConnection cli).closeOsdConnection clientId) :=
      closes.trans close_osd_tidy
    have gives := shuts.trans (give_control_tidy (by simp) osdConn plain)
    apply (gives.trans (modify_tidy _ ?_ ?_)).trans (force_tidy false)
    · intro clean
      refine ⟨?_, clean.request, clean.udp⟩
      intro shut
      rw [modify_slot, if_neg different, close_osd_slot, if_pos rfl, opened] at shut
      cases shut
    · exact fun _ => .inr (names clientId sameClient.symm)
  · rw [wrong]
    exact closes.trans close_connection_tidy

theorem handle_data_tidy
    (plain : ¬((server.slots cli).connType = .http ∨ (server.slots cli).connType = .rtsp))
    (proper : server.config.remoteUseTcp = true → (server.parseClientId cli arg).2 ≠ none →
      (server.slots cli).osdConn = false) :
    Tidy asked server (server.handleControlData cli arg) := by
  have closes : Tidy asked server ((server.closeOsdConnection cli).closeDataConnection cli) :=
    closed_both_tidy
  have sameClient := closed_both_found server cli arg
  unfold handleControlData
  dsimp only
  split
  · exact closes.trans close_connection_tidy
  · next enabled =>
      rcases parse_client_id_cases ((server.closeOsdConnection cli).closeDataConnection cli) cli arg with
        ⟨clientId, -, found⟩ | wrong
      · rw [found]
        rw [found] at sameClient
        have osdConn := proper (Bool.not_eq_false _ ▸ enabled) (by rw [← sameClient]; exact nofun)
        dsimp only
        have shuts : Tidy asked server
            (((server.closeOsdConnection cli).closeDataConnection cli).closeDataConnection clientId) :=
          closes.trans close_data_tidy
        have gives := shuts.trans (give_control_tidy (by simp) osdConn plain)
        apply (gives.trans (modify_tidy _ ?_ .inl)).trans (force_tidy false)
        intro clean
        refine ⟨clean.shut, clean.request, ?_⟩
        by_cases same : clientId = cli
        · simp [modify_slot, close_data_slot, same]
        · simp [modify_slot, close_data_slot, same]
      · rw [wrong]
        exact closes.trans close_connection_tidy

/-! ## Messages and connections -/

theorem handle_control_tidy (opened : (server.slots cli).controlOpen = true)
    (proper : server.ProperMessage cli cmd) :
    Tidy (server.OpensOsd cli cmd) server (server.handleControl cli outcome cmd) := by
  rw [handle_control_respond]
  unfold respond
  unfold ProperMessage at proper
  have plain : messageOf (server.slots cli).connType cmd ≠ .rtsp →
      messageOf (server.slots cli).connType cmd ≠ .http →
      ¬((server.slots cli).connType = .http ∨ (server.slots cli).connType = .rtsp) :=
    message_of_plain
  cases kind : messageOf (server.slots cli).connType cmd with
  | rtsp => exact handle_rtsp_tidy opened
  | http =>
      rw [kind] at proper
      exact handle_http_tidy opened proper
  | pipe => exact handle_pipe_tidy
  | rtp => exact handle_rtp_tidy
  | udp => exact handle_udp_tidy
  | data =>
      rw [kind] at proper plain
      exact handle_data_tidy (plain nofun nofun) proper
  | osd =>
      rw [kind] at proper plain
      exact handle_osd_tidy (plain nofun nofun) proper fun clientId found => ⟨kind, found⟩
  | grab => exact handle_grab_tidy
  | close => exact close_connection_tidy
  | config | info =>
      exact modify_tidy _ (fun clean => ⟨clean.shut, clean.request, clean.udp⟩) .inl
  | control =>
      rw [kind] at plain
      apply modify_tidy _ _ .inl
      intro clean
      exact ⟨clean.shut, fun some => absurd (clean.request some) (plain nofun nofun), clean.udp⟩
  | other => exact .refl server

theorem accepted_shut {peerKnown acceptable nonBlocking : Bool}
    (accepted : SlotSockets.acceptedIn server peerKnown acceptable nonBlocking = some cli) :
    (server.slots cli).controlOpen = false := by
  have found := List.find?_some (Option.filter_eq_some_iff.mp accepted).1
  exact Bool.not_eq_true' _ ▸ found

theorem connected_tidy (peerKnown acceptable nonBlocking : Bool) :
    Tidy asked server (server.handleClientConnected peerKnown acceptable nonBlocking) := by
  rw [connected_accepted]
  split
  · exact .refl server
  · next cli accepted =>
      have shut := accepted_shut accepted
      refine (close_data_tidy.trans (modify_tidy _ ?_ .inl)).trans (force_tidy true)
      intro clean
      have empty : (((server.closeDataConnection cli).slots cli)).state = none := by
        apply (clean.shut _).2
        rw [close_data_slot, if_pos rfl]
        exact shut
      exact ⟨nofun, fun some => absurd empty some, clean.udp⟩

end Connections
end Xineliboutput.Server
