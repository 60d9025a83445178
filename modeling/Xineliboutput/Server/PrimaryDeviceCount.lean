import Mathlib.Data.Fintype.Card
import Xineliboutput.Foundation.Machine
import Xineliboutput.Server.Connections

/-!
# Counting the clients of the primary device

Every message changes the set of open control sockets and the queue of the main thread in
one of a few ways. The count and the queue together stay equal to the number of open
sockets, but for the socket that is handed to an HTTP streamer.
-/

namespace Xineliboutput.Server

open Xineliboutput.Foundation
open Xineliboutput.Device
open Xineliboutput.Client (startsWith)

set_option autoImplicit false

namespace Connections

/-! ## What an event does to the control sockets -/

def controls (server : Connections) (cli : Fin maxClients) : Bool := (server.slots cli).controlOpen

/-- Neither the control sockets nor the device are concerned. -/
structure Quiet (server next : Connections) : Prop where
  controls : next.controls = server.controls
  device : next.device = server.device

inductive Effect (server next : Connections) : Prop where
  | quiet (same : Quiet server next)
  | opened (cli : Fin maxClients) (was : server.controls cli = false)
      (controls : next.controls = Function.update server.controls cli true)
      (device : next.device = server.device.forcePrimaryDevice true)
  | closed (cli : Fin maxClients) (was : server.controls cli = true)
      (controls : next.controls = Function.update server.controls cli false)
      (device : next.device = server.device.forcePrimaryDevice false)

/-- A socket is taken away and the device is not told. -/
inductive Detached (server next : Connections) : Prop where
  | detached (cli : Fin maxClients) (was : server.controls cli = true)
      (controls : next.controls = Function.update server.controls cli false)
      (device : next.device = server.device)

variable {server middle next : Connections} {cli : Fin maxClients}

theorem Quiet.refl (server : Connections) : Quiet server server := ⟨rfl, rfl⟩

theorem Quiet.trans (first : Quiet server middle) (second : Quiet middle next) :
    Quiet server next :=
  ⟨second.controls.trans first.controls, second.device.trans first.device⟩

theorem Quiet.effect (first : Quiet server middle) (second : Effect middle next) :
    Effect server next := by
  cases second with
  | quiet same => exact .quiet (first.trans same)
  | opened cli was controls device =>
      rw [first.controls] at was controls
      rw [first.device] at device
      exact .opened cli was controls device
  | closed cli was controls device =>
      rw [first.controls] at was controls
      rw [first.device] at device
      exact .closed cli was controls device

theorem Effect.quietly (first : Effect server middle) (second : Quiet middle next) :
    Effect server next := by
  cases first with
  | quiet same => exact .quiet (same.trans second)
  | opened cli was controls device =>
      exact .opened cli was (second.controls.trans controls) (second.device.trans device)
  | closed cli was controls device =>
      exact .closed cli was (second.controls.trans controls) (second.device.trans device)

theorem modify_controls (change : Slot → Slot) (value : Bool)
    (sets : (change (server.slots cli)).controlOpen = value) :
    (server.modify cli change).controls = Function.update server.controls cli value := by
  funext other
  rw [controls, modify_slot, Function.update_apply]
  split
  · exact sets
  · rfl

theorem modify_quiet (change : Slot → Slot)
    (keeps : (change (server.slots cli)).controlOpen = (server.slots cli).controlOpen) :
    Quiet server (server.modify cli change) := by
  constructor
  · rw [modify_controls change _ keeps]
    exact Function.update_eq_self cli server.controls
  · rfl

theorem force_controls (on : Bool) : (server.forcePrimaryDevice on).controls = server.controls := rfl

theorem close_data_quiet : Quiet server (server.closeDataConnection cli) := modify_quiet _ rfl

theorem close_osd_quiet : Quiet server (server.closeOsdConnection cli) := modify_quiet _ rfl

theorem close_connection_effect : Effect server (server.closeConnection cli) := by
  have quiet : Quiet server (((server.closeDataConnection cli).closeOsdConnection cli).modify cli
      fun slot => { slot with osdConn := false }) :=
    (close_data_quiet.trans close_osd_quiet).trans (modify_quiet _ rfl)
  unfold closeConnection
  dsimp only
  split
  · rename_i opened
    apply quiet.effect
    apply Effect.closed cli opened
    · rw [force_controls]
      exact modify_controls _ false rfl
    · rfl
  · exact .quiet quiet

theorem close_connection_closed (shut : server.controls cli = false) :
    Quiet server (server.closeConnection cli) := by
  have quiet : Quiet server (((server.closeDataConnection cli).closeOsdConnection cli).modify cli
      fun slot => { slot with osdConn := false }) :=
    (close_data_quiet.trans close_osd_quiet).trans (modify_quiet _ rfl)
  unfold closeConnection
  dsimp only
  split
  · rename_i opened
    have still := congrFun quiet.controls cli
    rw [shut] at still
    exact absurd opened (Bool.eq_false_iff.mp still)
  · exact quiet

/-! ## Handlers -/

variable (arg : List UInt8) (outcome : Outcome)

theorem parse_client_id_effect (server : Connections) (cli : Fin maxClients) :
    match server.parseClientId cli arg with
    | (next, none) => Effect server next
    | (next, some _) => next = server := by
  unfold parseClientId
  cases scanClientId arg with
  | none => exact close_connection_effect
  | some id =>
      dsimp only
      by_cases valid : 0 ≤ id ∧ id < maxClients
      · rw [dif_pos valid]
        split
        · rename_i same
          split at same
          · cases same
          · cases same
            exact close_connection_effect
        · rename_i same
          split at same
          · cases same
            rfl
          · cases same
      · rw [dif_neg valid]
        exact close_connection_effect

theorem handle_pipe_effect : Effect server (server.handleControlPipe cli outcome) := by
  have quiet : Quiet server ((server.closeDataConnection cli).closeOsdConnection cli) :=
    close_data_quiet.trans close_osd_quiet
  unfold handleControlPipe
  dsimp only
  split
  · exact .quiet quiet
  · split
    · exact .quiet (quiet.trans (modify_quiet _ rfl))
    · exact .quiet quiet

theorem hand_over_effect {clientId : Fin maxClients} (opened : server.controls cli = true)
    (change : Slot → Slot) (keeps : ∀ slot, (change slot).controlOpen = slot.controlOpen) :
    Effect server (((server.modify cli fun slot => { slot with controlOpen := false }).modify clientId
      change).forcePrimaryDevice false) := by
  apply Effect.closed cli opened
  · rw [force_controls, (modify_quiet change (keeps _)).controls]
    exact modify_controls _ false rfl
  · rfl

theorem named_client_effect (take : Connections → Fin maxClients → Connections)
    (taken : ∀ clientId, Effect server (take server clientId)) :
    Effect server
      (match server.parseClientId cli arg with
      | (server, none) => server
      | (server, some clientId) => take server clientId) := by
  have parsed := parse_client_id_effect arg server cli
  split
  · rename_i result
    rw [result] at parsed
    exact parsed
  · rename_i clientId result
    rw [result] at parsed
    rw [parsed]
    exact taken clientId

theorem handle_osd_effect (opened : server.controls cli = true) :
    Effect server (server.handleControlOsd cli arg) := by
  have quiet : Quiet server ((server.closeOsdConnection cli).closeDataConnection cli) :=
    close_osd_quiet.trans close_data_quiet
  unfold handleControlOsd
  dsimp only
  refine quiet.effect (named_client_effect arg _ fun clientId => ?_)
  have shut : Quiet ((server.closeOsdConnection cli).closeDataConnection cli)
      (((server.closeOsdConnection cli).closeDataConnection cli).closeOsdConnection clientId) :=
    close_osd_quiet
  have still := congrFun (quiet.trans shut).controls cli
  exact shut.effect (hand_over_effect (still.trans opened) _ fun _ => rfl)

theorem handle_data_effect (opened : server.controls cli = true) :
    Effect server (server.handleControlData cli arg) := by
  have quiet : Quiet server ((server.closeOsdConnection cli).closeDataConnection cli) :=
    close_osd_quiet.trans close_data_quiet
  unfold handleControlData
  dsimp only
  split
  · exact quiet.effect close_connection_effect
  · refine quiet.effect (named_client_effect arg _ fun clientId => ?_)
    have shut : Quiet ((server.closeOsdConnection cli).closeDataConnection cli)
        (((server.closeOsdConnection cli).closeDataConnection cli).closeDataConnection clientId) :=
      close_data_quiet
    have still := congrFun (quiet.trans shut).controls cli
    exact shut.effect (hand_over_effect (still.trans opened) _ fun _ => rfl)

theorem handle_rtp_effect : Effect server (server.handleControlRtp cli) := by
  unfold handleControlRtp
  dsimp only
  split
  · exact .quiet close_data_quiet
  · exact .quiet (close_data_quiet.trans (modify_quiet _ rfl))

theorem handle_udp_effect : Effect server (server.handleControlUdp cli outcome) := by
  unfold handleControlUdp
  dsimp only
  split
  · exact .quiet close_data_quiet
  · split
    · exact .quiet (close_data_quiet.trans (modify_quiet _ rfl))
    · exact .quiet close_data_quiet

theorem handle_grab_effect : Effect server (server.handleControlGrab cli arg outcome) := by
  unfold handleControlGrab
  split
  · exact .quiet (.refl server)
  · split
    · exact .quiet (.refl server)
    · split
      · exact close_connection_effect
      · exact .quiet (.refl server)

theorem start_request_effect (type : ConnType) (proper : ConnState → Bool) :
    Effect server (server.startRequest cli arg type proper) := by
  unfold startRequest
  split
  · exact close_connection_effect
  · split
    · exact .quiet (modify_quiet _ rfl)
    · exact close_connection_effect

def StreamsFile (server : Connections) (request : ConnState) : Prop :=
  (ascii "/PLAYFILE".toList).isPrefixOf request.uri = true ∧
    server.config.play.handleControlHttp (request.uri.drop 9) ≠ .notFound

theorem answer_http_effect (request : ConnState) (other : ¬server.StreamsFile request) :
    Effect server (server.answerHttp cli request) := by
  unfold answerHttp
  split
  · split
    · exact close_connection_effect
    · exact .quiet (modify_quiet _ rfl)
  · split
    · rename_i streams
      exact absurd streams other
    · exact close_connection_effect

theorem answer_http_detached (opened : server.controls cli = true) (request : ConnState)
    (streams : server.StreamsFile request) :
    Detached server (server.answerHttp cli request) := by
  have file : request.uri ≠ ascii "/".toList := by
    intro root
    have word := streams.1
    rw [root] at word
    revert word
    decide
  have taken : (server.modify cli fun slot =>
      { slot with controlOpen := false, state := none }).controls =
      Function.update server.controls cli false := modify_controls _ false rfl
  have shut : (server.modify cli fun slot =>
      { slot with controlOpen := false, state := none }).controls cli = false := by
    rw [taken, Function.update_self]
  have quiet := close_connection_closed shut
  obtain ⟨word, served⟩ := streams
  unfold answerHttp
  rw [if_neg file, if_pos ⟨word, served⟩]
  exact .detached cli opened (quiet.controls.trans taken) quiet.device

theorem answer_rtsp_effect (request : ConnState) :
    Effect server (server.answerRtsp cli request) := by
  unfold answerRtsp
  dsimp only
  split
  · exact close_connection_effect
  · split
    · exact .quiet ((modify_quiet _ rfl).trans (modify_quiet _ rfl))
    · split
      · exact close_connection_effect.quietly (modify_quiet _ rfl)
      · exact .quiet (modify_quiet _ rfl)

theorem handle_rtsp_effect : Effect server (server.handleControlRtsp cli arg) := by
  unfold handleControlRtsp
  split
  · split
    · exact .quiet (.refl server)
    · exact answer_rtsp_effect _
  · exact start_request_effect _ _ _
  · exact start_request_effect _ _ _
  · exact .quiet (.refl server)

/-- What is received completes a request for a file that is handed to a streamer. -/
def ServesFile (server : Connections) : ConnectionEvent → Prop
  | .received cli cmd _ =>
      server.controls cli = true ∧ (server.slots cli).connType = .http ∧ cmd = [] ∧
        ∃ request, (server.slots cli).state = some request ∧ server.StreamsFile request
  | _ => False

theorem handle_http_effect
    (other : ¬((server.slots cli).connType = .http ∧ arg = [] ∧
      ∃ request, (server.slots cli).state = some request ∧ server.StreamsFile request)) :
    Effect server (server.handleControlHttp cli arg) := by
  unfold handleControlHttp
  split
  · rename_i request type held
    split
    · exact .quiet (.refl server)
    · rename_i complete
      apply answer_http_effect
      intro streams
      exact other ⟨type, not_not.mp complete, request, held, streams⟩
  · exact (modify_quiet _ rfl).effect (start_request_effect _ _ _)
  · exact (modify_quiet _ rfl).effect (start_request_effect _ _ _)
  · exact .quiet (.refl server)

theorem effect_ite {condition : Prop} [Decidable condition] (yes : Effect server middle)
    (no : Effect server next) : Effect server (if condition then middle else next) := by
  split
  · exact yes
  · exact no

theorem handle_control_effect (opened : server.controls cli = true)
    (other : ¬server.ServesFile (.received cli arg outcome)) :
    Effect server (server.handleControl cli outcome arg) := by
  have nothing : Effect server server := .quiet (.refl server)
  unfold handleControl
  apply effect_ite (handle_rtsp_effect arg)
  apply effect_ite (handle_http_effect arg fun served => other ⟨opened, served⟩)
  apply effect_ite nothing
  apply effect_ite (handle_pipe_effect outcome)
  apply effect_ite handle_rtp_effect
  apply effect_ite nothing
  apply effect_ite nothing
  apply effect_ite (handle_udp_effect outcome)
  apply effect_ite (handle_data_effect _ opened)
  apply effect_ite (handle_osd_effect _ opened)
  apply effect_ite (.quiet (modify_quiet _ rfl))
  apply effect_ite (.quiet (modify_quiet _ rfl))
  apply effect_ite (handle_grab_effect _ outcome)
  apply effect_ite close_connection_effect
  exact effect_ite (.quiet (modify_quiet _ rfl)) nothing

theorem handle_control_detached (served : server.ServesFile (.received cli arg outcome)) :
    Detached server (server.handleControl cli outcome arg) := by
  obtain ⟨opened, type, rfl, request, held, streams⟩ := served
  have words : ¬(startsWith [] (ascii "OPTIONS ".toList) = true ∨
      startsWith [] (ascii "SETUP ".toList) = true ∨
      startsWith [] (ascii "DESCRIBE ".toList) = true ∨ (server.slots cli).connType = .rtsp) := by
    rw [type]
    decide
  unfold handleControl
  rw [if_neg words, if_pos (Or.inr type)]
  unfold handleControlHttp
  rw [type, held]
  exact answer_http_detached opened request streams

theorem connected_effect (peerKnown acceptable nonBlocking : Bool) :
    Effect server (server.handleClientConnected peerKnown acceptable nonBlocking) := by
  unfold handleClientConnected
  split
  · exact .quiet (.refl server)
  · rename_i cli found
    have free := List.find?_some found
    have was : server.controls cli = false := Bool.not_eq_true' _ ▸ free
    split
    · exact .quiet (.refl server)
    · apply Effect.opened cli was
      · rw [force_controls, modify_controls _ true rfl, close_data_quiet.controls]
      · rfl

/-! ## The invariant -/

def openCount (server : Connections) : Nat :=
  (Finset.univ.filter fun cli => server.controls cli = true).card

theorem open_count_quiet (same : next.controls = server.controls) :
    next.openCount = server.openCount := by
  unfold openCount
  rw [same]

theorem open_count_opened (was : server.controls cli = false)
    (controls : next.controls = Function.update server.controls cli true) :
    next.openCount = server.openCount + 1 := by
  have inserted : (Finset.univ.filter fun other => next.controls other = true) =
      insert cli (Finset.univ.filter fun other => server.controls other = true) := by
    ext other
    rw [controls]
    by_cases same : other = cli
    · simp [same]
    · simp [same]
  rw [openCount, inserted, Finset.card_insert_of_notMem (by simp [was]), openCount]

theorem open_count_closed (was : server.controls cli = true)
    (controls : next.controls = Function.update server.controls cli false) :
    next.openCount + 1 = server.openCount := by
  apply Eq.symm
  apply @open_count_opened next server cli
  · rw [controls, Function.update_self]
  · rw [controls, Function.update_idem, ← was, Function.update_eq_self]

/-- What the count will be when the queue is empty, less the open sockets. -/
def surplus (server : Connections) : Int := server.device.total - server.openCount

theorem effect_surplus (effect : Effect server next) : next.surplus = server.surplus := by
  unfold surplus
  cases effect with
  | quiet same => rw [same.device, open_count_quiet same.controls]
  | opened cli was controls device =>
      rw [device, ForcedDevice.forced_total, open_count_opened was controls, ForcedDevice.change,
        if_pos rfl]
      omega
  | closed cli was controls device =>
      have fewer := open_count_closed was controls
      rw [device, ForcedDevice.forced_total, ForcedDevice.change, if_neg Bool.false_ne_true]
      omega

theorem detached_surplus (detached : Detached server next) :
    next.surplus = server.surplus + 1 := by
  obtain ⟨cli, was, controls, device⟩ := detached
  have fewer := open_count_closed was controls
  unfold surplus
  rw [device]
  omega

/-- The queue never takes away more than the open sockets have added. -/
structure Kept (base : ForcedDevice) (server : Connections) : Prop where
  follows : base.Follows server.device
  enough : base.count ≤ server.surplus

def Balanced (base : ForcedDevice) (server : Connections) : Prop := server.surplus = base.count

variable {base : ForcedDevice}

theorem effect_kept (kept : server.Kept base) (effect : Effect server next) :
    next.Kept base := by
  have same := effect_surplus effect
  constructor
  · cases effect with
    | quiet quiet =>
        rw [quiet.device]
        exact kept.follows
    | opened cli was controls device =>
        have enough := kept.enough
        rw [device]
        apply ForcedDevice.follows_forced kept.follows
        rw [ForcedDevice.change, if_pos rfl]
        unfold surplus at enough
        omega
    | closed cli was controls device =>
        have enough := kept.enough
        have fewer := open_count_closed was controls
        rw [device]
        apply ForcedDevice.follows_forced kept.follows
        rw [ForcedDevice.change, if_neg Bool.false_ne_true]
        unfold surplus at enough
        omega
  · rw [same]
    exact kept.enough

theorem detached_kept (kept : server.Kept base) (detached : Detached server next) :
    next.Kept base := by
  have more := detached_surplus detached
  have enough := kept.enough
  obtain ⟨_, _, _, device⟩ := detached
  constructor
  · rw [device]
    exact kept.follows
  · omega

/-! ## Runs -/

variable {setPrimaryDevice : Nat → Nat → Nat}

theorem perform_effect (event : ConnectionEvent) (other : ¬server.ServesFile event)
    (client : event ≠ .mainThread) : Effect server (server.perform setPrimaryDevice event) := by
  cases event with
  | connected peerKnown acceptable nonBlocking => exact connected_effect _ _ _
  | received cli cmd outcome =>
      change Effect server (if server.controls cli then _ else server)
      by_cases opened : server.controls cli = true
      · rw [if_pos opened]
        exact handle_control_effect cmd outcome opened other
      · rw [if_neg opened]
        exact .quiet (.refl server)
  | dropped cli => exact close_connection_effect
  | osdDropped cli => exact .quiet close_osd_quiet
  | mainThread => exact absurd rfl client
  | configured config => exact .quiet ⟨rfl, rfl⟩

theorem perform_detached (event : ConnectionEvent) (served : server.ServesFile event) :
    Detached server (server.perform setPrimaryDevice event) := by
  cases event with
  | received cli cmd outcome =>
      have opened : (server.slots cli).controlOpen = true := served.1
      rw [perform, if_pos opened]
      exact handle_control_detached cmd outcome served
  | connected | dropped | osdDropped | mainThread | configured => exact served.elim

theorem main_thread_surplus :
    (server.perform setPrimaryDevice .mainThread).surplus = server.surplus := by
  rw [perform, surplus, ForcedDevice.round_total]
  rfl

theorem perform_surplus (event : ConnectionEvent) (other : ¬server.ServesFile event) :
    (server.perform setPrimaryDevice event).surplus = server.surplus := by
  by_cases client : event = .mainThread
  · rw [client]
    exact main_thread_surplus
  · exact effect_surplus (perform_effect event other client)

variable (started : base.WellStarted)
  (selects : ∀ present number, 0 < number → setPrimaryDevice present number = number)

include started selects

theorem perform_kept (event : ConnectionEvent) (kept : server.Kept base) :
    (server.perform setPrimaryDevice event).Kept base := by
  by_cases served : server.ServesFile event
  · exact detached_kept kept (perform_detached event served)
  · by_cases client : event = .mainThread
    · rw [client]
      constructor
      · exact ForcedDevice.follows_round started selects kept.follows
      · rw [main_thread_surplus]
        exact kept.enough
    · exact effect_kept kept (perform_effect event served client)

omit started selects

/-- The count is never negative; once the queue has run it is the one at the start and one
more for each open socket, and without an open socket all is as at the start. -/
structure CountRight (setPrimaryDevice : Nat → Nat → Nat) (base : ForcedDevice)
    (server : Connections) : Prop where
  nonnegative : 0 ≤ server.device.count
  counted : (server.device.settled setPrimaryDevice).count = base.count + server.openCount
  returned : server.openCount = 0 →
    (server.device.settled setPrimaryDevice).count = base.count ∧
      (server.device.settled setPrimaryDevice).primary = base.primary

theorem counted_surplus (right : server.CountRight setPrimaryDevice base) :
    server.Balanced base := by
  have counted := right.counted
  rw [ForcedDevice.settled_count] at counted
  unfold Balanced surplus
  omega

include started selects

theorem kept_count_right (kept : server.Kept base) (balanced : server.Balanced base) :
    server.CountRight setPrimaryDevice base := by
  have counted : (server.device.settled setPrimaryDevice).count = base.count + server.openCount := by
    rw [ForcedDevice.settled_count]
    unfold Balanced surplus at balanced
    omega
  constructor
  · have above := kept.follows.above 0
    rw [ForcedDevice.count_after_zero] at above
    cases started.start with
    | inl zero => omega
    | inr one => omega
  · exact counted
  · intro none
    have same : (server.device.settled setPrimaryDevice).count = base.count := by
      rw [counted, none]
      exact Int.add_zero _
    have settled : base.Follows (server.device.settled setPrimaryDevice) :=
      ForcedDevice.follows_rounds started selects _ kept.follows
    have devices := settled.devices
    rw [same, ForcedDevice.devices_left fun less => absurd less (Int.lt_irrefl _)] at devices
    exact ⟨same, congrArg Prod.fst devices⟩

omit selects in
theorem start_balanced (config : ServerConfig) : (start base config).Balanced base := by
  have empty : (start base config).openCount = 0 := by
    simp [openCount, controls, start]
  rw [Balanced, surplus, empty, start, ForcedDevice.total, ForcedDevice.countAfter, started.idle]
  simp

omit selects in
theorem start_kept (config : ServerConfig) : (start base config).Kept base :=
  ⟨ForcedDevice.follows_start started, Int.le_of_eq (start_balanced started config).symm⟩

theorem events_kept (events : List ConnectionEvent) (kept : server.Kept base) :
    (events.foldl (perform setPrimaryDevice) server).Kept base := by
  induction events generalizing server with
  | nil => exact kept
  | cons event events induction => exact induction (perform_kept started selects event kept)

/-- After any number of connections, messages and disconnections the count is right, exactly
if no file has been handed to a streamer. -/
theorem count_right_throughout_iff (config : ServerConfig) (events : List ConnectionEvent) :
    (∀ count ≤ events.length,
        CountRight setPrimaryDevice base
          ((events.take count).foldl (perform setPrimaryDevice) (start base config))) ↔
      ∀ (count : Nat) (within : count < events.length),
        ¬ServesFile ((events.take count).foldl (perform setPrimaryDevice) (start base config))
          events[count] := by
  have step : ∀ (server : Connections) (event : ConnectionEvent), server.Balanced base →
      ((server.perform setPrimaryDevice event).Balanced base ↔ ¬server.ServesFile event) := by
    intro server event balanced
    constructor
    · intro still served
      have gone : Detached server (server.perform setPrimaryDevice event) :=
        perform_detached event served
      have more := detached_surplus gone
      rw [Balanced] at balanced still
      omega
    · intro other
      rw [Balanced, perform_surplus event other]
      exact balanced
  rw [← Machine.foldl_invariant_iff (start_balanced started config) step events]
  apply forall₂_congr
  intro count within
  exact ⟨counted_surplus, kept_count_right started selects
    (events_kept started selects _ (start_kept started config))⟩

omit started selects

/-- A device that is not the primary one, and is made so for each client. -/
def secondDevice : ForcedDevice where
  force := true
  number := 2
  primary := 1
  count := 0
  original := 0
  functors := []

def mediaConfig : ServerConfig where
  remoteUsePipe := true
  remoteUseTcp := true
  remoteUseUdp := true
  remoteUseRtp := true
  remoteUseHttp := true
  remoteUseRtsp := true
  remoteMaxClients := 10
  play := ⟨true, ascii "/m/a.ts".toList, true, []⟩

theorem second_device_started : secondDevice.WellStarted :=
  ⟨rfl, by decide, by decide, .inl ⟨rfl, rfl⟩⟩

def closedConnection : List ConnectionEvent :=
  [.connected true true true, .mainThread, .received 0 (ascii "CLOSE".toList) {}, .mainThread]

theorem count_right_throughout_close :
    (closedConnection.foldl (perform fun _ number => number) (start secondDevice mediaConfig)).CountRight
      (fun _ number => number) secondDevice := by
  refine (count_right_throughout_iff second_device_started (fun _ _ _ => rfl) mediaConfig
    closedConnection).mpr ?_ 4 (Nat.le_refl 4)
  intro count within served
  match count with
  | 0 | 1 | 3 => exact served
  | 2 =>
      have type := served.2.1
      revert type
      decide +kernel

/-- A client asks for the file that is being played and its socket goes to the streamer. -/
def servedFile : Connections :=
  [.connected true true true, .received 0 (ascii "GET /PLAYFILE/m/a.ts HTTP/1.1".toList) {},
    .received 0 [] {}, .mainThread].foldl (perform fun _ number => number)
    (start secondDevice mediaConfig)

/-- No client is left, and the device stays the primary one for ever. -/
theorem served_file_keeps_device :
    servedFile.openCount = 0 ∧ servedFile.device.functors = [] ∧ servedFile.device.count = 1 ∧
      servedFile.device.primary = 2 ∧
      ¬servedFile.CountRight (fun _ number => number) secondDevice := by
  refine ⟨by decide +kernel, by decide +kernel, by decide +kernel, by decide +kernel, ?_⟩
  intro right
  have counted := right.counted
  revert counted
  decide +kernel

end Connections
end Xineliboutput.Server
