import Mathlib
import Xineliboutput.Foundation.ObjectHomes
import Xineliboutput.Server.Connections
import Xineliboutput.Udp.HandleTable

/-!
# The sockets of the client slots

The slots of `Connections` together with what stands behind them: the numbers of the
descriptors, the table of the UDP scheduler and its multicast socket, `m_iMulticastMask` and
the control messages as they are read byte by byte. `Listen` has run once, and the settings
stay as they are; only what is being played changes. A socket that goes to a streamer leaves
the server, and so do the RTCP and SAP sockets, which are in no table.
-/

namespace Xineliboutput.Server

open Xineliboutput.Foundation
open Xineliboutput.Device
open Xineliboutput.Client (startsWith)
open Xineliboutput.Udp.Scheduler (handlesWith handlesWithout)

set_option autoImplicit false

/-- `fd_control[cli]`, `fd_osd[cli]`, `fd_data[cli]` and `m_fd_rtp`. -/
inductive Place where
  | control (cli : Fin maxClients)
  | osd (cli : Fin maxClients)
  | data (cli : Fin maxClients)
  | rtp
  deriving DecidableEq

/-- `number` is what an open place holds, `opened` the descriptors of the server that are
open, and `alwaysOn` is `xc.remote_rtp_always_on`. -/
structure SlotSockets extends Connections where
  number : Place → Nat
  rtpOpen : Bool
  opened : List Nat
  handles : List Int
  multicastMask : BitVec 32
  alwaysOn : Bool
  ctrlBuf : Fin maxClients → List UInt8

/-- `kernel` numbers the descriptor that a message opens; `rtpCreated` says that the multicast
socket could be created and connected. -/
structure SystemAnswer extends Outcome where
  kernel : Kernel
  rtpCreated : Bool

namespace SlotSockets

def isOpen (server : SlotSockets) : Place → Bool
  | .control cli => (server.slots cli).controlOpen
  | .osd cli => (server.slots cli).osdOpen
  | .data cli => (server.slots cli).dataOpen
  | .rtp => server.rtpOpen

def held (server : SlotSockets) (place : Place) : Option Nat :=
  bif server.isOpen place then some (server.number place) else none

def clientBit (cli : Fin maxClients) : BitVec 32 := 1#32 <<< cli.val

/-! ## Sockets -/

def modify (server : SlotSockets) (cli : Fin maxClients) (change : Slot → Slot) : SlotSockets :=
  { server with toConnections := server.toConnections.modify cli change }

def forcePrimaryDevice (server : SlotSockets) (on : Bool) : SlotSockets :=
  { server with toConnections := server.toConnections.forcePrimaryDevice on }

/-- `close`. The caller resets the place. -/
def closeSocket (server : SlotSockets) (place : Place) : SlotSockets :=
  { server with opened := closed server.opened (server.held place) }

/-- A new descriptor. The caller marks the place as open. -/
def openSocket (server : SlotSockets) (kernel : Kernel) (place : Place) : SlotSockets :=
  { server with
    number := Function.update server.number place (kernel.next server.opened)
    opened := kernel.next server.opened :: server.opened }

def moveNumber (server : SlotSockets) (source target : Place) : SlotSockets :=
  { server with number := Function.update server.number target (server.number source) }

/-- `cUdpScheduler::RemoveRtp` -/
def removeRtp (server : SlotSockets) : SlotSockets :=
  if server.rtpOpen then
    { server.closeSocket .rtp with
      handles := handlesWithout server.handles (server.number .rtp)
      rtpOpen := false }
  else server

/-- `cUdpScheduler::AddRtp`. An old socket is closed first. -/
def addRtp (server : SlotSockets) (answer : SystemAnswer) : SlotSockets :=
  let server := { server.closeSocket .rtp with rtpOpen := false }
  if answer.rtpCreated then
    let server := { server.openSocket answer.kernel .rtp with rtpOpen := true }
    { server with handles := handlesWith server.handles (server.number .rtp) }
  else server

def removeUnusedRtp (server : SlotSockets) : SlotSockets :=
  if server.multicastMask = 0 ∧ server.alwaysOn = false then server.removeRtp else server

/-- What `CloseDataConnection` does before it looks at the multicast socket. -/
def leaveData (server : SlotSockets) (cli : Fin maxClients) : SlotSockets :=
  let handles :=
    if (server.slots cli).udp ∧ (server.slots cli).dataOpen then
      handlesWithout server.handles (server.number (.data cli))
    else server.handles
  { server.closeSocket (.data cli) with
    toConnections := server.toConnections.closeDataConnection cli
    handles := handles
    multicastMask := server.multicastMask &&& ~~~clientBit cli }

def closeDataConnection (server : SlotSockets) (cli : Fin maxClients) : SlotSockets :=
  (server.leaveData cli).removeUnusedRtp

def closeOsdConnection (server : SlotSockets) (cli : Fin maxClients) : SlotSockets :=
  { server.closeSocket (.osd cli) with toConnections := server.toConnections.closeOsdConnection cli }

def closeConnection (server : SlotSockets) (cli : Fin maxClients) : SlotSockets :=
  let server := (server.closeDataConnection cli).closeOsdConnection cli
  let server := server.modify cli fun slot => { slot with osdConn := false }
  if (server.slots cli).controlOpen then
    ((server.closeSocket (.control cli)).modify cli fun slot =>
      { slot with controlOpen := false, state := none }).forcePrimaryDevice false
  else server

/-! ## Handlers -/

variable (server : SlotSockets) (cli : Fin maxClients) (arg : List UInt8) (answer : SystemAnswer)

def parseClientId : SlotSockets × Option (Fin maxClients) :=
  match (server.toConnections.parseClientId cli arg).2 with
  | none => (server.closeConnection cli, none)
  | some clientId => (server, some clientId)

def handleControlPipe : SlotSockets :=
  let server := (server.closeDataConnection cli).closeOsdConnection cli
  if server.config.remoteUsePipe = false then server
  else if answer.pipeOpened then
    (server.openSocket answer.kernel (.data cli)).modify cli fun slot =>
      { slot with writer := true, dataOpen := true }
  else server

def handleControlOsd : SlotSockets :=
  let server := (server.closeOsdConnection cli).closeDataConnection cli
  match server.parseClientId cli arg with
  | (server, none) => server
  | (server, some clientId) =>
      let server := server.closeOsdConnection clientId
      let server := server.moveNumber (.control cli) (.osd clientId)
      let server := server.modify cli fun slot => { slot with controlOpen := false }
      let server := server.modify clientId fun slot => { slot with osdOpen := true, osdConn := true }
      server.forcePrimaryDevice false

def handleControlData : SlotSockets :=
  let server := (server.closeOsdConnection cli).closeDataConnection cli
  if server.config.remoteUseTcp = false then server.closeConnection cli
  else
    match server.parseClientId cli arg with
    | (server, none) => server
    | (server, some clientId) =>
        let server := server.closeDataConnection clientId
        let server := server.moveNumber (.control cli) (.data clientId)
        let server := server.modify cli fun slot => { slot with controlOpen := false }
        let server := server.modify clientId fun slot => { slot with dataOpen := true, writer := true }
        server.forcePrimaryDevice false

def needsRtp : Prop := server.multicastMask = 0 ∧ server.alwaysOn = false

instance : Decidable server.needsRtp := inferInstanceAs (Decidable (_ ∧ _))

def joinMulticast : SlotSockets :=
  let server := if server.needsRtp then server.addRtp answer else server
  { server.modify cli fun slot => { slot with multicast := true } with
    multicastMask := server.multicastMask ||| clientBit cli }

def handleControlRtp : SlotSockets :=
  let server := server.closeDataConnection cli
  if server.config.remoteUseRtp = false then server else server.joinMulticast cli answer

def handleControlUdp : SlotSockets :=
  let server := server.closeDataConnection cli
  if server.config.remoteUseUdp = false then server
  else if answer.socketConnected then
    let server := (server.openSocket answer.kernel (.data cli)).modify cli fun slot =>
      { slot with udp := true, dataOpen := true }
    { server with handles := handlesWith server.handles (server.number (.data cli)) }
  else server

def handleControlGrab : SlotSockets :=
  match scanInteger arg with
  | none => server
  | some (_, rest) =>
      match scanInteger rest with
      | none => server
      | some (size, _) =>
          if 0 < storeInt size ∧ storeInt size < 20480000 ∧ answer.imageRead = false then
            server.closeConnection cli
          else server

def startRequest (type : ConnType) (proper : ConnState → Bool) : SlotSockets :=
  match setCommand arg with
  | none => server.closeConnection cli
  | some request =>
      if proper request then
        server.modify cli fun slot => { slot with state := some request, connType := type }
      else server.closeConnection cli

def answerHttp (request : ConnState) : SlotSockets :=
  if request.uri = ascii "/".toList then
    if server.config.remoteUseHttp = false then server.closeConnection cli
    else server.modify cli fun slot => { slot with writer := true, state := none }
  else if (ascii "/PLAYFILE".toList).isPrefixOf request.uri ∧
      server.config.play.handleControlHttp (request.uri.drop 9) ≠ .notFound then
    -- the streamer takes the socket along
    let server := { server with opened := closed server.opened (server.held (.control cli)) }
    (server.modify cli fun slot => { slot with controlOpen := false, state := none }).closeConnection
      cli
  else server.closeConnection cli

def handleControlHttp : SlotSockets :=
  match (server.slots cli).connType, (server.slots cli).state with
  | .http, some request => if arg ≠ [] then server else server.answerHttp cli request
  | .detecting, _ | _, none =>
      (server.modify cli fun slot => { slot with writer := false }).startRequest cli arg .http
        Connections.properHttp
  | _, some _ => server

def answerRtsp (request : ConnState) : SlotSockets :=
  if server.config.remoteUseRtsp = false then server.closeConnection cli
  else
    let server :=
      if request.name = ascii "PLAY".toList then server.joinMulticast cli answer
      else if request.name = ascii "TEARDOWN".toList then server.closeConnection cli
      else server
    server.modify cli fun slot => { slot with state := none }

def handleControlRtsp : SlotSockets :=
  match (server.slots cli).connType, (server.slots cli).state with
  | .rtsp, some request => if arg ≠ [] then server else server.answerRtsp cli answer request
  | .detecting, _ | _, none => server.startRequest cli arg .rtsp Connections.properRtsp
  | _, some _ => server

end SlotSockets

/-! ## Messages -/

inductive Message where
  | rtsp
  | http
  | pipe
  | rtp
  | udp
  | data
  | osd
  | config
  | info
  | grab
  | close
  | control
  | other
  deriving DecidableEq

/-- The tests of `Handle_Control`, in their order. -/
def messageOf (connType : ConnType) (cmd : List UInt8) : Message :=
  if startsWith cmd (ascii "OPTIONS ".toList) ∨ startsWith cmd (ascii "SETUP ".toList) ∨
      startsWith cmd (ascii "DESCRIBE ".toList) ∨ connType = .rtsp then .rtsp
  else if startsWith cmd (ascii "GET ".toList) ∨ connType = .http then .http
  else if startsWith cmd (ascii "PIPE OPEN".toList) then .other
  else if startsWith cmd (ascii "PIPE".toList) then .pipe
  else if startsWith cmd (ascii "RTP".toList) then .rtp
  else if startsWith cmd (ascii "UDP FULL".toList) then .other
  else if startsWith cmd (ascii "UDP RESEND ".toList) then .other
  else if startsWith cmd (ascii "UDP ".toList) then .udp
  else if startsWith cmd (ascii "DATA ".toList) then .data
  else if startsWith cmd (ascii "OSD ".toList) then .osd
  else if startsWith cmd (ascii "CONFIG".toList) then .config
  else if (ascii "INFO ".toList).isPrefixOf cmd then .info
  else if startsWith cmd (ascii "GRAB ".toList) then .grab
  else if startsWith cmd (ascii "CLOSE".toList) then .close
  else if startsWith cmd (ascii "CONTROL".toList) then .control
  else .other

namespace SlotSockets

def handleControl (server : SlotSockets) (cli : Fin maxClients) (answer : SystemAnswer)
    (cmd : List UInt8) : SlotSockets :=
  match messageOf (server.slots cli).connType cmd with
  | .rtsp => server.handleControlRtsp cli cmd answer
  | .http => server.handleControlHttp cli cmd
  | .pipe => server.handleControlPipe cli answer
  | .rtp => server.handleControlRtp cli answer
  | .udp => server.handleControlUdp cli answer
  | .data => server.handleControlData cli (cmd.drop 5)
  | .osd => server.handleControlOsd cli (cmd.drop 4)
  | .config => server.modify cli fun slot => { slot with configOk := true }
  | .info =>
      server.modify cli fun slot =>
        { slot with
          argbOsd := slot.argbOsd || (ascii "INFO ARGBOSD".toList).isPrefixOf cmd
          rleArgbOsd := slot.rleArgbOsd || (ascii "INFO ARGBOSD RLE".toList).isPrefixOf cmd }
  | .grab => server.handleControlGrab cli (cmd.drop 5) answer
  | .close => server.closeConnection cli
  | .control => server.modify cli fun slot => { slot with connType := .control }
  | .other => server

def ctrlBufSize : Nat := 1024

def setCtrlBuf (server : SlotSockets) (cli : Fin maxClients) (bytes : List UInt8) : SlotSockets :=
  { server with ctrlBuf := Function.update server.ctrlBuf cli bytes }

def completeMessage (buf : List UInt8) : Option (List UInt8) :=
  if [13, 10].isSuffixOf buf then some ((buf.take (buf.length - 2)).takeWhile (notByte 0)) else none

/-- One round of the loop of `Read_Control`. -/
def readControl (server : SlotSockets) (cli : Fin maxClients) (byte : UInt8)
    (answer : SystemAnswer) : SlotSockets :=
  let buf := server.ctrlBuf cli ++ [byte]
  let server := server.setCtrlBuf cli buf
  if ctrlBufSize - 2 < buf.length then server.closeConnection cli
  else
    match completeMessage buf with
    | some cmd => (server.handleControl cli answer cmd).setCtrlBuf cli []
    | none => server

def acceptedIn (server : Connections) (peerKnown acceptable nonBlocking : Bool) :
    Option (Fin maxClients) :=
  ((List.finRange maxClients).find? fun cli => !(server.slots cli).controlOpen).filter fun cli =>
    peerKnown && acceptable && decide (cli.val < server.config.remoteMaxClients) && nonBlocking

/-- `primary` is what `ForcePrimaryDevice` returns. Without it the new descriptor is closed,
but it stays in `fd_control`. -/
def handleClientConnected (server : SlotSockets) (peerKnown acceptable nonBlocking primary : Bool)
    (kernel : Kernel) : SlotSockets :=
  let fd := kernel.next server.opened
  let server := { server with opened := fd :: server.opened }
  match acceptedIn server.toConnections peerKnown acceptable nonBlocking with
  | none => { server with opened := server.opened.erase fd }
  | some cli =>
      let server := (server.closeDataConnection cli).setCtrlBuf cli []
      let server := { server with number := Function.update server.number (.control cli) fd }
      let server := server.modify cli fun slot =>
        { slot with connType := .detecting, controlOpen := true }
      let server := server.forcePrimaryDevice true
      if primary then server else { server with opened := server.opened.erase fd }

def osdSocket (server : SlotSockets) (cli : Fin maxClients) : Place :=
  if (server.slots cli).osdConn then .osd cli else .control cli

def osdCmdFailed (server : SlotSockets) (cli : Fin maxClients) : SlotSockets :=
  if (server.slots cli).controlOpen ∧ (server.slots cli).configOk ∧
      server.isOpen (server.osdSocket cli) then
    if (server.slots cli).osdConn then server.closeOsdConnection cli else server.closeConnection cli
  else server

/-- `Listen`, as far as the multicast socket goes. -/
def listen (server : SlotSockets) (answer : SystemAnswer) : SlotSockets :=
  let server := server.removeRtp
  if server.config.remoteUseRtp ∧ (server.alwaysOn ∨ server.multicastMask ≠ 0) then
    server.addRtp answer
  else server

def new (device : ForcedDevice) (config : ServerConfig) (alwaysOn : Bool) : SlotSockets where
  toConnections := .start device config
  number := fun _ => 0
  rtpOpen := false
  opened := []
  handles := List.replicate Udp.maxUdpHandles (-1)
  multicastMask := 0
  alwaysOn := alwaysOn
  ctrlBuf := fun _ => []

end SlotSockets

/-! ## Events -/

inductive SocketEvent where
  | connected (peerKnown acceptable nonBlocking primary : Bool) (kernel : Kernel)
  | received (cli : Fin maxClients) (byte : UInt8) (answer : SystemAnswer)
  /-- The end of the stream, an error of `poll` or a write that failed. -/
  | dropped (cli : Fin maxClients)
  | osdFailed (cli : Fin maxClients)
  | playing (play : PlayState)

namespace SlotSockets

def perform (server : SlotSockets) : SocketEvent → SlotSockets
  | .connected peerKnown acceptable nonBlocking primary kernel =>
      server.handleClientConnected peerKnown acceptable nonBlocking primary kernel
  | .received cli byte answer =>
      if (server.slots cli).controlOpen then server.readControl cli byte answer else server
  | .dropped cli => server.closeConnection cli
  | .osdFailed cli => server.osdCmdFailed cli
  | .playing play => { server with config := { server.config with play := play } }

end SlotSockets
end Xineliboutput.Server
