import Mathlib.Logic.Function.Basic
import Xineliboutput.Client.DataControl
import Xineliboutput.Device.PrimaryDevice
import Xineliboutput.Server.PlayfileRequest

/-!
# Client connections

The slots of `cXinelibServer` and what the messages of a client do to them: the handlers of
`frontend_svr.c` and the request line of `tools/http.c`. Queued data, replies and the UDP
scheduler are left out. What the handlers learn from outside, whether a pipe or socket could
be opened and whether an image arrived, comes with the message.
-/

namespace Xineliboutput.Server

open Xineliboutput.Foundation
open Xineliboutput.Device
open Xineliboutput.Client (lowerCase startsWith)

set_option autoImplicit false

abbrev maxClients : Nat := 10

/-! ## Slots -/

inductive ConnType where
  | detecting
  | control
  | http
  | rtsp
  deriving DecidableEq

/-- `cConnState`: the words of a request line. -/
structure ConnState where
  name : List UInt8
  uri : List UInt8
  version : List UInt8
  deriving DecidableEq

/-- `controlOpen` is `fd_control[cli].open()`, and so are the others. -/
structure Slot where
  controlOpen : Bool := false
  osdOpen : Bool := false
  dataOpen : Bool := false
  writer : Bool := false
  udp : Bool := false
  multicast : Bool := false
  configOk : Bool := false
  argbOsd : Bool := false
  rleArgbOsd : Bool := false
  osdConn : Bool := false
  connType : ConnType := .detecting
  state : Option ConnState := none
  deriving DecidableEq

/-- The settings in `xc` that the handlers look at, and what is being played. -/
structure ServerConfig where
  remoteUsePipe : Bool
  remoteUseTcp : Bool
  remoteUseUdp : Bool
  remoteUseRtp : Bool
  remoteUseHttp : Bool
  remoteUseRtsp : Bool
  remoteMaxClients : Nat
  play : PlayState
  deriving DecidableEq

structure Connections where
  slots : Fin maxClients → Slot
  config : ServerConfig
  device : ForcedDevice

namespace Connections

def modify (server : Connections) (cli : Fin maxClients) (change : Slot → Slot) : Connections :=
  { server with slots := Function.update server.slots cli (change (server.slots cli)) }

theorem modify_slot {server : Connections} {cli : Fin maxClients} (change : Slot → Slot)
    (other : Fin maxClients) :
    (server.modify cli change).slots other =
      if other = cli then change (server.slots cli) else server.slots other :=
  Function.update_apply server.slots cli _ other

def closeDataConnection (server : Connections) (cli : Fin maxClients) : Connections :=
  server.modify cli fun slot =>
    { slot with
      dataOpen := false
      writer := false
      udp := false
      multicast := false
      configOk := false
      argbOsd := false
      rleArgbOsd := false }

def closeOsdConnection (server : Connections) (cli : Fin maxClients) : Connections :=
  server.modify cli fun slot => { slot with osdOpen := false }

def forcePrimaryDevice (server : Connections) (on : Bool) : Connections :=
  { server with device := server.device.forcePrimaryDevice on }

def closeConnection (server : Connections) (cli : Fin maxClients) : Connections :=
  let server := (server.closeDataConnection cli).closeOsdConnection cli
  let server := server.modify cli fun slot => { slot with osdConn := false }
  if (server.slots cli).controlOpen then
    (server.modify cli fun slot =>
      { slot with controlOpen := false, state := none }).forcePrimaryDevice false
  else server

end Connections

/-! ## Words of a message -/

/-- `cHttpReq::SetCommand` -/
def setCommand (command : List UInt8) : Option ConnState :=
  if 32 ∉ command then none
  else
    let rest := skipBlanks (command.dropWhile (notByte 32))
    if 32 ∉ rest then none
    else
      some
        { name := command.takeWhile (notByte 32)
          uri := (skipBlanks (rest.reverse.dropWhile (notByte 32))).reverse
          version := (rest.reverse.takeWhile (notByte 32)).reverse }

/-- One `%x` conversion: what stands behind the number. -/
def scanHexNumber (text : List UInt8) : Option (List UInt8) :=
  let unsigned := fun (text : List UInt8) =>
    let digits := if text.head? = some 48 ∧ (text.drop 1).head?.map lowerCase = some 120 then
      text.drop 2 else text
    if (digits.head?.bind hexValue).isSome then
      some (digits.dropWhile fun byte => (hexValue byte).isSome)
    else none
  match text.dropWhile isSpace with
  | [] => none
  | byte :: rest => if byte = 45 ∨ byte = 43 then unsigned rest else unsigned (byte :: rest)

/-- `sscanf(arg, "%d 0x%x:%d", …)` with three conversions: the number of the client. -/
def scanClientId (arg : List UInt8) : Option Int :=
  match scanInteger arg with
  | none => none
  | some (clientId, rest) =>
      (scanLiterals (ascii "0x".toList) (rest.dropWhile isSpace)).bind scanHexNumber
        |>.bind (scanLiteral 58) |>.bind scanInteger |>.map fun _ => storeInt clientId

/-! ## Handlers -/

/-- What a handler is told by the system: whether the client has opened the pipe, whether
the socket is connected, and whether all of an image was read. -/
structure Outcome where
  pipeOpened : Bool := false
  socketConnected : Bool := false
  imageRead : Bool := false
  deriving DecidableEq

namespace Connections

variable (server : Connections) (cli : Fin maxClients) (arg : List UInt8) (outcome : Outcome)

/-- The client that a new connection belongs to. A wrong number closes the connection. -/
def parseClientId : Connections × Option (Fin maxClients) :=
  match scanClientId arg with
  | none => (server.closeConnection cli, none)
  | some id =>
      if valid : 0 ≤ id ∧ id < maxClients then
        let clientId : Fin maxClients := ⟨id.toNat, by omega⟩
        if (server.slots clientId).controlOpen then (server, some clientId)
        else (server.closeConnection cli, none)
      else (server.closeConnection cli, none)

def handleControlPipe : Connections :=
  let server := (server.closeDataConnection cli).closeOsdConnection cli
  if server.config.remoteUsePipe = false then server
  else if outcome.pipeOpened then
    server.modify cli fun slot => { slot with writer := true, dataOpen := true }
  else server

def handleControlOsd : Connections :=
  let server := (server.closeOsdConnection cli).closeDataConnection cli
  match server.parseClientId cli arg with
  | (server, none) => server
  | (server, some clientId) =>
      let server := server.closeOsdConnection clientId
      let server := server.modify cli fun slot => { slot with controlOpen := false }
      let server := server.modify clientId fun slot => { slot with osdOpen := true, osdConn := true }
      server.forcePrimaryDevice false

def handleControlData : Connections :=
  let server := (server.closeOsdConnection cli).closeDataConnection cli
  if server.config.remoteUseTcp = false then server.closeConnection cli
  else
    match server.parseClientId cli arg with
    | (server, none) => server
    | (server, some clientId) =>
        let server := server.closeDataConnection clientId
        let server := server.modify cli fun slot => { slot with controlOpen := false }
        let server := server.modify clientId fun slot => { slot with dataOpen := true, writer := true }
        server.forcePrimaryDevice false

def handleControlRtp : Connections :=
  let server := server.closeDataConnection cli
  if server.config.remoteUseRtp = false then server
  else server.modify cli fun slot => { slot with multicast := true }

def handleControlUdp : Connections :=
  let server := server.closeDataConnection cli
  if server.config.remoteUseUdp = false then server
  else if outcome.socketConnected then
    server.modify cli fun slot => { slot with udp := true, dataOpen := true }
  else server

def handleControlGrab : Connections :=
  match scanInteger arg with
  | none => server
  | some (_, rest) =>
      match scanInteger rest with
      | none => server
      | some (size, _) =>
          if 0 < storeInt size ∧ storeInt size < 20480000 ∧ outcome.imageRead = false then
            server.closeConnection cli
          else server

def startRequest (type : ConnType) (proper : ConnState → Bool) : Connections :=
  match setCommand arg with
  | none => server.closeConnection cli
  | some request =>
      if proper request then
        server.modify cli fun slot => { slot with state := some request, connType := type }
      else server.closeConnection cli

def properHttp (request : ConnState) : Bool :=
  (ascii "HTTP/1.".toList).isPrefixOf request.version && request.name == ascii "GET".toList

/-- The answer to a complete request. A media file takes the socket along. -/
def answerHttp (request : ConnState) : Connections :=
  if request.uri = ascii "/".toList then
    if server.config.remoteUseHttp = false then server.closeConnection cli
    else server.modify cli fun slot => { slot with writer := true, state := none }
  else if (ascii "/PLAYFILE".toList).isPrefixOf request.uri ∧
      server.config.play.handleControlHttp (request.uri.drop 9) ≠ .notFound then
    (server.modify cli fun slot => { slot with controlOpen := false, state := none }).closeConnection
      cli
  else server.closeConnection cli

def handleControlHttp : Connections :=
  match (server.slots cli).connType, (server.slots cli).state with
  | .http, some request => if arg ≠ [] then server else server.answerHttp cli request
  | .detecting, _ | _, none =>
      (server.modify cli fun slot => { slot with writer := false }).startRequest cli arg .http
        properHttp
  | _, some _ => server

def properRtsp (request : ConnState) : Bool := request.version == ascii "RTSP/1.0".toList

def answerRtsp (request : ConnState) : Connections :=
  if server.config.remoteUseRtsp = false then server.closeConnection cli
  else
    let server :=
      if request.name = ascii "PLAY".toList then
        server.modify cli fun slot => { slot with multicast := true }
      else if request.name = ascii "TEARDOWN".toList then server.closeConnection cli
      else server
    server.modify cli fun slot => { slot with state := none }

def handleControlRtsp : Connections :=
  match (server.slots cli).connType, (server.slots cli).state with
  | .rtsp, some request => if arg ≠ [] then server else server.answerRtsp cli request
  | .detecting, _ | _, none => server.startRequest cli arg .rtsp properRtsp
  | _, some _ => server

/-- The order of the tests is the one of the source. Messages that leave the slots as
they are have no case of their own at the end. -/
def handleControl (cmd : List UInt8) : Connections :=
  if startsWith cmd (ascii "OPTIONS ".toList) ∨ startsWith cmd (ascii "SETUP ".toList) ∨
      startsWith cmd (ascii "DESCRIBE ".toList) ∨ (server.slots cli).connType = .rtsp then
    server.handleControlRtsp cli cmd
  else if startsWith cmd (ascii "GET ".toList) ∨ (server.slots cli).connType = .http then
    server.handleControlHttp cli cmd
  else if startsWith cmd (ascii "PIPE OPEN".toList) then server
  else if startsWith cmd (ascii "PIPE".toList) then server.handleControlPipe cli outcome
  else if startsWith cmd (ascii "RTP".toList) then server.handleControlRtp cli
  else if startsWith cmd (ascii "UDP FULL".toList) then server
  else if startsWith cmd (ascii "UDP RESEND ".toList) then server
  else if startsWith cmd (ascii "UDP ".toList) then server.handleControlUdp cli outcome
  else if startsWith cmd (ascii "DATA ".toList) then server.handleControlData cli (cmd.drop 5)
  else if startsWith cmd (ascii "OSD ".toList) then server.handleControlOsd cli (cmd.drop 4)
  else if startsWith cmd (ascii "CONFIG".toList) then
    server.modify cli fun slot => { slot with configOk := true }
  else if (ascii "INFO ".toList).isPrefixOf cmd then
    server.modify cli fun slot =>
      { slot with
        argbOsd := slot.argbOsd || (ascii "INFO ARGBOSD".toList).isPrefixOf cmd
        rleArgbOsd := slot.rleArgbOsd || (ascii "INFO ARGBOSD RLE".toList).isPrefixOf cmd }
  else if startsWith cmd (ascii "GRAB ".toList) then server.handleControlGrab cli (cmd.drop 5) outcome
  else if startsWith cmd (ascii "CLOSE".toList) then server.closeConnection cli
  else if startsWith cmd (ascii "CONTROL".toList) then
    server.modify cli fun slot => { slot with connType := .control }
  else server

/-- What the system says of a new connection: whether its peer is known, whether its address
is allowed, and whether the socket could be set to not block. The new client also gets its
slot when `ForcePrimaryDevice` fails; only the descriptor in it is closed then. -/
def handleClientConnected (peerKnown acceptable nonBlocking : Bool) : Connections :=
  match (List.finRange maxClients).find? fun cli => !(server.slots cli).controlOpen with
  | none => server
  | some cli =>
      if peerKnown = false ∨ acceptable = false ∨ server.config.remoteMaxClients ≤ cli.val ∨
          nonBlocking = false then server
      else
        ((server.closeDataConnection cli).modify cli fun slot =>
          { slot with connType := .detecting, controlOpen := true }).forcePrimaryDevice true

end Connections

/-! ## Events -/

inductive ConnectionEvent where
  | connected (peerKnown acceptable nonBlocking : Bool)
  | received (cli : Fin maxClients) (cmd : List UInt8) (outcome : Outcome)
  /-- The end of the stream, an error of `poll`, a message that is too long, or a write that
  failed in any thread. -/
  | dropped (cli : Fin maxClients)
  | osdDropped (cli : Fin maxClients)
  /-- A round of the loop in the main thread. -/
  | mainThread
  | configured (config : ServerConfig)
  deriving DecidableEq

namespace Connections

def start (device : ForcedDevice) (config : ServerConfig) : Connections where
  slots := fun _ => {}
  config := config
  device := device

def perform (setPrimaryDevice : Nat → Nat → Nat) (server : Connections) :
    ConnectionEvent → Connections
  | .connected peerKnown acceptable nonBlocking =>
      server.handleClientConnected peerKnown acceptable nonBlocking
  | .received cli cmd outcome =>
      if (server.slots cli).controlOpen then server.handleControl cli outcome cmd else server
  | .dropped cli => server.closeConnection cli
  | .osdDropped cli => server.closeOsdConnection cli
  | .mainThread => { server with device := server.device.mainThreadRound setPrimaryDevice }
  | .configured config => { server with config := config }

end Connections

end Xineliboutput.Server
