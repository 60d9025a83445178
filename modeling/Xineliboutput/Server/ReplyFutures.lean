import Mathlib.Logic.Function.Basic

/-!
# Remote calls and their futures

`Xine_Control_Result` and `GrabImage` of `frontend_svr.c`, called by any threads, and the
server thread that reads the replies of the clients: `Handle_Control_GRAB`, the branch of
`RESULT` and the call inside of `Handle_Control_CONFIG`. A step is what happens while the
lock is held, or the end of a wait. A client's reply waits in its socket until the server
thread reads it.
-/

namespace Xineliboutput.Server

set_option autoImplicit false

/-! ## Calls -/

inductive CallKind where
  | control
  | grab
  deriving DecidableEq

/-- What a future holds. Buffers of images are numbered. -/
inductive FutureValue where
  | number (value : Int)
  | image (buffer : Nat)
  | noImage
  /-- A value of another type than the one of the future. -/
  | garbled
  deriving DecidableEq

def FutureValue.fits : FutureValue → CallKind → Bool
  | .number _, .control => true
  | .image _, .grab => true
  | .noImage, .grab => true
  | _, _ => false

inductive CallResult where
  | number (value : Int)
  | image (buffer : Option Nat)
  | garbage
  deriving DecidableEq

/-- What a call makes of its future; `none` is a future that is not ready. -/
def resultOf : CallKind → Option FutureValue → CallResult
  | .control, none => .number (-1)
  | .control, some (.number value) => .number value
  | .grab, none => .image none
  | .grab, some .noImage => .image none
  | .grab, some (.image buffer) => .image (some buffer)
  | _, _ => .garbage

/-- Behind `Wait`, and behind `m_Futures->Del`, with what `GrabImage` has decided on. -/
inductive CallPhase where
  | waiting
  | woken (result : CallResult)
  | removed (result : CallResult)
  | returned (result : CallResult)
  deriving DecidableEq

def CallPhase.live : CallPhase → Bool
  | .waiting | .woken _ => true
  | .removed _ | .returned _ => false

def CallPhase.isReturned : CallPhase → Bool
  | .returned _ => true
  | .waiting | .woken _ | .removed _ => false

/-- `heard` is the first reply with the token of the call that was processed before the
call removed its future. Nothing reads it. -/
structure Call where
  kind : CallKind
  token : Option Nat
  phase : CallPhase
  future : Option FutureValue := none
  heard : Option FutureValue := none
  deriving DecidableEq

/-! ## The state -/

/-- An answer of a client. The data of an image follow the message. -/
inductive ClientReply where
  | result (token value : Int)
  | grab (token size : Int)
  deriving DecidableEq

inductive ServerThread where
  | idle
  /-- `Handle_Control_GRAB` reads an image into a buffer. -/
  | reading (token : Int) (buffer : Nat)
  /-- `Handle_Control_CONFIG` waits for the end of a call. -/
  | configuring (call : Nat)
  deriving DecidableEq

/-- How often a buffer has been freed, and the calls that have returned it. -/
structure ImageBuffer where
  freed : Nat := 0
  returnedTo : List Nat := []
  deriving DecidableEq

/-- `playing` is `m_bPlayingFile && *m_FileName`, and `playfiles` the positions that have been
sent to new clients. -/
structure Rpc where
  token : Nat
  futures : List (Nat × Nat)
  calls : Nat → Option Call
  started : Nat
  thread : ServerThread
  pending : List ClientReply
  buffers : Nat → ImageBuffer
  allocated : Nat
  playing : Bool
  playfiles : List Int

inductive RpcStep where
  | begin (kind : CallKind) (hasClients : Bool)
  | wait (call : Nat) (answer : Bool)
  | remove (call : Nat)
  | finish (call : Nat)
  | arrive (reply : ClientReply)
  | process (index : Nat)
  | read (complete : Bool)
  | play (playing : Bool)
  | configure (hasClients : Bool)
  | resume
  deriving DecidableEq

namespace Rpc

def start : Rpc where
  token := 1
  futures := []
  calls := fun _ => none
  started := 0
  thread := .idle
  pending := []
  buffers := fun _ => {}
  allocated := 0
  playing := false
  playfiles := []

variable (rpc : Rpc)

def setCall (id : Nat) (call : Call) : Rpc :=
  { rpc with calls := Function.update rpc.calls id (some call) }

/-- The first half of a call. Without clients it returns at once. -/
def beginCall (kind : CallKind) (hasClients : Bool) : Rpc :=
  if hasClients then
    let token := (rpc.token + 1) % 65536
    { rpc.setCall rpc.started { kind := kind, token := some token, phase := .waiting } with
      token := token
      futures := rpc.futures ++ [(token, rpc.started)]
      started := rpc.started + 1 }
  else
    { rpc.setCall rpc.started
        { kind := kind, token := none, phase := .returned (resultOf kind none) } with
      started := rpc.started + 1 }

/-- The end of `future.Wait(…)`. It may answer `false` with the future ready, when the reply
comes as the time is over, and before the time is over. -/
def waitCall (id : Nat) (answer : Bool) : Option Rpc :=
  match rpc.calls id with
  | none => none
  | some call =>
      if call.phase = .waiting ∧ (answer = true → call.future ≠ none) then
        some (rpc.setCall id
          { call with phase := .woken (resultOf call.kind (if answer then call.future else none)) })
      else none

/-- `m_Futures->Del(&future, token)` -/
def removeCall (id : Nat) : Option Rpc :=
  match rpc.calls id with
  | none => none
  | some call =>
      match call.phase with
      | .woken result =>
          some { rpc.setCall id { call with phase := .removed result } with
            futures := rpc.futures.filter fun entry => entry.2 ≠ id }
      | _ => none

def returnBuffer (id : Nat) : CallResult → Rpc
  | .image (some buffer) =>
      { rpc with
        buffers := Function.update rpc.buffers buffer
          { rpc.buffers buffer with returnedTo := (rpc.buffers buffer).returnedTo ++ [id] } }
  | _ => rpc

/-- `Xine_Control_Result` looks at its future again; `GrabImage` has made up its mind. -/
def finalResult (call : Call) (decided : CallResult) : CallResult :=
  match call.kind with
  | .control => resultOf .control call.future
  | .grab => decided

def finishCall (id : Nat) : Option Rpc :=
  match rpc.calls id with
  | none => none
  | some call =>
      match call.phase with
      | .removed decided =>
          let result := finalResult call decided
          some ((rpc.setCall id { call with phase := .returned result }).returnBuffer id result)
      | _ => none

/-- Notes a reply in all calls with its token that have not removed their future. -/
def hear (token : Int) (value : FutureValue) : Rpc :=
  { rpc with
    calls := fun id => (rpc.calls id).map fun call =>
      if call.token.map Nat.cast = some token ∧ call.phase.live = true ∧ call.heard = none then
        { call with heard := some value }
      else call }

/-- `f->Set(…)` -/
def setFuture (id : Nat) (value : FutureValue) : Rpc :=
  { rpc with
    calls := fun other =>
      if other = id then
        (rpc.calls other).map fun call =>
          { call with future := some (if value.fits call.kind then value else .garbled) }
      else rpc.calls other }

/-- `m_Futures->Get(token)` -/
def owner (token : Int) : Option Nat :=
  (rpc.futures.find? fun entry => (entry.1 : Int) == token).map Prod.snd

def deliver (token : Int) (value : FutureValue) : Rpc :=
  match rpc.owner token with
  | none => rpc.hear token value
  | some id =>
      { (rpc.hear token value).setFuture id value with
        futures := rpc.futures.filter fun entry => entry.2 ≠ id }

def free (buffer : Nat) : Rpc :=
  { rpc with
    buffers := Function.update rpc.buffers buffer
      { rpc.buffers buffer with freed := (rpc.buffers buffer).freed + 1 } }

def properSize (size : Int) : Bool := 0 < size && size < 20480000

def processReply (index : Nat) : Option Rpc :=
  match rpc.thread, rpc.pending[index]? with
  | .idle, some (.result token value) =>
      some ({ rpc with pending := rpc.pending.eraseIdx index }.deliver token (.number value))
  | .idle, some (.grab token size) =>
      if properSize size then
        some
          { rpc with
            pending := rpc.pending.eraseIdx index
            thread := .reading token rpc.allocated
            allocated := rpc.allocated + 1 }
      else some ({ rpc with pending := rpc.pending.eraseIdx index }.deliver token .noImage)
  | _, _ => none

/-- The end of `fd_control[cli].read(result, size, 2000)`. -/
def readImage (complete : Bool) : Option Rpc :=
  match rpc.thread with
  | .reading token buffer =>
      if complete then
        let next := { rpc with thread := .idle }.deliver token (.image buffer)
        some (if (rpc.owner token).isSome then next else next.free buffer)
      else some ({ rpc with thread := .idle }.free buffer)
  | _ => none

/-- `Handle_Control_CONFIG` up to the call of `PlayFileCtrl`. -/
def configure (hasClients : Bool) : Option Rpc :=
  if rpc.thread = .idle then
    if rpc.playing then
      some { rpc.beginCall .control hasClients with thread := .configuring rpc.started }
    else some rpc
  else none

def playPosition (pos : Int) : Int := if 0 < pos then pos.tdiv 1000 else 0

/-- `Handle_Control_CONFIG` behind the call. -/
def resume : Option Rpc :=
  match rpc.thread with
  | .configuring id =>
      match (rpc.calls id).map Call.phase with
      | some (.returned (.number pos)) =>
          some
            { rpc with
              thread := .idle
              playfiles := rpc.playfiles ++ if rpc.playing then [playPosition pos] else [] }
      | _ => none
  | _ => none

def perform : RpcStep → Option Rpc
  | .begin kind hasClients => some (rpc.beginCall kind hasClients)
  | .wait id answer => rpc.waitCall id answer
  | .remove id => rpc.removeCall id
  | .finish id => rpc.finishCall id
  | .arrive reply => some { rpc with pending := rpc.pending ++ [reply] }
  | .process index => rpc.processReply index
  | .read complete => rpc.readImage complete
  | .play playing => some { rpc with playing := playing }
  | .configure hasClients => rpc.configure hasClients
  | .resume => rpc.resume

end Rpc

end Xineliboutput.Server
