import Xineliboutput.Foundation.Framing
import Xineliboutput.Foundation.Texts
import Xineliboutput.Server.SlotSockets

/-!
# The control channel from the client to the server

Threads of the client write to the control socket under `fd_control_lock`, in pieces as the
socket takes them: `write_control_data` and its callers of `xine_input_vdr.c`. The server
reads byte by byte: `Read_Control` and `Handle_Control_GRAB`. A write that fails or is aborted
may leave a part of a message on its way.
-/

namespace Xineliboutput.Server

open Xineliboutput.Foundation Xineliboutput.Foundation.Machine
open Xineliboutput.Client (startsWith)
open SlotSockets (ctrlBufSize completeMessage)

set_option autoImplicit false

/-! ## Messages -/

/-- What is written under one lock: by `write_control` a line, by `_send_grab_data` an image. -/
inductive ControlMessage where
  | line (text : List UInt8)
  | image (token : Nat) (data : List UInt8)
  deriving DecidableEq

def grabWord : List UInt8 := ascii "GRAB ".toList

/-- `"GRAB %d %lu"` -/
def grabLine (token size : Nat) : List UInt8 := grabWord ++ decimal token ++ 32 :: decimal size

namespace ControlMessage

/-- The calls of `write_control_data`. -/
def pieces : ControlMessage → List (List UInt8)
  | line text => [text ++ crlf]
  | image token data => [grabLine token data.length ++ crlf, data]

def encode (message : ControlMessage) : List UInt8 := message.pieces.flatten

end ControlMessage

inductive HandledMessage where
  | command (cmd : List UInt8)
  | image (token : Int) (data : List UInt8)
  deriving DecidableEq

/-- The image that `Handle_Control_GRAB` reads behind a command, and its token. -/
def announcedImage (cmd : List UInt8) : Option (Int × Nat) :=
  if startsWith cmd grabWord then
    match scanInteger (cmd.drop 5) with
    | none => none
    | some (token, rest) =>
        match scanInteger rest with
        | none => none
        | some (size, _) =>
            if 0 < storeInt size ∧ storeInt size < 20480000 then
              some (storeInt token, (storeInt size).toNat)
            else none
  else none

namespace ControlMessage

/-- Lines are terminated C strings that fit into the buffer of the server, and announce no
image; images are not refused. -/
def WellFormed : ControlMessage → Prop
  | line text => lf ∉ text ∧ (0 : UInt8) ∉ text ∧ text.length + 2 ≤ ctrlBufSize - 2 ∧
      announcedImage text = none
  | image token data => token < 2 ^ 31 ∧ 0 < data.length ∧ data.length < 20480000

instance : DecidablePred WellFormed := fun message =>
  match message with
  | line text => inferInstanceAs (Decidable (lf ∉ text ∧ (0 : UInt8) ∉ text ∧
      text.length + 2 ≤ ctrlBufSize - 2 ∧ announcedImage text = none))
  | image token data =>
      inferInstanceAs (Decidable (token < 2 ^ 31 ∧ 0 < data.length ∧ data.length < 20480000))

def meaning : ControlMessage → HandledMessage
  | line text => .command text
  | image token data => .image token data

end ControlMessage

/-! ## The reader -/

structure PartialImage where
  token : Int
  size : Nat
  data : List UInt8
  deriving DecidableEq

structure ControlReader where
  buf : List UInt8
  image : Option PartialImage
  handled : List HandledMessage
  closed : Bool
  deriving DecidableEq

namespace ControlReader

def start : ControlReader where
  buf := []
  image := none
  handled := []
  closed := false

/-- A byte for `Read_Control`. -/
def readByte (reader : ControlReader) (byte : UInt8) : ControlReader :=
  let buf := reader.buf ++ [byte]
  if ctrlBufSize - 2 < buf.length then { reader with buf, closed := true }
  else
    match completeMessage buf with
    | none => { reader with buf }
    | some cmd =>
        match announcedImage cmd with
        | none => { reader with buf := [], handled := reader.handled ++ [.command cmd] }
        | some (token, size) => { reader with buf := [], image := some ⟨token, size, []⟩ }

/-- A byte for `fd_control[cli].read` in `Handle_Control_GRAB`. -/
def imageByte (reader : ControlReader) (image : PartialImage) (byte : UInt8) : ControlReader :=
  let data := image.data ++ [byte]
  if data.length = image.size then
    { reader with image := none, handled := reader.handled ++ [.image image.token data] }
  else { reader with image := some { image with data } }

def feed (reader : ControlReader) (byte : UInt8) : ControlReader :=
  if reader.closed then reader
  else
    match reader.image with
    | none => reader.readByte byte
    | some image => reader.imageByte image byte

end ControlReader

def controlReceiver : StreamReceiver ControlReader UInt8 HandledMessage where
  feed := ControlReader.feed
  handled := ControlReader.handled

/-! ## The writers -/

/-- The thread with the lock: what is left of the call it is in, the calls that follow under the
same lock, and whether it is between the checks and `send`. -/
structure LockHolder (Writer : Type) where
  writer : Writer
  piece : List UInt8
  more : List (List UInt8)
  checked : Bool

structure ControlLink (Writer : Type) where
  programs : Writer → List ControlMessage
  holder : Option (LockHolder Writer)
  /-- `control_running` -/
  running : Bool
  wire : List UInt8
  reader : ControlReader

inductive LinkLabel (Writer : Type) where
  | lock (writer : Writer) (message : ControlMessage)
  /-- `control_running` is set before and after a `select` that succeeds. -/
  | check
  /-- `control_running` is not set. -/
  | abort
  | selectFails
  | send (count : Nat)
  /-- `EAGAIN` or `EINTR` -/
  | again
  | sendFails
  /-- The call returns, and the next one under the lock begins. -/
  | nextCall
  | unlock
  /-- `control_running` is cleared elsewhere. -/
  | stop
  | receive (byte : UInt8)
  /-- The image does not come in time. -/
  | imageTimeout
  /-- The server closes the connection for another reason. -/
  | drop

namespace ControlLink

variable {Writer : Type} [DecidableEq Writer]

def ready (programs : Writer → List ControlMessage) : ControlLink Writer where
  programs := programs
  holder := none
  running := true
  wire := []
  reader := .start

def perform (link : ControlLink Writer) : LinkLabel Writer → Option (ControlLink Writer)
  | .lock writer message =>
      match link.holder, link.programs writer with
      | none, first :: rest =>
          if first = message then
            match message.pieces with
            | [] => none
            | piece :: more =>
                some { link with
                  programs := Function.update link.programs writer rest
                  holder := some ⟨writer, piece, more, false⟩ }
          else none
      | _, _ => none
  | .check => do
      let holder ← link.holder
      if holder.piece ≠ [] ∧ holder.checked = false ∧ link.running then
        some { link with holder := some { holder with checked := true } }
      else none
  | .abort => do
      let holder ← link.holder
      if holder.piece ≠ [] ∧ holder.checked = false ∧ !link.running then
        some { link with holder := some { holder with piece := [] } }
      else none
  | .selectFails => do
      let holder ← link.holder
      if holder.piece ≠ [] ∧ holder.checked = false ∧ link.running then
        some { link with running := false, holder := some { holder with piece := [] } }
      else none
  | .send count => do
      let holder ← link.holder
      if holder.checked ∧ 0 < count ∧ count ≤ holder.piece.length then
        some { link with
          wire := link.wire ++ holder.piece.take count
          holder := some { holder with piece := holder.piece.drop count, checked := false } }
      else none
  | .again => do
      let holder ← link.holder
      if holder.checked then some { link with holder := some { holder with checked := false } }
      else none
  | .sendFails => do
      let holder ← link.holder
      if holder.checked then
        some { link with
          running := false
          holder := some { holder with piece := [], checked := false } }
      else none
  | .nextCall => do
      let holder ← link.holder
      match holder.piece, holder.more with
      | [], piece :: more => some { link with holder := some { holder with piece, more } }
      | _, _ => none
  | .unlock => do
      let holder ← link.holder
      if holder.piece = [] ∧ holder.more = [] then some { link with holder := none } else none
  | .stop => some { link with running := false }
  | .receive byte =>
      match link.wire with
      | [] => none
      | first :: wire =>
          if first = byte ∧ link.reader.closed = false then
            some { link with wire, reader := link.reader.feed byte }
          else none
  | .imageTimeout =>
      if link.reader.image.isSome then
        some { link with reader := { link.reader with closed := true } }
      else none
  | .drop => some { link with reader := { link.reader with closed := true } }

end ControlLink

def linkMachine {Writer : Type} [DecidableEq Writer] (programs : Writer → List ControlMessage) :
    Machine (ControlLink Writer) (LinkLabel Writer) where
  initial link := link = .ready programs
  step link label next := link.perform label = some next

/-! ## What the reader understands -/

structure ControlReader.Idle (reader : ControlReader) : Prop where
  buf : reader.buf = []
  image : reader.image = none
  opened : reader.closed = false

end Xineliboutput.Server
