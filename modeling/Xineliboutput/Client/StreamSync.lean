import Xineliboutput.StreamHeaders
import Mathlib.Data.UInt

/-!
# Discarding across two connections

The server numbers the bytes it plays. A jump in the stream is announced on the
control connection and again inside the data stream; the client's control thread
and data thread read their connections without regard to each other. A media packet
counts as returned when it leaves `preprocess_buf`, which holds the lock.
-/

namespace Xineliboutput.Client

open Xineliboutput.StreamHeaders

set_option autoImplicit false

/-! ## What is sent -/

/-- A media packet with the position of its header. -/
structure MediaPacket where
  pos : UInt64
  data : List UInt8
  deriving DecidableEq

inductive ControlLine where
  | discard (index : UInt64) (frame : UInt32)
  | streamPos (pos : UInt64)
  | flush (offset : UInt64)
  deriving DecidableEq

inductive DataItem where
  | packet (packet : MediaPacket)
  | discard (index : UInt64)
  deriving DecidableEq

/-- `cXinelibThread`. The lock is released between the parts of `Clear`: messages wait
in `toControl` for `Xine_Control` and in `toData` for `Xine_Control_Sync`. -/
structure Server where
  streamPos : UInt64
  lastClearPos : UInt64
  frames : UInt32
  toControl : List (UInt64 × UInt32)
  toData : List UInt64

/-! ## The client -/

/-- The control thread is idle, or inside `vdr_flush_engine` without the lock. -/
inductive ControlThread where
  | idle
  | discarding (index : UInt64)
  | resetting (pos : UInt64)
  deriving DecidableEq

/-- The part of `vdr_input_plugin_t` that discarding depends on. -/
structure InputPlugin where
  controlThread : ControlThread
  discardIndex : UInt64
  discardIndexDs : UInt64
  discardFrame : UInt32
  guardIndex : UInt64
  curpos : UInt64
  curframe : UInt32
  streamStart : Bool
  deriving DecidableEq

namespace InputPlugin

/-- `vdr_flush_engine` returns before it releases the lock. -/
def flushSkipped (this : InputPlugin) (discardIndex : UInt64) : Bool :=
  this.streamStart || decide (discardIndex < this.curpos)

def discardTo (this : InputPlugin) (index : UInt64) : InputPlugin :=
  { this with controlThread := .idle, discardIndex := index }

def resetTo (this : InputPlugin) (pos : UInt64) : InputPlugin :=
  { this with controlThread := .idle, curpos := pos, discardIndex := pos, guardIndex := 0 }

/-- `vdr_plugin_parse_control` for these messages, up to the point where the lock is
released. FLUSH takes effect at the end of `vdr_plugin_flush_remote`. -/
def parseControl (this : InputPlugin) : ControlLine → InputPlugin
  | .discard index frame =>
      if this.discardIndex < index then
        let this := { this with discardFrame := frame }
        if this.flushSkipped index then this.discardTo index
        else { this with controlThread := .discarding index }
      else this
  | .streamPos pos =>
      if this.flushSkipped pos then this.resetTo pos
      else { this with controlThread := .resetting pos }
  | .flush offset => { this with guardIndex := offset }

/-- The control thread takes the lock again behind `_x_demux_seek`. -/
def finishControl (this : InputPlugin) : Option InputPlugin :=
  match this.controlThread with
  | .idle => none
  | .discarding index => some ({ this with streamStart := true }.discardTo index)
  | .resetting pos => some ({ this with streamStart := true }.resetTo pos)

/-- `preprocess_buf` for a media packet, and whether it returns the packet. -/
def preprocessBuf (this : InputPlugin) (packet : MediaPacket) : InputPlugin × Bool :=
  let this := { this with curpos := packet.pos }
  if this.curpos < this.discardIndex ∧ this.guardIndex < this.curpos then (this, false)
  else
    let this :=
      { this with
        curpos := this.curpos + UInt64.ofNat packet.data.length, curframe := this.curframe + 1 }
    if !dataIsTs packet.data && isPaddingPacket packet.data then (this, true)
    else ({ this with streamStart := false }, true)

end InputPlugin

/-! ## The system -/

/-- Server, connections and client, with the indices of the DISCARD messages that have
been executed since the numbering last began anew. -/
structure StreamSystem where
  server : Server
  controlStream : List ControlLine
  dataStream : List DataItem
  client : InputPlugin
  executed : List UInt64

def StreamSystem.init : StreamSystem where
  server := ⟨0, 0, 0, [], []⟩
  controlStream := []
  dataStream := []
  client := ⟨.idle, 0, 0, 0, 0, 0, 0, true⟩
  executed := []

inductive StreamStep where
  /-- `Play` -/
  | play (data : List UInt8)
  /-- A stream header, which is sent at position 0. -/
  | sendHeader (data : List UInt8)
  /-- `Clear` up to the release of the lock. -/
  | clear
  | postControl
  | postData
  /-- `Flush` -/
  | flush
  /-- The stream is opened anew. -/
  | restart
  /-- The control thread reads a message. -/
  | control
  /-- The control thread goes on with the message it executes. -/
  | finish
  /-- The data thread reads a packet or a message. -/
  | data

namespace StreamSystem

def clear (this : StreamSystem) : StreamSystem :=
  if this.server.streamPos = this.server.lastClearPos then this
  else
    { this with
      server :=
        { this.server with
          lastClearPos := this.server.streamPos
          toControl := this.server.toControl ++ [(this.server.streamPos, this.server.frames)] } }

def executeControl (this : StreamSystem) : Option StreamSystem :=
  match this.client.controlThread, this.controlStream with
  | .idle, line :: lines =>
      let client := this.client.parseControl line
      some
        { this with
          controlStream := lines
          client
          executed :=
            match line with
            | .discard index _ =>
                if client.controlThread = .idle then index :: this.executed else this.executed
            | .streamPos _ => if client.controlThread = .idle then [] else this.executed
            | .flush _ => this.executed }
  | _, _ => none

def finishControl (this : StreamSystem) : Option StreamSystem :=
  this.client.finishControl.map fun client =>
    { this with
      client
      executed :=
        match this.client.controlThread with
        | .discarding index => index :: this.executed
        | .resetting _ => []
        | .idle => this.executed }

/-- Behind an in-stream DISCARD the data thread reads on when the control thread has
come so far; `wait_stream_sync` does not time out. -/
def readData (this : StreamSystem) : Option StreamSystem :=
  if this.client.discardIndex < this.client.discardIndexDs then none
  else
    match this.dataStream with
    | [] => none
    | .packet packet :: items =>
        some { this with dataStream := items, client := (this.client.preprocessBuf packet).1 }
    | .discard index :: items =>
        some { this with dataStream := items, client := { this.client with discardIndexDs := index } }

def perform (this : StreamSystem) : StreamStep → Option StreamSystem
  | .play data =>
      some
        { this with
          dataStream := this.dataStream ++ [.packet ⟨this.server.streamPos, data⟩]
          server :=
            { this.server with
              streamPos := this.server.streamPos + UInt64.ofNat data.length
              frames := this.server.frames + 1 } }
  | .sendHeader data => some { this with dataStream := this.dataStream ++ [.packet ⟨0, data⟩] }
  | .clear => some this.clear
  | .postControl =>
      match this.server.toControl with
      | [] => none
      | (index, frame) :: later =>
          some
            { this with
              controlStream := this.controlStream ++ [.discard index frame]
              server :=
                { this.server with toControl := later, toData := this.server.toData ++ [index] } }
  | .postData =>
      match this.server.toData with
      | [] => none
      | index :: later =>
          some
            { this with
              dataStream := this.dataStream ++ [.discard index]
              server := { this.server with toData := later } }
  | .flush =>
      some { this with controlStream := this.controlStream ++ [.flush this.server.streamPos] }
  | .restart =>
      some
        { this with
          controlStream := this.controlStream ++ [.streamPos 0]
          server := { this.server with streamPos := 0 } }
  | .control => this.executeControl
  | .finish => this.finishControl
  | .data => this.readData

end StreamSystem
end Xineliboutput.Client
