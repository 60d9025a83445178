import Xineliboutput.Osd.ReadCommand
import Xineliboutput.Osd.SetRle

/-!
# Commands from the network

`handle_osdcmd` behind the reading of a command: the image is decoded where the command
says so, and `exec_osd_command_internal` performs the command. Each format trusts other
members of the command. An access outside of the palette, of the data, of the decoded
elements or of the colour tables is a fault.
-/

namespace Xineliboutput.Osd.Remote

open Xineliboutput.Osd.Rle

set_option autoImplicit false

/-! ## `osd_command_id_t` -/

abbrev osdSize : UInt8 := 1
abbrev osdSetRle : UInt8 := 2
abbrev osdClose : UInt8 := 5
abbrev osdVideoWindow : UInt8 := 9
abbrev osdSetHdmv : UInt8 := 10
abbrev osdSetLut8 : UInt8 := 11
abbrev osdSetArgb : UInt8 := 12
abbrev osdSetArgbrle : UInt8 := 13

/-! ## Decoding in `handle_osdcmd` -/

/-- The loop of `uncompress_osd_net`. It does not use the size of the data. -/
def netElements : Nat → List UInt8 → Except Fault (List RleElem)
  | 0, _ => .ok []
  | _ + 1, [] => .error .data
  | _ + 1, [_] => .error .data
  | elems + 1, first :: second :: raw =>
      if first &&& 0x80 = 0 then
        (netElements elems raw).map (⟨first.toNat, second.toNat⟩ :: ·)
      else
        match raw with
        | [] => .error .data
        | color :: raw =>
            (netElements elems raw).map
              (⟨(first &&& 0x7f).toNat * 256 + second.toNat, color.toNat⟩ :: ·)

/-- `uncompress_osd_net`; the number of elements is taken for an `int`, and there is no
array of a negative size. -/
def uncompressOsdNet (raw : List UInt8) (numRle : Nat) : Except Fault (Option (List RleElem)) :=
  if intOfUnsigned numRle < 0 then .ok none
  else (netElements (intOfUnsigned numRle).toNat raw).map some

def clutOfBytes : List UInt8 → List Clut
  | cb :: cr :: y :: alpha :: rest => ⟨cb, cr, y, alpha⟩ :: clutOfBytes rest
  | _ => []

variable (received : ReceivedCommand)

/-- The command as `exec_osd_set_rle` is given it, with these elements. -/
def rleCommand (data : Option (List RleElem)) (datalen : Nat) : Command where
  x := received.command.x.toNat
  y := received.command.y.toNat
  w := received.command.w.toNat
  h := received.command.h.toNat
  datalen
  data
  colors := received.command.colors.toNat
  palette := received.palette.map clutOfBytes
  flags := received.command.flags
  scaling := received.command.scaling.toNat

/-- `handle_osdcmd` for `OSD_Set_RLE` -/
def convertRle : Except Fault Command :=
  match received.data with
  | none => .ok (rleCommand received none received.command.datalen.toNat)
  | some raw =>
      (uncompressOsdNet raw received.command.numRle.toNat).map fun data =>
        rleCommand received data (received.command.numRle.toNat * 4 % 2 ^ 32)

/-- `handle_osdcmd` for `OSD_Set_HDMV`. A command whose image is not decoded stays one of a
format that is not known any further. -/
def convertHdmv : Except Fault (Option Command) :=
  match received.data with
  | none => .ok none
  | some raw =>
      match rleUncompressHdmv received.command.w.toNat received.command.h.toNat raw
          received.command.numRle.toNat with
      | (_, .overread) => .error .data
      | (elements, .returned n) =>
          if n < 1 then .ok none
          else .ok (some (rleCommand received (some (elements.take n.toNat))
            (received.command.numRle.toNat * 4 % 2 ^ 32)))

/-! ## Execution -/

/-- `exec_osd_set_lut8` up to `exec_osd_set_rle` -/
def convertLut8 : Except Fault Command :=
  match received.data with
  | none => .ok (rleCommand received none received.command.datalen.toNat)
  | some pixels =>
      if pixels.length < received.command.w.toNat * received.command.h.toNat then .error .data
      else
        let elements :=
          rleCompress pixels received.command.w.toNat received.command.h.toNat
        .ok (rleCommand received (some elements) (4 * elements.length % 2 ^ 32))

def argbStride (extent : Extent) : Nat :=
  if extent.width < received.command.x.toNat + received.command.w.toNat then
    extent.width - received.command.x.toNat
  else received.command.w.toNat

def argbLines (extent : Extent) : Int :=
  if extent.height < received.command.y.toNat + received.command.h.toNat then
    (extent.height : Int) - received.command.y.toNat
  else received.command.h.toNat

/-- So many lines of an image are read, `stride` of the `w` pixels of each. -/
def copyLines (stride w : Nat) : Nat → List UInt8 → Except Fault Unit
  | 0, _ => .ok ()
  | lines + 1, src =>
      if src.length < 4 * stride then .error .data else copyLines stride w lines (src.drop (4 * w))

/-- What `exec_osd_set_argb` reads of the image. -/
def readArgb (extent : Extent) : Except Fault Unit :=
  let lines := (argbLines received extent % 2 ^ 32).toNat
  if received.command.cmd = osdSetArgbrle then
    match received.data with
    | none =>
        -- the decoder is told of data that is not there
        if 0 < received.command.datalen.toNat ∧ 0 < received.command.numRle.toNat ∧ 0 < lines then
          .error .data
        else .ok ()
    | some raw =>
        if (rleUncompressArgbrle received.command.w.toNat lines extent.width raw
            received.command.numRle.toNat).2 = .overread then .error .data
        else .ok ()
  else
    copyLines (argbStride received extent) received.command.w.toNat
      (argbLines received extent).toNat (received.data.getD [])

/-- What a command depends on besides the OSD manager: the overlay manager, what the output
can do, and the size of its window when it is asked for. -/
structure Surroundings where
  manager : OverlayManager
  out : Output
  argbSupported : Bool
  window : Extent

variable (around : Surroundings) (this : OsdManager)

/-- `exec_osd_set_argb`. The window shows no palette image any more. -/
def execOsdSetArgb (wnd : Nat) (osd : OsdData) : Except Fault OsdManager :=
  if around.argbSupported = false then .ok this
  else if osd.extent.width < 32 ∨ osd.extent.height < 32 then .ok this
  else
    let osd := OsdManager.opened around.manager this osd
    (readArgb received osd.extent).map fun _ =>
      { this with
        osd := this.osd.set wnd { osd with cmd := { osd.cmd with data := none, palette := none } }
        shown := Function.update this.shown osd.handle none }

def onWindow (perform : OsdData → Except Fault OsdManager) : Except Fault OsdManager :=
  (this.osd[received.command.wnd.toNat]?).elim (.ok this) perform

def execRle (cmd : Command) : Except Fault OsdManager :=
  onWindow received this fun osd =>
    this.execOsdSetRle around.manager around.out around.window received.command.wnd.toNat osd cmd

/-- `handle_osdcmd` behind the reading of the command. Commands that are not listed change
no window. -/
def handleReceived : Except Fault OsdManager :=
  let header := received.command
  if header.cmd = osdSetRle then do execRle received around this (← convertRle received)
  else if header.cmd = osdSetHdmv then do
    match ← convertHdmv received with
    | none => .ok this
    | some cmd => execRle received around this cmd
  else if header.cmd = osdSetLut8 then
    onWindow received this fun osd => do
      let cmd ← convertLut8 received
      this.execOsdSetRle around.manager around.out around.window header.wnd.toNat osd cmd
  else if header.cmd = osdSetArgb ∨ header.cmd = osdSetArgbrle then
    onWindow received this (execOsdSetArgb received around this header.wnd.toNat)
  else if header.cmd = osdSize then
    onWindow received this fun osd =>
      .ok (this.execOsdSize around.out header.wnd.toNat osd header.w.toNat header.h.toNat)
  else if header.cmd = osdClose then
    onWindow received this fun osd => .ok (this.execOsdClose header.wnd.toNat osd header.flags)
  else if header.cmd = osdVideoWindow then
    onWindow received this fun osd =>
      .ok (this.execOsdVideoWindow header.wnd.toNat osd header.x.toNat header.y.toNat
        header.w.toNat header.h.toNat)
  else .ok this

end Xineliboutput.Osd.Remote
