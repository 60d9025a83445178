import Mathlib.Algebra.Ring.Int.Defs
import Xineliboutput.Osd.ScaleNearest
import Xineliboutput.Osd.WindowHandles

/-!
# Palette images in the OSD manager

`exec_osd_set_rle` of `xine/osd_manager.c` and what it calls: the palette is converted, the
image is kept for later, scaled where it does not fit the video, and shown. An access
outside of what the command carries is a fault, and so is a division by zero.
-/

namespace Xineliboutput.Osd.Rle

set_option autoImplicit false

inductive Fault where
  | palette
  | data
  | elements
  | colors
  | division
  deriving DecidableEq

/-- `osd_clut_t`; green, blue and red share the bytes of `cb`, `cr` and `y`. -/
structure Clut where
  cb : UInt8
  cr : UInt8
  y : UInt8
  alpha : UInt8
  deriving DecidableEq

/-- `osd_command_t` of a palette image, with what its pointers point to. -/
structure Command where
  x : Nat
  y : Nat
  w : Nat
  h : Nat
  datalen : Nat
  data : Option (List RleElem)
  colors : Nat
  palette : Option (List Clut)
  flags : UInt8
  scaling : Nat
  deriving DecidableEq

abbrev yuvClut : UInt8 := 0x01
abbrev refresh : UInt8 := 0x02
abbrev unscaled : UInt8 := 0x04
abbrev unscaledLowres : UInt8 := 0x08

def hasFlag (flag flags : UInt8) : Bool := flags &&& flag != 0

structure Extent where
  width : Nat
  height : Nat
  deriving DecidableEq

/-- What `video_out` can do. -/
structure Output where
  unscaledOverlay : Bool
  osdScaling : Bool

/-- `vo_overlay_t`, without the fields of xine extensions. -/
structure Overlay where
  rle : List RleElem
  numRle : Nat
  x : Int
  y : Int
  width : Nat
  height : Nat
  color : List (UInt8 × UInt8 × UInt8)
  trans : List Nat
  rgbClut : Bool
  unscaled : Bool
  deriving DecidableEq

/-! ## The palette -/

def saturate (value low high : Int) : UInt8 :=
  .ofNat (if value < low then low else if high < value then high else value).toNat

def argbToAyuv (entry : Clut) : Clut :=
  let r : Int := entry.y.toNat
  let g : Int := entry.cb.toNat
  let b : Int := entry.cr.toNat
  { entry with
    y := saturate ((66 * r + 129 * g + 25 * b + 0x80) / 256 + 16) 16 235
    cr := saturate ((112 * r - 94 * g - 18 * b + 0x80) / 256 + 128) 16 240
    cb := saturate ((-38 * r - 74 * g + 112 * b + 0x80) / 256 + 128) 16 240 }

/-- `palette_argb_to_ayuv`; the number of colours is taken for an `int`. -/
def paletteArgbToAyuv (clut : List Clut) (colors : Nat) : Except Fault (List Clut) :=
  if intOfUnsigned colors ≤ 0 then .ok clut
  else if clut.length < colors then .error .palette
  else .ok ((clut.take colors).map argbToAyuv ++ clut.drop colors)

def prepare (cmd : Command) : Except Fault Command :=
  match cmd.palette with
  | none => .ok cmd
  | some clut =>
      (if hasFlag yuvClut cmd.flags then .ok clut
        else paletteArgbToAyuv clut cmd.colors).map fun clut =>
        { cmd with palette := some clut, flags := cmd.flags ||| yuvClut }

/-- The copy of the palette; its size in bytes is a product of 32 bits. -/
def copyPalette (cmd : Command) : Except Fault (Option (List Clut)) :=
  match cmd.palette with
  | none => .ok none
  | some clut =>
      let copied := 4 * cmd.colors % 2 ^ 32 / 4
      if clut.length < copied then .error .palette else .ok (some (clut.take copied))

/-! ## The image -/

/-- `osdcmd_scale`. It does not use the output size that it is given. -/
def osdcmdScale (extent video : Extent) (cmd : Command) : Except Fault Command :=
  if extent.width = 0 ∨ extent.height = 0 ∨ cmd.w = 0 ∨ cmd.h = 0 then .error .division
  else
    let newX := (intOfUnsigned (cmd.x * video.width)).tdiv extent.width
    let newY := (intOfUnsigned (cmd.y * video.height)).tdiv extent.height
    let x2 := (intOfUnsigned ((cmd.x + cmd.w + 1 + 1) * video.width - 1)).tdiv extent.width
    let y2 := (intOfUnsigned ((cmd.y + cmd.h + 1 + 1) * video.height - 1)).tdiv extent.height
    let newW := x2 - newX - 1
    let newH := y2 - newY - 1
    match rleScaleNearest (cmd.data.getD []) cmd.w cmd.h (newW % 2 ^ 32).toNat
        (newH % 2 ^ 32).toNat with
    | none => .error .elements
    | some elements => .ok { cmd with
        x := (newX % 2 ^ 16).toNat
        y := (newY % 2 ^ 16).toNat
        w := (newW % 2 ^ 16).toNat
        h := (newH % 2 ^ 16).toNat
        data := some elements
        datalen := elements.length * 4 % 2 ^ 32 }

def copyData (cmd : Command) : Except Fault (Option (List RleElem)) :=
  let elements := cmd.data.getD []
  if 4 * elements.length < cmd.datalen then .error .elements
  else .ok (some (elements.take (cmd.datalen / 4)))

abbrev ovlPaletteSize : Nat := 256

/-- `osdcmd_to_overlay` -/
def osdcmdToOverlay (cmd : Command) : Except Fault Overlay :=
  let clut := cmd.palette.getD []
  if clut.length < min cmd.colors (ovlPaletteSize + 1) then .error .palette
  else if ovlPaletteSize < cmd.colors then .error .colors
  else .ok {
    rle := cmd.data.getD []
    numRle := cmd.datalen / 4
    x := cmd.x
    y := cmd.y
    width := cmd.w
    height := cmd.h
    color := (clut.take cmd.colors).map fun entry => (entry.cb, entry.cr, entry.y)
    trans := (clut.take cmd.colors).map fun entry => (entry.alpha.toNat + 7) / 15
    rgbClut := !hasFlag yuvClut cmd.flags
    unscaled := hasFlag unscaled cmd.flags }

/-! ## How it is shown -/

def queriesWindow (out : Output) (flags : UInt8) : Bool :=
  out.unscaledOverlay && (hasFlag unscaled flags || hasFlag unscaledLowres flags)

/-- The video is less than 95 %, or more than 110 %, of the extent. -/
def misfit (video extent : Nat) : Int :=
  if video < extent * 242 / 256 then -1 else if extent * 280 / 256 < video then 1 else 0

/-- `use_unscaled`, in the end. -/
def usesUnscaled (out : Output) (extent video : Extent) (flags : UInt8) : Bool :=
  let wDiff := misfit video.width extent.width
  let hDiff := misfit video.height extent.height
  if out.unscaledOverlay && hasFlag unscaled flags then true
  else !out.osdScaling && (wDiff < 0 || hDiff < 0) && hasFlag unscaledLowres flags &&
    out.unscaledOverlay

def Extent.counts (window : Extent) : Bool := 360 ≤ window.width && 288 ≤ window.height

/-- `rle_scaled` -/
def scales (out : Output) (extent video window : Extent) (cmd : Command) : Bool :=
  !out.osdScaling && 0 < cmd.scaling &&
    if usesUnscaled out extent video cmd.flags then window.counts && window != extent
    else misfit video.width extent.width != 0 || misfit video.height extent.height != 0

def recenter (out : Output) (extent video window : Extent) (flags : UInt8) : Int × Int :=
  let centered (outer : Extent) : Int × Int :=
    (((outer.width : Int) - extent.width).tdiv 2, ((outer.height : Int) - extent.height).tdiv 2)
  if out.osdScaling then (0, 0)
  else if usesUnscaled out extent video flags then
    if window.counts then centered window else (0, 0)
  else centered video

/-- What `exec_osd_set_rle` shows and what it keeps. -/
def draw (out : Output) (extent video window : Extent) (cmd : Command) :
    Except Fault (Overlay × Command) := do
  let cmd ← prepare cmd
  let palette ← copyPalette cmd
  if scales out extent video window cmd then
    let overlay ← osdcmdToOverlay (← osdcmdScale extent video cmd)
    .ok ({ overlay with unscaled := usesUnscaled out extent video cmd.flags },
      { cmd with palette })
  else
    let overlay ← osdcmdToOverlay cmd
    let data ← copyData cmd
    let moved := recenter out extent video window cmd.flags
    .ok ({ overlay with
        unscaled := usesUnscaled out extent video cmd.flags
        x := overlay.x + moved.1
        y := overlay.y + moved.2 },
      { cmd with palette, data })

/-! ## The manager -/

/-- `osd_data_t`, without layers. -/
structure OsdData where
  handle : Int
  cmd : Command
  extent : Extent
  videoWindow : Nat × Nat × Extent

/-- The overlay manager gives out handles that are not in use. -/
structure OverlayManager where
  getHandle : List Int → Int
  natural : ∀ used, 0 ≤ getHandle used
  unused : ∀ used, getHandle used ∉ used

/-- The OSD manager, and what the overlay manager shows. -/
structure OsdManager where
  video : Extent
  window : Extent
  voScaling : Bool
  osd : List OsdData
  shown : Int → Option Overlay

def noCommand : Command := ⟨0, 0, 0, 0, 0, none, 0, none, 0, 0⟩

/-- `init_osd_manager` -/
def initOsdManager : OsdManager where
  video := ⟨720, 576⟩
  window := ⟨0, 0⟩
  voScaling := false
  osd := List.replicate maxOsdObject ⟨-1, noCommand, ⟨0, 0⟩, 0, 0, ⟨0, 0⟩⟩
  shown := fun _ => none

/-- `extent_width ?: 720`, `extent_height ?: 576` -/
def Extent.orDefault (extent : Extent) : Extent where
  width := if extent.width = 0 then 720 else extent.width
  height := if extent.height = 0 then 576 else extent.height

namespace OsdManager

variable (manager : OverlayManager) (out : Output) (this : OsdManager)

def opened (osd : OsdData) : OsdData :=
  if osd.handle < 0 then
    { osd with
      handle := manager.getHandle (this.osd.map OsdData.handle)
      extent := osd.extent.orDefault }
  else osd

/-- `exec_osd_set_rle`, with the size that the output's window has. -/
def execOsdSetRle (queried : Extent) (wnd : Nat) (osd : OsdData) (cmd : Command) :
    Except Fault OsdManager := do
  let osd := opened manager this osd
  let window := if queriesWindow out cmd.flags then queried else this.window
  let (overlay, kept) ← draw out osd.extent this.video window cmd
  .ok { this with
    window
    voScaling := out.osdScaling
    osd := this.osd.set wnd { osd with cmd := kept }
    shown := Function.update this.shown osd.handle (some overlay) }

/-- `exec_osd_size` -/
def execOsdSize (wnd : Nat) (osd : OsdData) (w h : Nat) : OsdManager :=
  { this with
    voScaling := out.osdScaling
    osd := this.osd.set wnd { osd with extent := ⟨w, h⟩, videoWindow := (0, 0, ⟨0, 0⟩) } }

/-- `exec_osd_video_window` -/
def execOsdVideoWindow (wnd : Nat) (osd : OsdData) (x y w h : Nat) : OsdManager :=
  { this with osd := this.osd.set wnd { osd with videoWindow := (x, y, ⟨w, h⟩) } }

/-- `exec_osd_close` -/
def execOsdClose (wnd : Nat) (osd : OsdData) (flags : UInt8) : OsdManager :=
  if hasFlag refresh flags then this
  else if osd.handle < 0 then this
  else
    { this with
      osd := this.osd.set wnd { osd with
        handle := -1
        cmd := { osd.cmd with data := none, palette := none }
        extent := ⟨720, 576⟩ }
      shown := Function.update this.shown osd.handle none }

def redraw (queried : Extent) (wnd : Nat) : Except Fault OsdManager :=
  match this.osd[wnd]? with
  | none => .ok this
  | some osd =>
      if 0 ≤ osd.handle ∧ osd.cmd.data ≠ none ∧ 0 < osd.cmd.scaling then
        execOsdSetRle manager out this queried wnd { osd with cmd := noCommand } osd.cmd
      else .ok this

/-- `video_size_changed` -/
def videoSizeChanged (queried : Extent) (width height : Int) : Except Fault OsdManager :=
  if width < 1 ∨ height < 1 then .ok this
  else if this.video.width = width ∧ this.video.height = height then .ok this
  else
    let resized := { this with video := ⟨(width % 2 ^ 16).toNat, (height % 2 ^ 16).toNat⟩ }
    if resized.voScaling then .ok resized
    else (List.range maxOsdObject).foldlM
      (fun this wnd => redraw manager out this queried wnd) resized

end OsdManager
end Xineliboutput.Osd.Rle
