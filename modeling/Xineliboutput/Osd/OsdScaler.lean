import Xineliboutput.Foundation.Ledger
import Xineliboutput.Foundation.Machine
import Xineliboutput.Osd.OsdReorder
import Xineliboutput.Osd.ScaleNearest

/-!
# Overlays scaled for the output

`vo_osdscaler.c`. A scaled copy of every overlay is kept until the overlays change. The blocks
of memory that are allocated and freed for the copies are counted in a ledger.
-/

namespace Xineliboutput.Osd

open Xineliboutput.Foundation

set_option autoImplicit false

/-- `vdr_osd_extradata_t` -/
structure VdrOsdExtradata where
  extentWidth : UInt16
  extentHeight : UInt16
  scaling : UInt8
  deriving DecidableEq

/-- `vo_overlay_t`, as far as it is read or changed. -/
structure VoOverlay where
  /-- `none` is a null pointer. -/
  rle : Option (List RleElem)
  x : Int
  y : Int
  width : Int
  height : Int
  videoWindowX : Int
  videoWindowY : Int
  videoWindowWidth : Int
  videoWindowHeight : Int
  extentWidth : Int
  extentHeight : Int
  unscaled : Bool
  /-- `argb_layer` is not a null pointer. -/
  argbLayer : Bool
  hiliRgbClut : Int
  /-- What `hili_color` holds. -/
  extra : VdrOsdExtradata
  deriving DecidableEq

structure VoFrame where
  width : Int
  height : Int
  cropTop : Int
  cropBottom : Int
  cropLeft : Int
  cropRight : Int

/-- The blocks of memory of the `number`th copy. -/
inductive ScalerBlock where
  /-- from `calloc` of `osd_data_init` -/
  | data (number : Nat)
  /-- from `malloc` of `rle_scale_nearest`, also where `realloc` moved it -/
  | rle (number : Nat)
  deriving DecidableEq

def ScalerBlock.number : ScalerBlock → Nat
  | .data number => number
  | .rle number => number

/-- `osd_data_t`. The list `active_osds` is a list of them in place of their `next`. -/
structure ScalerOsdData where
  number : Nat
  /-- the address of the original -/
  source : Nat
  scaled : Bool
  ovl : VoOverlay
  outputWidth : UInt16
  outputHeight : UInt16
  deriving DecidableEq

def ScalerOsdData.blocks (data : ScalerOsdData) : List ScalerBlock :=
  [.rle data.number, .data data.number]

/-! ## The list of copies -/

/-- `osd_data_dispose`: what is freed. -/
def osdDataDispose (data : ScalerOsdData) : List ScalerBlock :=
  if data.scaled then [.rle data.number, .data data.number] else [.data data.number]

/-- `osd_data_clear` -/
def osdDataClear : List ScalerOsdData → List ScalerBlock
  | [] => []
  | data :: next => osdDataDispose data ++ osdDataClear next

/-- `osd_data_remove`: the list and what is freed. -/
def osdDataRemove (number : Nat) : List ScalerOsdData → List ScalerOsdData × List ScalerBlock
  | [] => ([], [])
  | data :: next =>
      if data.number = number then (next, [.data number])
      else (data :: (osdDataRemove number next).1, (osdDataRemove number next).2)

/-- `(x * factor) >> 16` with an unsigned factor -/
def scalePosition (factor : UInt32) (x : Int) : Int := ((UInt32.ofInt x * factor) >>> 16).toNat

/-- The copy that `osd_data_init` makes. Its elements are `none` where `rle_scale_nearest` reads
more of them than there are. -/
def scaledOverlay (ovl : VoOverlay) (factorX factorY : UInt32) : VoOverlay :=
  let x2 := scalePosition factorX (ovl.x + ovl.width + 1 + 1)
  let y2 := scalePosition factorY (ovl.y + ovl.height + 1 + 1)
  let x := scalePosition factorX ovl.x
  let y := scalePosition factorY ovl.y
  let width := x2 - x - 1
  let height := y2 - y - 1
  let rle := ovl.rle.bind fun elements =>
    rleScaleNearest elements (UInt32.ofInt ovl.width).toNat (UInt32.ofInt ovl.height).toNat
      (UInt32.ofInt width).toNat (UInt32.ofInt height).toNat
  let copy := { ovl with x, y, width, height, rle }
  if 0 ≤ ovl.videoWindowX ∧ 0 ≤ ovl.videoWindowY ∧ 0 < ovl.videoWindowWidth ∧
      0 < ovl.videoWindowHeight then
    { copy with
      videoWindowX := scalePosition factorX ovl.videoWindowX
      videoWindowY := scalePosition factorY ovl.videoWindowY
      videoWindowWidth := scalePosition factorX ovl.videoWindowWidth
      videoWindowHeight := scalePosition factorY ovl.videoWindowHeight }
  else copy

/-- `osd_data_init` -/
def osdDataInit (number source : Nat) (ovl : VoOverlay) (factorX factorY : UInt32) :
    ScalerOsdData where
  number
  source
  scaled := true
  ovl := scaledOverlay ovl factorX factorY
  outputWidth := 0
  outputHeight := 0

/-! ## The hook -/

/-- `osdscaler_hook_t` with the memory it has taken. -/
structure ScalerHook where
  enable : Bool
  unscaledSupported : Bool
  customExtentSupported : Bool
  outputWidth : UInt16
  outputHeight : UInt16
  factorX : UInt32
  factorY : UInt32
  xMove : UInt16
  yMove : UInt16
  activeOsds : List ScalerOsdData
  heap : Ledger ScalerBlock
  /-- how many copies have been made -/
  copies : Nat

/-- `osdscaler_init` -/
def osdscalerInit : ScalerHook where
  enable := false
  unscaledSupported := false
  customExtentSupported := false
  outputWidth := 0
  outputHeight := 0
  factorX := 0
  factorY := 0
  xMove := 0
  yMove := 0
  activeOsds := []
  heap := ⟨[], []⟩
  copies := 0

/-- `osdscaler_overlay_begin` with two of the driver's capabilities. -/
def osdscalerOverlayBegin (hook : ScalerHook) (changed unscaledOverlay customExtent : Bool) :
    ScalerHook :=
  if changed then
    { hook with
      heap := hook.heap.giveBack (osdDataClear hook.activeOsds)
      activeOsds := []
      unscaledSupported := unscaledOverlay
      customExtentSupported := customExtent }
  else hook

/-- `if (crop > 0) size -= crop` -/
def cropped (size : UInt16) (crop : Int) : UInt16 :=
  if 0 < crop then size - UInt16.ofInt crop else size

/-- The output size that `check_for_scaling` detects. `window` is what the driver says of its
window. -/
def detectOutputSize (unscaledSupported : Bool) (frame : VoFrame) (window : Int × Int)
    (overlay : VoOverlay) : UInt16 × UInt16 :=
  if overlay.unscaled && unscaledSupported then (UInt16.ofInt window.1, UInt16.ofInt window.2)
  else
    (cropped (cropped (UInt16.ofInt frame.width) frame.cropLeft) frame.cropRight,
      cropped (cropped (UInt16.ofInt frame.height) frame.cropTop) frame.cropBottom)

/-- `ABS(output - extent) > extent/20` -/
def farFrom (output extent : UInt16) : Bool :=
  (extent.toNat : Int).tdiv 20 < |(output.toNat : Int) - extent.toNat|

/-- `0x10000 * output / extent` -/
def outputFactor (output extent : UInt16) : UInt32 :=
  UInt32.ofInt ((intOfUnsigned (0x10000 * output.toNat)).tdiv extent.toNat)

/-- `(output - extent)/2` -/
def centered (output extent : UInt16) : UInt16 :=
  UInt16.ofInt (((output.toNat : Int) - extent.toNat).tdiv 2)

def VoOverlay.withExtent (overlay : VoOverlay) (extentWidth extentHeight : Int) : VoOverlay :=
  { overlay with extentWidth, extentHeight }

namespace ScalerHook

def withMove (hook : ScalerHook) (xMove yMove : UInt16) : ScalerHook := { hook with xMove, yMove }

def withOutput (hook : ScalerHook) (size : UInt16 × UInt16) : ScalerHook :=
  { hook with outputWidth := size.1, outputHeight := size.2 }

def withFactors (hook : ScalerHook) (factorX factorY : UInt32) : ScalerHook :=
  { hook with factorX, factorY }

end ScalerHook

/-- The end of `check_for_scaling`, where the output size is known. -/
def checkOutput (hook : ScalerHook) (overlay : VoOverlay) : Bool × ScalerHook × VoOverlay :=
  let data := overlay.extra
  if hook.outputWidth < 128 ∨ hook.outputHeight < 128 then (false, hook, overlay)
  else if farFrom hook.outputWidth data.extentWidth ∨
      farFrom hook.outputHeight data.extentHeight then
    (true, hook.withFactors (outputFactor hook.outputWidth data.extentWidth)
      (outputFactor hook.outputHeight data.extentHeight), overlay)
  else
    (false, hook.withMove
      (if hook.outputWidth ≠ data.extentWidth then
        centered hook.outputWidth data.extentWidth else hook.xMove)
      (if hook.outputHeight ≠ data.extentHeight then
        centered hook.outputHeight data.extentHeight else hook.yMove), overlay)

/-- `check_for_scaling`: the answer, and the hook and the overlay with what it stores there. -/
def checkForScaling (hook : ScalerHook) (frame : VoFrame) (window : Int × Int)
    (overlay : VoOverlay) : Bool × ScalerHook × VoOverlay :=
  if !hook.enable then (false, hook.withMove 0 0, overlay)
  else if overlay.rle.isNone then (false, hook.withMove 0 0, overlay)
  else if overlay.argbLayer then (false, hook.withMove 0 0, overlay)
  else if overlay.hiliRgbClut ≠ vdrOsdMagic then (false, hook.withMove 0 0, overlay)
  else if overlay.extra.scaling < 1 then (false, hook.withMove 0 0, overlay)
  else if hook.customExtentSupported then
    (false, hook.withMove 0 0,
      overlay.withExtent overlay.extra.extentWidth.toNat overlay.extra.extentHeight.toNat)
  else if overlay.extra.extentWidth < 128 ∨ overlay.extra.extentHeight < 128 then
    (false, hook.withMove 0 0, overlay.withExtent 0 0)
  else
    checkOutput ((hook.withMove 0 0).withOutput
      (detectOutputSize hook.unscaledSupported frame window overlay)) (overlay.withExtent 0 0)

inductive Handed where
  | original (overlay : VoOverlay)
  /-- `&scaled->ovl` -/
  | scaled (data : ScalerOsdData)
  deriving DecidableEq

/-- The copy of the overlay, if there is one of the right size. One of another size is
removed. -/
def findScaled (hook : ScalerHook) (source : Nat) : Option ScalerOsdData × ScalerHook :=
  match hook.activeOsds.find? fun data => data.source = source with
  | none => (none, hook)
  | some scaled =>
      if scaled.outputWidth ≠ hook.outputWidth ∨ scaled.outputHeight ≠ hook.outputHeight then
        let removed := osdDataRemove scaled.number hook.activeOsds
        (none, { hook with activeOsds := removed.1, heap := hook.heap.giveBack removed.2 })
      else (some scaled, hook)

def addScaled (hook : ScalerHook) (source : Nat) (overlay : VoOverlay) :
    ScalerOsdData × ScalerHook :=
  let scaled := { osdDataInit hook.copies source overlay hook.factorX hook.factorY with
    outputWidth := hook.outputWidth
    outputHeight := hook.outputHeight }
  (scaled, { hook with
    activeOsds := scaled :: hook.activeOsds
    heap := hook.heap.take scaled.blocks
    copies := hook.copies + 1 })

/-- `scale_overlay` -/
def scaleOverlay (hook : ScalerHook) (frame : VoFrame) (window : Int × Int) (source : Nat)
    (overlay : VoOverlay) : Handed × ScalerHook :=
  match checkForScaling hook frame window overlay with
  | (false, hook, overlay) => (.original overlay, hook)
  | (true, hook, overlay) =>
      match findScaled hook source with
      | (some scaled, hook) => (.scaled scaled, hook)
      | (none, hook) =>
          let added := addScaled hook source overlay
          (.scaled added.1, added.2)

/-- `osdscaler_set_property` for `VO_PROP_OSD_SCALING` -/
def osdscalerSetProperty (hook : ScalerHook) (val : Int) : ScalerHook :=
  if (if hook.enable then 1 else 0) ≠ val then { hook with enable := val ≠ 0 } else hook

/-- `osdscaler_dispose`: the memory in the end. -/
def osdscalerDispose (hook : ScalerHook) : Ledger ScalerBlock :=
  hook.heap.giveBack (osdDataClear hook.activeOsds)

inductive ScalerCall where
  | overlayBegin (changed unscaledOverlay customExtent : Bool)
  | overlayBlend (frame : VoFrame) (window : Int × Int) (source : Nat) (overlay : VoOverlay)
  | setProperty (val : Int)

def scalerCall (hook : ScalerHook) : ScalerCall → ScalerHook
  | .overlayBegin changed unscaledOverlay customExtent =>
      osdscalerOverlayBegin hook changed unscaledOverlay customExtent
  | .overlayBlend frame window source overlay => (scaleOverlay hook frame window source overlay).2
  | .setProperty val => osdscalerSetProperty hook val

def scalerCalls (calls : List ScalerCall) : ScalerHook := calls.foldl scalerCall osdscalerInit

end Xineliboutput.Osd
