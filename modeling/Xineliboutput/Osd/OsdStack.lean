import Xineliboutput.Osd.SetRle

/-!
# The stack of OSDs

`cXinelibOsd` and `cXinelibOsdProvider` of `osd.c` with the OSD mixer off: which object is
visible, what it tells the device and what it draws from. Every operation holds `m_Lock`.
VDR's `cOsd`, `cBitmap` and `cPixmap` are kept as far as they are read here; what they
promise is said at the end, where the operations become steps.
-/

namespace Xineliboutput.Osd.Stack

open Xineliboutput.Foundation
open Xineliboutput.Osd.Rle

set_option autoImplicit false

/-! ## What is drawn on -/

structure Region where
  left : Int
  top : Int
  width : Nat
  height : Nat
  deriving DecidableEq

def Region.Has (region : Region) (x y : Int) : Prop :=
  (region.left ≤ x ∧ x < region.left + region.width) ∧
    region.top ≤ y ∧ y < region.top + region.height

instance (region : Region) (x y : Int) : Decidable (region.Has x y) :=
  inferInstanceAs (Decidable ((_ ∧ _) ∧ _ ∧ _))

/-- `cBitmap`, with the part that `Dirty` reports. -/
structure Bitmap where
  x0 : Int
  y0 : Int
  width : Nat
  height : Nat
  data : Nat → Nat → UInt8
  colors : List UInt32
  dirty : Option Region

def Bitmap.color (bitmap : Bitmap) (column row : Nat) : Option UInt32 :=
  bitmap.colors[(bitmap.data column row).toNat]?

def Bitmap.clean (bitmap : Bitmap) : Bitmap := { bitmap with dirty := none }

/-- The pixmaps of a true-colour OSD, one above the other, and what `RenderPixmaps` has
still to return. -/
structure Surface where
  area : Region
  pixel : Int → Int → UInt32
  dirty : List Region

def Surface.Dirty (surface : Surface) (x y : Int) : Prop :=
  ∃ region ∈ surface.dirty, region.Has x y

inductive Content where
  | bitmaps (list : List Bitmap)
  | pixmaps (surface : Surface)

def Content.windows : Content → Nat
  | .bitmaps list => list.length
  | .pixmaps _ => 1

/-! ## Commands -/

/-- The fields of `xc` that are read. -/
structure Setting where
  alphaCorrection : Int
  alphaCorrectionAbs : Int
  osdSpuScaling : Bool

/-- What the device answers during an operation. -/
structure Answers where
  videoWindow : Option Region
  osdSize : Nat × Nat

/-- One entry in `prepare_palette`, for `rgb` and without the mixer. -/
def prepareColor (setting : Setting) (color : UInt32) : Clut :=
  let alpha : Int := ((color &&& 0xff000000) >>> 24).toNat
  { y := ((color &&& 0x00ff0000) >>> 16).toUInt8
    cb := ((color &&& 0x0000ff00) >>> 8).toUInt8
    cr := (color &&& 0x000000ff).toUInt8
    alpha := saturate
      (alpha + (setting.alphaCorrection * alpha).tdiv 100 + setting.alphaCorrectionAbs) 0 255 }

def preparePalette (setting : Setting) (palette : List UInt32) : List Clut :=
  palette.map (prepareColor setting)

/-- `OSD_Set_LUT8` -/
structure Lut8 where
  layer : Nat
  x : Int
  y : Int
  w : Nat
  h : Nat
  data : Nat → Nat → UInt8
  palette : List Clut
  dirtyArea : Region
  refresh : Bool

/-- `OSD_Set_ARGB` -/
structure Argb where
  layer : Nat
  x : Int
  y : Int
  w : Nat
  h : Nat
  data : Nat → Nat → UInt32
  refresh : Bool

/-- A window of `none` was read where there is no array, or behind it. -/
inductive OsdMessage where
  | window (command : WindowCommand)
  | videoWindow (wnd : Int) (place : Region)
  | setLut8 (wnd : Option Int) (picture : Lut8)
  | setArgb (wnd : Option Int) (picture : Argb)

/-- `saturate(m_Layer, 0, 0xffff)` -/
def layerField (layer : Nat) : Nat := (max 0 (min (intOfUnsigned layer) 0xffff)).toNat

/-! ## Objects -/

/-- `cXinelibOsd`. What `CreateOsd` counts in `serial` is not in the source. -/
structure XinelibOsd where
  window : WindowOsd
  left : Int
  top : Int
  content : Content
  serial : Nat

namespace XinelibOsd

def new (left top : Int) (level serial : Nat) : XinelibOsd where
  window := .new true level
  left := left
  top := top
  content := .bitmaps []
  serial := serial

def handles (this : XinelibOsd) : List Int := this.window.windowHandles.elim [] listed

/-- `m_WindowHandles[Wnd]` -/
def handleAt (this : XinelibOsd) (wnd : Nat) : Option Int :=
  this.window.windowHandles.bind fun array => array[wnd]?

def closeWindows (this : XinelibOsd) : List OsdMessage := this.window.closeWindows.map .window

def cmdSize (this : XinelibOsd) (width height : Nat) : List OsdMessage :=
  (this.window.cmdSize width height).map .window

def cmdVideoWindow (this : XinelibOsd) (place : Region) : List OsdMessage :=
  match this.window.windowHandles with
  | none => []
  | some array =>
      if this.window.device then (listed array).map fun wnd => .videoWindow wnd place else []

def cmdArgb (this : XinelibOsd) (x y : Int) (w h : Nat) (data : Nat → Nat → UInt32) :
    List OsdMessage :=
  if this.window.device then
    [.setArgb (this.handleAt 0)
      { layer := layerField this.window.layer, x := x, y := y, w := w, h := h, data := data
        refresh := this.window.refresh }]
  else []

def cmdLut8 (setting : Setting) (this : XinelibOsd) (wnd : Nat) (x0 y0 : Int) (w h : Nat)
    (data : Nat → Nat → UInt8) (colors : List UInt32) (dirtyArea : Region) : List OsdMessage :=
  if this.window.device then
    [.setLut8 (this.handleAt wnd)
      { layer := layerField this.window.layer, x := x0, y := y0, w := w, h := h, data := data
        palette := preparePalette setting colors, dirtyArea := dirtyArea
        refresh := this.window.refresh }]
  else []

/-- `XOffset` and `YOffset` -/
def offset (setting : Setting) (answers : Answers) (this : XinelibOsd) : Int × Int :=
  if setting.osdSpuScaling = false ∧ this.window.layer = osdLevelTtxtsubs then
    (((answers.osdSize.1 : Int) - 720).tdiv 2, max ((answers.osdSize.2 : Int) - 576) 0)
  else (0, 0)

/-- `m_Refresh || Bitmap->Dirty(x1, y1, x2, y2)` -/
def Redraws (this : XinelibOsd) (bitmap : Bitmap) : Prop :=
  this.window.refresh = true ∨ bitmap.dirty.isSome = true

instance (this : XinelibOsd) (bitmap : Bitmap) : Decidable (this.Redraws bitmap) :=
  inferInstanceAs (Decidable (_ ∨ _))

/-- `x1`, `y1`, `x2` and `y2`: `Dirty` is not asked during a refresh. -/
def dirtyArea (this : XinelibOsd) (bitmap : Bitmap) : Region :=
  let whole : Region := ⟨0, 0, bitmap.width, bitmap.height⟩
  if this.window.refresh then whole else bitmap.dirty.getD whole

def flushBitmap (setting : Setting) (shift : Int × Int) (this : XinelibOsd) (i : Nat)
    (bitmap : Bitmap) : List OsdMessage :=
  if this.Redraws bitmap then
    match bitmap.colors with
    | [] => []
    | _ :: _ =>
        this.cmdLut8 setting i (this.left + bitmap.x0 + shift.1) (this.top + bitmap.y0 + shift.2)
          bitmap.width bitmap.height bitmap.data bitmap.colors (this.dirtyArea bitmap)
  else []

def flushBitmaps (setting : Setting) (shift : Int × Int) (this : XinelibOsd) :
    Nat → List Bitmap → List OsdMessage
  | _, [] => []
  | i, bitmap :: rest =>
      this.flushBitmap setting shift i bitmap ++ this.flushBitmaps setting shift (i + 1) rest

/-- The loop over `RenderPixmaps`. -/
def flushPixmaps (this : XinelibOsd) (pixel : Int → Int → UInt32) (dirty : List Region) :
    List OsdMessage :=
  dirty.flatMap fun viewPort =>
    this.cmdArgb (this.left + viewPort.left) (this.top + viewPort.top) viewPort.width
      viewPort.height fun column row => pixel (viewPort.left + column) (viewPort.top + row)

def flush (setting : Setting) (answers : Answers) (this : XinelibOsd) :
    XinelibOsd × List OsdMessage :=
  if this.window.isVisible = false then (this, [])
  else
    let placed := answers.videoWindow.elim [] this.cmdVideoWindow
    match this.content with
    | .pixmaps surface =>
        ({ this with content := .pixmaps { surface with dirty := [] } },
          placed ++ this.flushPixmaps surface.pixel surface.dirty)
    | .bitmaps list =>
        ({ this with content := .bitmaps (list.map Bitmap.clean) },
          placed ++ this.flushBitmaps setting (this.offset setting answers) 0 list)

def withRefresh (this : XinelibOsd) (refresh : Bool) : XinelibOsd :=
  { this with window := { this.window with refresh := refresh } }

def withVisible (this : XinelibOsd) (isVisible : Bool) : XinelibOsd :=
  { this with window := { this.window with isVisible := isVisible } }

def refresh (setting : Setting) (answers : Answers) (this : XinelibOsd) :
    XinelibOsd × List OsdMessage :=
  let this := this.withRefresh true
  let cleared := this.closeWindows ++ this.cmdSize this.window.extentWidth this.window.extentHeight
  let (this, drawn) := this.flush setting answers
  (this.withRefresh false, cleared ++ drawn)

def show' (setting : Setting) (answers : Answers) (this : XinelibOsd) :
    XinelibOsd × List OsdMessage :=
  (this.withVisible true).refresh setting answers

def hide (this : XinelibOsd) : XinelibOsd × List OsdMessage :=
  (this.withVisible false, this.closeWindows)

end XinelibOsd

/-! ## The provider -/

/-- `eOsdError` -/
inductive OsdError where
  | ok
  | tooManyAreas
  | tooManyColors
  | bppNotSupported
  | areasOverlap
  | wrongAlignment
  | outOfMemory
  | wrongAreaSize
  | unknown
  deriving DecidableEq

/-- `tArea` -/
structure TArea where
  x1 : Int
  y1 : Int
  x2 : Int
  y2 : Int
  bpp : Nat

/-- `NumAreas == 1 && Areas[0].bpp == 32` -/
def trueColor : List TArea → Bool
  | [area] => area.bpp == 32
  | _ => false

/-- `windows` after the search for free window handles. -/
def windowsMissing (bitmap : BitVec 64) : List Nat → Nat → Nat
  | _, 0 => 0
  | [], windows => windows
  | index :: rest, windows + 1 =>
      windowsMissing bitmap rest
        (if bitmap &&& handleBit index = 0 then windows else windows + 1)

/-- `CanHandleAreas`, after the answer of `cOsd::CanHandleAreas`. -/
def canHandleAreas (bitmap : BitVec 64) (supportsTrueColor : Bool) (answer : OsdError)
    (areas : List TArea) : OsdError :=
  if answer ≠ .ok then answer
  else if maxOsdObject < areas.length then .tooManyAreas
  else if trueColor areas = true ∧ supportsTrueColor = false then .bppNotSupported
  else if trueColor areas = false ∧ ∃ area ∈ areas, area.bpp < 1 ∨ 8 < area.bpp then
    .bppNotSupported
  else if 0 < windowsMissing bitmap (List.range maxOsdObject) areas.length then .tooManyAreas
  else .ok

/-- What was sent to the device, with the handles that the sender owned then. -/
structure Sent where
  handles : List Int
  message : OsdMessage

/-- All objects by their address, `m_OsdStack` and the calls of `CreateOsd` so far. -/
structure Provider where
  handlesBitmap : BitVec 64
  objects : Nat → Option XinelibOsd
  osdStack : List Nat
  created : Nat
  sent : List Sent

namespace Provider

def init : Provider := ⟨0, fun _ => none, [], 0, []⟩

def put (provider : Provider) (address : Nat) (this : XinelibOsd) : Provider :=
  { provider with objects := Function.update provider.objects address (some this) }

def send (provider : Provider) (this : XinelibOsd) (messages : List OsdMessage) : Provider :=
  { provider with sent := provider.sent ++ messages.map fun message => ⟨this.handles, message⟩ }

def tell (provider : Provider) (address : Nat)
    (message : XinelibOsd → XinelibOsd × List OsdMessage) : Provider :=
  match provider.objects address with
  | none => provider
  | some this => (provider.send this (message this).2).put address (message this).1

def tellAll (provider : Provider) (addresses : List Nat)
    (message : XinelibOsd → XinelibOsd × List OsdMessage) : Provider :=
  addresses.foldl (fun provider address => provider.tell address message) provider

def levelOf (provider : Provider) (address : Nat) : Nat :=
  (provider.objects address).elim 0 fun this => this.window.layer

/-- The sorted insert of `CreateOsd`. -/
def insertSorted (provider : Provider) (address level : Nat) : List Nat → List Nat
  | [] => [address]
  | it :: rest =>
      if level ≤ provider.levelOf it then address :: it :: rest
      else it :: insertSorted provider address level rest

/-- `CreateOsd`: all but the first are hidden, from the last on. -/
def createOsd (setting : Setting) (answers : Answers) (provider : Provider) (address : Nat)
    (left top : Int) (level : Nat) : Option Provider :=
  match provider.objects address with
  | some _ => none
  | none =>
      let osdStack := provider.insertSorted address level provider.osdStack
      let provider := { provider.put address (.new left top level provider.created) with
        osdStack := osdStack
        created := provider.created + 1 }
      let provider := provider.tellAll osdStack.tail.reverse XinelibOsd.hide
      some (provider.tellAll (osdStack.take 1) (XinelibOsd.show' setting answers))

/-- `SetAreas`; `content` is what `cOsd::SetAreas` makes of the areas. -/
def setAreas (setting : Setting) (answers : Answers) (provider : Provider) (address : Nat)
    (supportsTrueColor : Bool) (answer : OsdError) (areas : List TArea) (content : Content)
    (fresh : Nat → Int) : Option Provider :=
  match provider.objects address with
  | none => none
  | some this =>
      let provider := provider.send this this.closeWindows
      let bitmap := freeWindowHandles provider.handlesBitmap this.window.windowHandles
      let this := { this with window := { this.window with windowHandles := none } }
      if canHandleAreas bitmap supportsTrueColor answer areas ≠ .ok then
        some { provider.put address this with handlesBitmap := bitmap }
      else
        let this := { this with content := content }
        let (bitmap, array, result) := allocWindowHandles bitmap none areas.length fresh
        if result = 0 then
          some { provider.put address this with
            handlesBitmap := freeWindowHandles bitmap (some array) }
        else
          let (width, height) :=
            if setting.osdSpuScaling = true ∧ this.window.layer = osdLevelTtxtsubs then (720, 576)
            else answers.osdSize
          let this := { this with window := { this.window with
            windowHandles := some array, extentWidth := width, extentHeight := height } }
          some { (provider.send this (this.cmdSize width height)).put address this with
            handlesBitmap := bitmap }

def draw (provider : Provider) (address : Nat) (content : Content) : Option Provider :=
  (provider.objects address).map fun this => provider.put address { this with content := content }

/-- `~cXinelibOsd` -/
def destroy (setting : Setting) (answers : Answers) (provider : Provider) (address : Nat) :
    Option Provider :=
  match provider.objects address with
  | none => none
  | some this =>
      let osdStack := provider.osdStack.erase address
      let provider := { provider.send this this.closeWindows with
        handlesBitmap := freeWindowHandles provider.handlesBitmap this.window.windowHandles
        objects := Function.update provider.objects address none
        osdStack := osdStack }
      some (provider.tellAll (osdStack.take 1) (XinelibOsd.show' setting answers))

inductive Operation where
  | createOsd (address : Nat) (left top : Int) (level : Nat)
  | setAreas (address : Nat) (supportsTrueColor : Bool) (answer : OsdError) (areas : List TArea)
      (content : Content) (fresh : Nat → Int)
  | draw (address : Nat) (content : Content)
  | flush (address : Nat)
  | refreshOsd
  | destroy (address : Nat)

/-- `none` is a call on an object that does not exist. -/
def perform (setting : Setting) (answers : Answers) (provider : Provider) :
    Operation → Option Provider
  | .createOsd address left top level => provider.createOsd setting answers address left top level
  | .setAreas address supportsTrueColor answer areas content fresh =>
      provider.setAreas setting answers address supportsTrueColor answer areas content fresh
  | .draw address content => provider.draw address content
  | .flush address =>
      (provider.objects address).map fun _ =>
        provider.tell address (XinelibOsd.flush setting answers)
  | .refreshOsd =>
      some (provider.tellAll provider.osdStack.reverse (XinelibOsd.refresh setting answers))
  | .destroy address => provider.destroy setting answers address

end Provider

/-! ## What VDR promises -/

/-- What `cOsd::SetAreas` leaves behind: nothing of it has been flushed or rendered. -/
def NewContent (areas : List TArea) : Content → Prop
  | .bitmaps list =>
      trueColor areas = false ∧ list.length = areas.length ∧
        ∀ bitmap ∈ list, bitmap.colors ≠ [] ∧ bitmap.dirty.isSome = true
  | .pixmaps surface =>
      trueColor areas = true ∧ ∀ x y, surface.area.Has x y → surface.Dirty x y

/-- Drawing on a bitmap: it keeps its size, and what gets another color is dirty. -/
structure Bitmap.DrawnTo (bitmap next : Bitmap) : Prop where
  place : next.x0 = bitmap.x0 ∧ next.y0 = bitmap.y0
  width : next.width = bitmap.width
  height : next.height = bitmap.height
  colored : next.colors ≠ []
  dirty : bitmap.dirty.isSome = true → next.dirty.isSome = true
  color : next.dirty.isSome = false → ∀ column < bitmap.width, ∀ row < bitmap.height,
    next.color column row = bitmap.color column row

structure Surface.DrawnTo (surface next : Surface) : Prop where
  area : next.area = surface.area
  dirty : ∀ x y, surface.Dirty x y → next.Dirty x y
  pixel : ∀ x y, next.pixel x y = surface.pixel x y ∨ next.Dirty x y

def Content.DrawnTo : Content → Content → Prop
  | .bitmaps list, .bitmaps next => List.Forall₂ Bitmap.DrawnTo list next
  | .pixmaps surface, .pixmaps next => surface.DrawnTo next
  | .bitmaps _, .pixmaps _ => False
  | .pixmaps _, .bitmaps _ => False

def Provider.Promised (provider : Provider) : Provider.Operation → Prop
  | .setAreas _ _ _ areas content _ => NewContent areas content
  | .draw address content =>
      ∀ this, provider.objects address = some this → this.content.DrawnTo content
  | .createOsd _ _ _ _ | .flush _ | .refreshOsd | .destroy _ => True

def machine (setting : Setting) : Machine Provider (Provider.Operation × Answers) where
  initial provider := provider = .init
  step provider call next :=
    provider.Promised call.1 ∧ provider.perform setting call.2 call.1 = some next

/-! ## What the client shows -/

inductive Window where
  | lut8 (picture : Lut8)
  | argb (pixel : Int → Int → Option UInt32)

def Window.painted : Option Window → Int → Int → Option UInt32
  | some (.argb pixel), x, y => pixel x y
  | some (.lut8 _), _, _ => none
  | none, _, _ => none

abbrev Screen : Type := Int → Option Window

def Argb.over (picture : Argb) (below : Int → Int → Option UInt32) (x y : Int) : Option UInt32 :=
  if (⟨picture.x, picture.y, picture.w, picture.h⟩ : Region).Has x y then
    some (picture.data (x - picture.x).toNat (y - picture.y).toNat)
  else below x y

def Screen.receive (screen : Screen) : OsdMessage → Screen
  | .window (.close wnd _) => Function.update screen wnd none
  | .window (.size _ _ _) | .window .flush | .videoWindow _ _ => screen
  | .setLut8 wnd picture =>
      wnd.elim screen fun wnd => Function.update screen wnd (some (.lut8 picture))
  | .setArgb wnd picture =>
      wnd.elim screen fun wnd =>
        Function.update screen wnd (some (.argb (picture.over (Window.painted (screen wnd)))))

def Screen.receiveAll (screen : Screen) (messages : List OsdMessage) : Screen :=
  messages.foldl Screen.receive screen

def Provider.screen (provider : Provider) : Screen :=
  Screen.receiveAll (fun _ => none) (provider.sent.map Sent.message)

end Xineliboutput.Osd.Stack
