import Mathlib.Logic.Function.Basic
import Xineliboutput.Foundation.Machine

/-!
# Windows of OSD objects

`cXinelibOsd` and `cXinelibOsdProvider` of `osd.c` as far as their window handles go:
`m_HandlesBitmap` is shared by all objects, `m_WindowHandles` belongs to one of them.
Every operation holds `m_Lock`. Of the commands to the device those for window sizes and
closed windows are kept; what is painted is left out.
-/

namespace Xineliboutput.Osd

open Xineliboutput.Foundation

set_option autoImplicit false

abbrev maxOsdObject : Nat := 50

abbrev osdLevelTtxtsubs : Nat := 20

/-- The handles an array of window handles lists, up to its terminator. -/
def listed (array : List Int) : List Int := array.takeWhile fun handle => 0 ≤ handle

inductive WindowCommand where
  | size (wnd : Int) (width height : Nat)
  | close (wnd : Int) (refresh : Bool)
  | flush
  deriving DecidableEq

/-- `cXinelibOsd` without its `cOsd`. -/
structure WindowOsd where
  device : Bool
  isVisible : Bool
  refresh : Bool
  layer : Nat
  extentWidth : Nat
  extentHeight : Nat
  windowHandles : Option (List Int)

def WindowOsd.new (device : Bool) (level : Nat) : WindowOsd where
  device := device
  isVisible := true
  refresh := false
  layer := level
  extentWidth := 720
  extentHeight := 576
  windowHandles := none

/-! ## Handles -/

def handleBit (index : Nat) : BitVec 64 := 1#64 <<< index

/-- The loop of `AllocWindowHandles`: the map, the array and `wnd`. -/
structure Alloc where
  bitmap : BitVec 64
  array : List Int
  wnd : Nat

def Alloc.take (alloc : Alloc) (index : Nat) : Alloc :=
  if alloc.bitmap &&& handleBit index = 0 then
    { bitmap := alloc.bitmap ||| handleBit index
      array := alloc.array.set alloc.wnd index
      wnd := alloc.wnd + 1 }
  else alloc

def allocLoop (numWindows : Nat) : List Nat → Alloc → Alloc
  | [], alloc => alloc
  | index :: rest, alloc =>
      let alloc := alloc.take index
      if numWindows ≤ alloc.wnd then alloc else allocLoop numWindows rest alloc

/-- `while(wnd < NumWindows) m_WindowHandles[wnd++] = -1` -/
def padArray (array : List Int) (wnd : Nat) : Nat → List Int
  | 0 => array
  | count + 1 => padArray (array.set wnd (-1)) (wnd + 1) count

/-- The loop of `FreeWindowHandles` over the array, if there is one. -/
def freeWindowHandles (bitmap : BitVec 64) : Option (List Int) → BitVec 64
  | none => bitmap
  | some array =>
      (listed array).foldl (fun bitmap handle => bitmap &&& ~~~handleBit handle.toNat) bitmap

/-- The map, the array and the result; `fresh` is what a new array holds. -/
def allocWindowHandles (bitmap : BitVec 64) (handles : Option (List Int)) (numWindows : Nat)
    (fresh : Nat → Int) : BitVec 64 × List Int × Nat :=
  let alloc := allocLoop numWindows (List.range maxOsdObject)
    ⟨freeWindowHandles bitmap handles, (List.range (numWindows + 1)).map fresh, 0⟩
  let array := alloc.array.set numWindows (-1)
  if alloc.wnd < numWindows then
    (alloc.bitmap, padArray array alloc.wnd (numWindows - alloc.wnd), 0)
  else (alloc.bitmap, array, numWindows)

/-! ## Objects -/

namespace WindowOsd

def cmdSize (this : WindowOsd) (width height : Nat) : List WindowCommand :=
  match this.windowHandles with
  | none => []
  | some array => if this.device then (listed array).map fun wnd => .size wnd width height else []

def closeWindows (this : WindowOsd) : List WindowCommand :=
  match this.windowHandles with
  | none => if this.device ∧ this.refresh = false then [.flush] else []
  | some array =>
      (if this.isVisible ∧ this.device then
        (listed array).map fun wnd => .close wnd this.refresh else []) ++
      if this.device ∧ this.refresh = false then [.flush] else []

/-- `Refresh` up to its `Flush`, which paints. -/
def refreshed (this : WindowOsd) : WindowOsd × List WindowCommand :=
  let this := { this with refresh := true }
  ({ this with refresh := false },
    this.closeWindows ++ this.cmdSize this.extentWidth this.extentHeight)

def show' (this : WindowOsd) : WindowOsd × List WindowCommand :=
  { this with isVisible := true }.refreshed

def hide (this : WindowOsd) : WindowOsd × List WindowCommand :=
  ({ this with isVisible := false }, this.closeWindows)

def detach (this : WindowOsd) : WindowOsd × List WindowCommand :=
  let (this, commands) := this.hide
  ({ this with device := false }, commands)

end WindowOsd

/-! ## The display -/

/-- All objects by their address, and `m_OsdStack`. -/
structure Display where
  handlesBitmap : BitVec 64
  objects : Nat → Option WindowOsd
  osdStack : List Nat
  sent : List WindowCommand

namespace Display

def init : Display := ⟨0, fun _ => none, [], []⟩

def tell (display : Display) (address : Nat) (message : WindowOsd → WindowOsd × List WindowCommand) :
    Display :=
  match display.objects address with
  | none => display
  | some this =>
      { display with
        objects := Function.update display.objects address (some (message this).1)
        sent := display.sent ++ (message this).2 }

def tellAll (display : Display) (addresses : List Nat)
    (message : WindowOsd → WindowOsd × List WindowCommand) : Display :=
  addresses.foldl (fun display address => display.tell address message) display

/-- The place of a new object in the stack: before the first of its level or above. -/
def insertSorted (display : Display) (address level : Nat) : List Nat :=
  let below := display.osdStack.takeWhile fun other =>
    decide (((display.objects other).elim 0 WindowOsd.layer) < level)
  below ++ address :: display.osdStack.drop below.length

/-- `CreateOsd`: the objects below the first are hidden, or shown again where the mixer is on. -/
def createOsd (display : Display) (address level : Nat) (mixer : Bool) : Option Display :=
  match display.objects address with
  | some _ => none
  | none =>
      let osdStack := display.insertSorted address level
      let display := { display with
        objects := Function.update display.objects address (some (.new true level))
        osdStack := osdStack }
      let display := display.tellAll osdStack.tail.reverse
        (if mixer then WindowOsd.show' else WindowOsd.hide)
      some (display.tellAll (osdStack.take 1) WindowOsd.show')

/-- `SetAreas`, with the answer of `cOsd::SetAreas` and the size of the device. `none` is a
call on an object that does not exist or the use of a device that is gone. -/
def setAreas (display : Display) (address : Nat) (ok : Bool) (numAreas : Nat) (fresh : Nat → Int)
    (osdSpuScaling : Bool) (osdSize : Nat × Nat) : Option Display :=
  match display.objects address with
  | none => none
  | some this =>
      let sent := display.sent ++ this.closeWindows
      let bitmap := freeWindowHandles display.handlesBitmap this.windowHandles
      let this := { this with windowHandles := none }
      if ok = false then
        some { display with
          handlesBitmap := bitmap
          objects := Function.update display.objects address (some this)
          sent := sent }
      else
        let (bitmap, array, result) := allocWindowHandles bitmap none numAreas fresh
        if result = 0 then
          some { display with
            handlesBitmap := freeWindowHandles bitmap (some array)
            objects := Function.update display.objects address (some this)
            sent := sent }
        else
          let scaled := osdSpuScaling && this.layer == osdLevelTtxtsubs
          if scaled = false ∧ this.device = false then none
          else
            let (width, height) := if scaled then (720, 576) else osdSize
            let this := { this with
              windowHandles := some array, extentWidth := width, extentHeight := height }
            some { display with
              handlesBitmap := bitmap
              objects := Function.update display.objects address (some this)
              sent := sent ++ this.cmdSize width height }

/-- `~cXinelibOsd` -/
def destroy (display : Display) (address : Nat) : Option Display :=
  match display.objects address with
  | none => none
  | some this =>
      let osdStack := display.osdStack.erase address
      let display := { display with
        handlesBitmap := freeWindowHandles display.handlesBitmap this.windowHandles
        objects := Function.update display.objects address none
        osdStack := osdStack
        sent := display.sent ++ this.closeWindows }
      some (display.tellAll (osdStack.take 1) WindowOsd.show')

/-- The destructor of the provider: every object in the stack is detached. -/
def detachAll (display : Display) : Display :=
  { display.tellAll display.osdStack WindowOsd.detach with osdStack := [] }

inductive WindowOperation where
  | createOsd (address level : Nat) (mixer : Bool)
  | setAreas (address : Nat) (ok : Bool) (numAreas : Nat) (fresh : Nat → Int) (osdSpuScaling : Bool)
      (osdSize : Nat × Nat)
  | refreshOsd
  | detachAll
  | destroy (address : Nat)

def perform (display : Display) : WindowOperation → Option Display
  | .createOsd address level mixer => display.createOsd address level mixer
  | .setAreas address ok numAreas fresh osdSpuScaling osdSize =>
      display.setAreas address ok numAreas fresh osdSpuScaling osdSize
  | .refreshOsd => some (display.tellAll display.osdStack.reverse WindowOsd.refreshed)
  | .detachAll => some display.detachAll
  | .destroy address => display.destroy address

end Display
end Xineliboutput.Osd
