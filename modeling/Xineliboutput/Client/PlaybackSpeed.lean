import Mathlib.Algebra.Group.Int.Defs

/-!
# Playback speed

The modes of the player, the tuning of its clock and the speed of the engine, as
the control messages and the data thread change them. No slave stream is open, and
every function is called with the lock held.
-/

namespace Xineliboutput.Client

set_option autoImplicit false

abbrev speedPause : Int := 0
abbrev fineSpeedNormal : Int := 1000000
abbrev scrTuningOff : Int := 0
abbrev scrTuningPaused : Int := -10000

/-- `scr_buf` -/
structure ScrBuf where
  cnt : UInt32
  fillAvg : UInt32
  fillMin : UInt32
  fillMax : UInt32

/-- The part of `vdr_input_plugin_t` that the speed depends on, with what has been set
in the engine and its metronom. -/
structure Playback where
  liveMode : Bool
  stillMode : Bool
  isPaused : Bool
  isTrickspeed : Bool
  scrTuning : Int
  iFrames : UInt32
  bFrames : UInt32
  pFrames : UInt32
  scrBuf : ScrBuf
  fineSpeed : Int
  videoHasStill : Bool
  metronomStillMode : Int
  metronomTrickSpeed : Int

def Playback.init : Playback where
  liveMode := false
  stillMode := false
  isPaused := false
  isTrickspeed := false
  scrTuning := scrTuningOff
  iFrames := 0
  bFrames := 0
  pFrames := 0
  scrBuf := ⟨0, 0, 0, 0⟩
  fineSpeed := fineSpeedNormal
  videoHasStill := false
  metronomStillMode := 0
  metronomTrickSpeed := 0

/-- What the data thread finds when it adjusts the speed: the stream, the connection,
the fill of the buffers and the configuration. -/
structure Surroundings where
  hdStream : Bool
  noVideo : Bool
  streamStart : Bool
  fdControl : Int
  fixedScr : Bool
  scrLiveSync : Bool
  hdFree : UInt32
  poolFree : UInt32
  reservedBuffers : UInt32
  poolSize : UInt32
  blockSize : UInt32
  audioSize : UInt32
  videoFrames : Int
  smoothScrTuning : Bool
  scrTresholdSd : UInt32
  scrTresholdHd : UInt32

/-! ## Tuning -/

def scrTuningSetPaused (this : Playback) : Playback :=
  if this.isTrickspeed then this
  else if this.isPaused then this
  else if this.stillMode then this
  else if this.scrTuning ≠ scrTuningPaused then
    { this with
      scrTuning := scrTuningPaused
      fineSpeed := if this.fineSpeed ≠ speedPause then speedPause else this.fineSpeed
      iFrames := 0
      pFrames := 0
      bFrames := 0 }
  else this

def resetScrTuning (this : Playback) : Playback :=
  if this.scrTuning ≠ scrTuningOff then
    if this.isTrickspeed then this
    else if this.isPaused then this
    else
      { this with
        scrTuning := scrTuningOff
        fineSpeed := if this.fineSpeed ≠ fineSpeedNormal ∧ this.isPaused = false then
          fineSpeedNormal else this.fineSpeed }
  else this

/-- Every 8000 blocks the average fill decides; `fill_avg - 50` is unsigned. -/
def smoothTuning (fillLevel : UInt32) (this : Playback) : Int × ScrBuf :=
  let buf : ScrBuf :=
    { cnt := this.scrBuf.cnt + 1
      fillAvg := this.scrBuf.fillAvg + fillLevel
      fillMin := min this.scrBuf.fillMin fillLevel
      fillMax := max this.scrBuf.fillMax fillLevel }
  if buf.cnt % 8000 = 0 then
    let trimRel : Int := max (min ((buf.fillAvg / 8000 - 50) / 2).toNat 1) (-1)
    let buf := { buf with fillAvg := 0, fillMin := 100, fillMax := 0 }
    if trimRel ≠ 0 then (max (min (this.scrTuning + trimRel) 2) (-2), buf)
    else (this.scrTuning, buf)
  else (this.scrTuning, buf)

/-- The tuning for the fill of the buffers while the engine plays at normal speed. -/
def newTuning (around : Surroundings) (numUsed numFree : UInt32) (this : Playback) :
    Int × ScrBuf :=
  let fillLevel := 100 * numUsed / (numUsed + numFree)
  if around.scrLiveSync = false then (scrTuningOff, this.scrBuf)
  else if around.noVideo then
    (if 9 ≤ numUsed then 1 else if numUsed ≤ 3 then -1 else scrTuningOff, this.scrBuf)
  else if around.smoothScrTuning then smoothTuning fillLevel this
  else
    (if 85 < fillLevel then 2
      else if 70 < fillLevel then 1
      else if fillLevel < 15 then -2
      else if fillLevel < 30 then -1
      else if (0 < this.scrTuning ∧ numUsed < numFree) ∨ (this.scrTuning < 0 ∧ numFree < numUsed) then
        scrTuningOff
      else this.scrTuning, this.scrBuf)

def resumes (around : Surroundings) (numUsed numFree : UInt32) (this : Playback) : Bool :=
  let scrTreshold := 100 * numUsed / (numUsed + numFree)
  let audioTreshold := 100 * around.audioSize / (around.audioSize + 500)
  (around.hdStream && scrTreshold > around.scrTresholdHd &&
      (audioTreshold > 0 || scrTreshold > 65)) ||
    (!around.hdStream && scrTreshold > around.scrTresholdSd &&
      (audioTreshold > 0 || scrTreshold > 65)) ||
    (around.noVideo && numUsed > 5) || this.stillMode || this.isTrickspeed ||
    (this.iFrames > 0 && (this.iFrames > 2 || this.pFrames > 6))

def adjustToLevels (around : Surroundings) (numUsed numFree : UInt32) (this : Playback) :
    Playback :=
  if numUsed < 1 ∧ this.scrTuning ≠ scrTuningPaused ∧ around.noVideo = false ∧
      this.stillMode = false ∧ this.isTrickspeed = false ∧ around.videoFrames < 5 then
    scrTuningSetPaused this
  else if this.scrTuning = scrTuningPaused then
    if resumes around numUsed numFree this then resetScrTuning { this with iFrames := 0 } else this
  else if this.fineSpeed = fineSpeedNormal then
    let (scrTuning, scrBuf) := newTuning around numUsed numFree this
    { this with scrTuning, scrBuf }
  else if this.scrTuning ≠ 0 then resetScrTuning this
  else this

def Surroundings.numFree (around : Surroundings) : UInt32 :=
  let free := if around.hdStream then around.hdFree else around.poolFree
  if free < around.reservedBuffers then 0 else free - around.reservedBuffers

def Surroundings.numUsed (around : Surroundings) : UInt32 :=
  around.poolSize + around.blockSize + around.audioSize

/-- `none` is a division by zero. -/
def vdrAdjustRealtimeSpeed (around : Surroundings) (this : Playback) : Option Playback :=
  if this.stillMode then some this
  else if this.isTrickspeed then some this
  else if this.isPaused then some this
  else if around.numUsed + around.numFree = 0 then none
  else some (adjustToLevels around around.numUsed around.numFree this)

def adjustScrSpeed (around : Surroundings) (this : Playback) : Option (Playback × Bool) :=
  if this.liveMode = false ∧ (around.fdControl < 0 ∨ around.fixedScr) then
    some (if this.scrTuning ≠ 0 then resetScrTuning this else this, false)
  else if around.streamStart then some (resetScrTuning this, true)
  else (vdrAdjustRealtimeSpeed around this).map fun this => (this, false)

/-! ## Modes -/

def setStillMode (stillMode : Int) (this : Playback) : Playback :=
  if (stillMode ≠ 0 ∨ this.stillMode) ∧ this.liveMode then this
  else
    let this :=
      { this with stillMode := decide (stillMode ≠ 0), videoHasStill := decide (stillMode ≠ 0) }
    let this := if this.stillMode then resetScrTuning this else this
    { this with metronomStillMode := stillMode }

/-- `live_mode` is a single bit, so only the lowest bit of `onoff` is kept. -/
def setLiveMode (onoff : Int) (this : Playback) : Playback :=
  let this :=
    if (if this.liveMode then 1 else 0) ≠ onoff then { this with liveMode := onoff % 2 = 1 } else this
  let this := setStillMode 0 this
  if this.liveMode = false then resetScrTuning this else this

/-- The beginning of `set_trick_speed`. -/
def setPause (speed : Int) (backwards : Bool) (this : Playback) : Playback :=
  let this := { this with isPaused := decide (speed = 0) }
  let this := if this.isPaused = false then setStillMode 0 this else this
  { this with metronomTrickSpeed := if backwards then speed else 0 }

def engineSpeed (speed : Int) : Int :=
  if 0 < speed then fineSpeedNormal / speed else fineSpeedNormal * -speed

/-- The end of `set_trick_speed`: the engine's speed, unless the clock is paused. -/
def playAt (speed : Int) (this : Playback) : Playback :=
  let this := { this with videoHasStill := this.stillMode || decide (speed = 0) }
  if this.scrTuning ≠ scrTuningPaused ∧ this.fineSpeed ≠ engineSpeed speed then
    { this with fineSpeed := engineSpeed speed }
  else this

def setTrickSpeed (speed : Int) (backwards : Bool) (this : Playback) : Playback :=
  if 64 < speed ∨ speed < -64 then this
  else
    let this := setPause speed backwards this
    if 1 < speed ∨ speed < -1 then
      if this.liveMode then this
      else playAt speed { resetScrTuning this with isTrickspeed := true }
    else playAt speed { this with isTrickspeed := false }

/-! ## The player -/

inductive FrameType where
  | intra
  | predicted
  | bidirectional
  | unknown

/-- `update_frames` -/
def updateFrames (type : FrameType) (this : Playback) : Playback :=
  let this := if this.iFrames = 0 then { this with pFrames := 0, bFrames := 0 } else this
  match type with
  | .intra => { this with iFrames := this.iFrames + 1 }
  | .predicted => { this with pFrames := this.pFrames + 1 }
  | .bidirectional => { this with bFrames := this.bFrames + 1 }
  | .unknown => this

/-- Control messages, and steps of the data thread. -/
inductive SpeedStep where
  | trickSpeed (speed : Int) (backwards : Bool)
  | still (stillMode : Int)
  | live (onoff : Int)
  | adjustScrSpeed (around : Surroundings)
  | adjustRealtimeSpeed (around : Surroundings)
  | setPaused
  | countFrame (type : FrameType)

def performSpeed (this : Playback) : SpeedStep → Option Playback
  | .trickSpeed speed backwards => some (setTrickSpeed speed backwards this)
  | .still stillMode => some (setStillMode stillMode this)
  | .live onoff => some (setLiveMode onoff this)
  | .adjustScrSpeed around => (adjustScrSpeed around this).map Prod.fst
  | .adjustRealtimeSpeed around => vdrAdjustRealtimeSpeed around this
  | .setPaused => some (scrTuningSetPaused this)
  | .countFrame type => some (updateFrames type this)

end Xineliboutput.Client
