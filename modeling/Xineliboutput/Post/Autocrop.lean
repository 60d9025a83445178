import Xineliboutput.Foundation.Machine
import Xineliboutput.Post.FrameAnalysis

/-!
# The autocrop plugin

The state of `xine_post_autocrop.c` and its entry points: frames are requested, and the
ones that are intercepted come back in the same order to be drawn. Several may be on
their way.
-/

namespace Xineliboutput.Post

set_option autoImplicit false

/-! ## State -/

structure Parameters where
  enableAutodetect : Bool
  autodetectRate : Int
  enableSubsDetect : Bool
  subsDetectLifetime : Int
  subsDetectStabilizeTime : Int
  softStart : Bool
  softStartStep : Int
  stabilize : Bool
  stabilizeTime : Int
  useDriverCrop : Bool
  useAvardsAnalysis : Bool
  overscanCompensate : Int
  autodetectRateRange : 1 ≤ autodetectRate ∧ autodetectRate ≤ 30
  subsDetectLifetimeRange : 0 ≤ subsDetectLifetime ∧ subsDetectLifetime ≤ 9999
  subsDetectStabilizeTimeRange : 0 ≤ subsDetectStabilizeTime ∧ subsDetectStabilizeTime ≤ 9999
  softStartStepRange : 1 ≤ softStartStep ∧ softStartStep ≤ 999
  stabilizeTimeRange : 1 ≤ stabilizeTime ∧ stabilizeTime ≤ 9999
  overscanCompensateRange : 0 ≤ overscanCompensate ∧ overscanCompensate ≤ 100

structure Autocrop where
  setup : Parameters
  hasDriverCrop : Bool
  croppingActive : Bool
  detectedEndLine : Int
  prevDetectedEndLine : Int
  stabilizedStartLine : Int
  stabilizedEndLine : Int
  startLine : Int
  endLine : Int
  stabilizeTimer : Int
  analyzeTimer : Int
  prevHeight : Nat
  prevWidth : Nat
  prevPts : Int
  heightLimitActive : Bool
  heightLimit : Int
  heightLimitTimer : Int
  endLineStabilizeTimer : Int
  useDriverCrop : Bool

def Autocrop.alwaysUseDriverCrop (this : Autocrop) : Bool :=
  this.setup.useDriverCrop && this.hasDriverCrop

def defaultParameters : Parameters where
  enableAutodetect := true
  autodetectRate := 4
  enableSubsDetect := true
  subsDetectLifetime := 60 * 25
  subsDetectStabilizeTime := 12
  softStart := true
  softStartStep := 4
  stabilize := true
  stabilizeTime := 5 * 25
  useDriverCrop := false
  useAvardsAnalysis := false
  overscanCompensate := 0
  autodetectRateRange := by decide
  subsDetectLifetimeRange := by decide
  subsDetectStabilizeTimeRange := by decide
  softStartStepRange := by decide
  stabilizeTimeRange := by decide
  overscanCompensateRange := by decide

/-- `autocrop_open_plugin` -/
def autocropOpenPlugin (hasDriverCrop : Bool) : Autocrop where
  setup := defaultParameters
  hasDriverCrop := hasDriverCrop
  croppingActive := false
  detectedEndLine := 0
  prevDetectedEndLine := 0
  stabilizedStartLine := 0
  stabilizedEndLine := 0
  startLine := 0
  endLine := 0
  stabilizeTimer := 0
  analyzeTimer := 0
  prevHeight := 0
  prevWidth := 0
  prevPts := 0
  heightLimitActive := false
  heightLimit := 0
  heightLimitTimer := 0
  endLineStabilizeTimer := 0
  useDriverCrop := false

/-! ## Frames -/

inductive ImageFormat where
  | standard (format : StandardFormat)
  | other
  deriving DecidableEq

structure Frame where
  width : Nat
  height : Nat
  format : ImageFormat
  heightRange : 288 ≤ height ∧ height ≤ 576

/-- What the decoder has made of a frame when it is drawn. Frames of another format may
provide their image in a standard one. -/
structure Decoded where
  pts : Int
  badFrame : Bool
  provided : Option StandardFormat
  picture : Picture

def Frame.analysisFormat (frame : Frame) (decoded : Decoded) : Option StandardFormat :=
  match frame.format with
  | .standard format => some format
  | .other => decoded.provided

/-- The cropping of a frame: copied from line to line, or left to the driver. -/
inductive Crop where
  | copied (frame : Frame) (startLine endLine : Int)
  | driver (height : Nat) (cropTop cropBottom : Int)

/-! ## Drawing -/

/-- The lines of a call of `autocrop_draw`, with its own `cropping_active`. -/
structure Lines where
  startLine : Int
  endLine : Int
  croppingActive : Bool

def Lines.activates (lines : Lines) (height : Int) : Bool :=
  !lines.croppingActive && (decide (10 < lines.startLine) || decide (lines.endLine < height - 10))

namespace Autocrop

variable (this : Autocrop)

/-- `analyze_frame`; a black frame leaves the lines as they are. -/
def analyzeFrame (frame : Frame) (decoded : Decoded) (lines : Lines) : Lines :=
  match detectBars this.setup.useAvardsAnalysis (frame.analysisFormat decoded) frame.height
      decoded.picture with
  | none => lines
  | some bars =>
      let heightLimit :=
        if this.croppingActive && this.heightLimitActive then some this.heightLimit else none
      let window := cropBars this.setup.stabilize this.setup.overscanCompensate heightLimit
        frame.height bars.1 bars.2
      { lines with startLine := window.1, endLine := window.2 }

def shortJump (dpts : Int) : Autocrop :=
  if (dpts < -30 * 90000 ∨ 30 * 90000 < dpts) ∧ this.heightLimitActive = true then
    { this with heightLimitTimer := this.setup.subsDetectLifetime / 2 }
  else this

def isLongJump (dpts : Int) : Bool := dpts < -30 * 60 * 90000 || 30 * 60 * 90000 < dpts

/-- A jump of more than half an hour ends cropping for the call. -/
def longJump (pts : Int) : Bool :=
  this.croppingActive && decide (0 < pts) && decide (0 < this.prevPts) &&
    isLongJump (pts - this.prevPts)

def trackPts (pts : Int) : Autocrop :=
  if this.croppingActive = true ∧ 0 < pts then
    { (if 0 < this.prevPts then this.shortJump (pts - this.prevPts) else this) with
      prevPts := pts }
  else this

def currentLines (height : Int) (croppingActive : Bool) : Lines :=
  if croppingActive then ⟨this.stabilizedStartLine, this.stabilizedEndLine, true⟩
  else ⟨0, height, false⟩

def activate (height : Int) : Autocrop :=
  { this with
    stabilizedStartLine := 0
    startLine := 0
    stabilizedEndLine := height
    endLine := height
    detectedEndLine := height
    prevDetectedEndLine := height
    stabilizeTimer := this.setup.stabilizeTime
    prevPts := -1
    heightLimitActive := false
    endLineStabilizeTimer := this.setup.subsDetectStabilizeTime }

def activateLines (height : Int) (lines : Lines) : Autocrop × Lines :=
  if lines.activates height then (this.activate height, { lines with croppingActive := true })
  else (this, lines)

/-- A new end line is only taken when it differs for several frames. -/
def detectEndLine (endLine : Int) : Autocrop :=
  if 5 < (this.detectedEndLine - endLine).natAbs then
    let timer := this.endLineStabilizeTimer - this.setup.autodetectRate
    if timer ≤ 0 then
      { this with
        detectedEndLine := endLine
        endLineStabilizeTimer := this.setup.subsDetectStabilizeTime }
    else { this with endLineStabilizeTimer := timer }
  else { this with endLineStabilizeTimer := this.setup.subsDetectStabilizeTime }

def countHeightLimit : Autocrop :=
  if this.heightLimitActive then
    let timer := this.heightLimitTimer - this.setup.autodetectRate
    { this with heightLimitTimer := timer, heightLimitActive := decide (0 < timer) }
  else this

def applyHeightLimit (endLine : Int) : Int :=
  if this.heightLimitActive = true ∧ endLine < this.heightLimit then this.heightLimit else endLine

def limitLines (lines : Lines) : Autocrop × Lines :=
  if lines.croppingActive && this.setup.enableSubsDetect then
    let this := (this.detectEndLine lines.endLine).countHeightLimit
    (this, { lines with endLine := this.applyHeightLimit lines.endLine })
  else (this, lines)

/-- No change unless the lines differ for several frames. -/
def stabilizeLines (height : Int) (lines : Lines) : Autocrop × Lines :=
  let kept := { lines with
    startLine := this.stabilizedStartLine, endLine := this.stabilizedEndLine }
  if 5 < (lines.startLine - this.stabilizedStartLine).natAbs ∨
      5 < (lines.endLine - this.stabilizedEndLine).natAbs then
    let timer := this.stabilizeTimer - this.setup.autodetectRate
    if 0 < timer then ({ this with stabilizeTimer := timer }, kept)
    else
      ({ this with stabilizeTimer := this.setup.stabilizeTime },
        { lines with
          croppingActive :=
            if lines.startLine ≤ 10 ∧ height - 10 ≤ lines.endLine then false
            else lines.croppingActive })
  else ({ this with stabilizeTimer := this.setup.stabilizeTime }, kept)

/-- Fixed subtitles inside the bottom bar; `detectedEndLine` is what the analysis gave. -/
def moveHeightLimit (detectedEndLine : Int) (lines : Lines) : Autocrop × Lines :=
  if this.heightLimitActive = true ∧ 5 < (this.stabilizedStartLine - lines.startLine).natAbs then
    ({ this with heightLimitActive := false, detectedEndLine := detectedEndLine },
      { lines with endLine := detectedEndLine })
  else if this.prevDetectedEndLine + 5 < this.detectedEndLine then
    if this.heightLimitActive = false ∨ this.heightLimit < this.detectedEndLine then
      ({ this with
          heightLimit := this.detectedEndLine
          heightLimitTimer := this.setup.subsDetectLifetime
          heightLimitActive := true },
        lines)
    else if this.heightLimitActive = true ∧
        this.heightLimitTimer < this.setup.subsDetectLifetime / 4 then
      ({ this with heightLimitTimer := this.setup.subsDetectLifetime / 2 }, lines)
    else (this, lines)
  else (this, lines)

def keepSubtitles (detectedEndLine : Int) (lines : Lines) : Autocrop × Lines :=
  if lines.croppingActive && this.setup.enableSubsDetect then
    let moved := this.moveHeightLimit detectedEndLine lines
    ({ moved.1 with prevDetectedEndLine := moved.1.detectedEndLine }, moved.2)
  else (this, lines)

def followAnalysis (height : Int) (lines : Lines) : Autocrop × Lines :=
  let activated := this.activateLines height lines
  let limited := activated.1.limitLines activated.2
  let stabilized := limited.1.stabilizeLines height limited.2
  let kept := stabilized.1.keepSubtitles lines.endLine stabilized.2
  ({ kept.1 with
      stabilizedStartLine := kept.2.startLine
      stabilizedEndLine := kept.2.endLine },
    kept.2)

def softLine (before line : Int) : Int :=
  let diff := before - line
  if diff < -this.setup.softStartStep then before + this.setup.softStartStep
  else if this.setup.softStartStep < diff then before - this.setup.softStartStep
  else before - diff

def softStart (lines : Lines) : Lines :=
  if lines.croppingActive && this.setup.softStart then
    { lines with
      startLine := this.softLine this.startLine lines.startLine
      endLine := this.softLine this.endLine lines.endLine }
  else lines

def driverCrops (frame : Frame) : Bool := this.alwaysUseDriverCrop || frame.format = .other

def analyzes (decoded : Decoded) : Bool :=
  !decoded.badFrame && decide (this.analyzeTimer % this.setup.autodetectRate = 0)

/-- How `autocrop_draw` draws a frame in the end. -/
def crop (frame : Frame) (decoded : Decoded) : Option Crop :=
  if decoded.badFrame || !this.croppingActive || this.useDriverCrop then none
  else some (.copied frame this.startLine this.endLine)

/-- `autocrop_draw` without automatic detection. -/
def drawFixed (frame : Frame) : Autocrop :=
  { this with
    croppingActive := true
    startLine := frame.height / 8
    endLine := frame.height * 7 / 8
    useDriverCrop := this.driverCrops frame }

/-- `autocrop_draw` with automatic detection. -/
def drawDetecting (frame : Frame) (decoded : Decoded) : Autocrop :=
  let croppingActive := this.croppingActive && !this.longJump decoded.pts
  let this := this.trackPts decoded.pts
  let lines := this.currentLines frame.height croppingActive
  let analyzed :=
    if this.analyzes decoded then
      this.followAnalysis frame.height (this.analyzeFrame frame decoded lines)
    else (this, lines)
  let lines := analyzed.1.softStart analyzed.2
  { analyzed.1 with
    analyzeTimer := this.analyzeTimer + 1
    prevHeight := frame.height
    prevWidth := frame.width
    croppingActive := lines.croppingActive
    startLine := lines.startLine
    endLine := lines.endLine
    useDriverCrop := this.driverCrops frame }

/-- `autocrop_draw` -/
def draw (frame : Frame) (decoded : Decoded) : Autocrop × Option Crop :=
  let this :=
    if this.setup.enableAutodetect then this.drawDetecting frame decoded else this.drawFixed frame
  (this, this.crop frame decoded)

end Autocrop

/-! ## Getting frames -/

/-- A call of `autocrop_get_frame`: whether the ratio is nearly 4:3, whether the driver
has a frame, and whether that frame provides its image in a standard format. -/
structure FrameRequest where
  width : Nat
  height : Nat
  nearFourThirds : Bool
  format : ImageFormat
  available : Bool
  provides : Bool

namespace Autocrop

variable (this : Autocrop)

def Intercepts (request : FrameRequest) : Prop :=
  (request.format ≠ .other ∨ this.hasDriverCrop = true) ∧ request.nearFourThirds = true ∧
    240 ≤ request.width ∧ request.width ≤ 768 ∧ 288 ≤ request.height ∧ request.height ≤ 576

instance (request : FrameRequest) : Decidable (this.Intercepts request) :=
  inferInstanceAs (Decidable (_ ∧ _))

/-- Cropping goes on if the frame is intercepted and has the size of the one drawn last. -/
def keepsCropping (request : FrameRequest) : Bool :=
  this.croppingActive && decide (this.Intercepts request) &&
    !(this.setup.enableAutodetect &&
      (decide (request.height ≠ this.prevHeight) || decide (request.width ≠ this.prevWidth)))

def driverCrop (request : FrameRequest) : Option Crop :=
  if request.available && this.keepsCropping request && this.useDriverCrop then
    if this.setup.enableAutodetect then
      some (.driver request.height this.startLine (request.height - this.endLine))
    else some (.driver request.height (request.height / 8 : Nat) (request.height / 8 : Nat))
  else none

def lacksImage (request : FrameRequest) : Bool :=
  request.available && decide (this.Intercepts request) && decide (request.format = .other) &&
    !request.provides

/-- `autocrop_get_frame`: the frame if it is intercepted, and its cropping. -/
def getFrame (request : FrameRequest) : Autocrop × Option Frame × Option Crop :=
  ({ this with croppingActive := this.keepsCropping request && !this.lacksImage request },
    if intercepts : this.Intercepts request then
      if request.available && !this.lacksImage request then
        some ⟨request.width, request.height, request.format,
          intercepts.2.2.2.2⟩
      else none
    else none,
    this.driverCrop request)

end Autocrop

end Xineliboutput.Post
