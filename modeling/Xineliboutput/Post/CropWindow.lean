import Xineliboutput.Post.Autocrop

/-!
# The crop window

The lines that are stabilized, active and detected belong to the height of the frame that
was drawn last. A window is used for the frames of that height.
-/

namespace Xineliboutput.Post

open Xineliboutput.Foundation

set_option autoImplicit false

/-! ## Cropping by copying -/

/-- The lines that are copied, each from its place in the frame to that in the new one. -/
structure CopiedLines where
  luma : List (Int × Int)
  chroma : List (Int × Int)

def cropCopyYv12 (startLine endLine : Int) : CopiedLines :=
  let newHeight := endLine - startLine
  { luma := (List.range (2 * (newHeight / 2).toNat)).map fun (y : Nat) => (startLine + y, y)
    chroma := (List.range (newHeight / 2).toNat).map fun (y : Nat) => (startLine / 2 + y, y) }

def cropCopyYuy2 (startLine endLine : Int) : CopiedLines where
  luma := (List.range (endLine - startLine).toNat).map fun (y : Nat) => (startLine + y, y)
  chroma := []

def Frame.cropCopy (frame : Frame) : Int → Int → CopiedLines :=
  if frame.format = .standard .yv12 then cropCopyYv12 else cropCopyYuy2

/-- All lines are read in the frame and written in the new one. -/
structure CopiedLines.Inside (lines : CopiedLines) (height newHeight : Int) : Prop where
  luma : ∀ line ∈ lines.luma, (0 ≤ line.1 ∧ line.1 < height) ∧ 0 ≤ line.2 ∧ line.2 < newHeight
  chroma : ∀ line ∈ lines.chroma,
    (0 ≤ line.1 ∧ line.1 < height / 2) ∧ 0 ≤ line.2 ∧ line.2 < newHeight / 2

/-- A window in the frame, or cropping by the driver that leaves a line. -/
def Crop.Fits : Crop → Prop
  | .copied frame startLine endLine =>
      (0 ≤ startLine ∧ startLine < endLine ∧ endLine ≤ frame.height) ∧
        (frame.cropCopy startLine endLine).Inside frame.height (endLine - startLine)
  | .driver height cropTop cropBottom =>
      0 ≤ cropTop ∧ 0 ≤ cropBottom ∧ cropTop + cropBottom < height

theorem crop_copy_inside (frame : Frame) {startLine endLine : Int} (start : 0 ≤ startLine)
    (ordered : startLine < endLine) (bottom : endLine ≤ frame.height) :
    (frame.cropCopy startLine endLine).Inside frame.height (endLine - startLine) := by
  unfold Frame.cropCopy
  split_ifs
  · constructor
    · intro line member
      obtain ⟨y, below, rfl⟩ := List.mem_map.mp member
      have inside := List.mem_range.mp below
      dsimp only
      omega
    · intro line member
      obtain ⟨y, below, rfl⟩ := List.mem_map.mp member
      have inside := List.mem_range.mp below
      dsimp only
      omega
  · constructor
    · intro line member
      obtain ⟨y, below, rfl⟩ := List.mem_map.mp member
      have inside := List.mem_range.mp below
      dsimp only
      omega
    · exact fun _ member => nomatch member

/-! ## The lines of the state -/

structure EndFits (height endLine : Int) : Prop where
  lower : height < 2 * endLine
  bottom : endLine ≤ height

theorem WindowFits.endFits {height startLine endLine : Int}
    (fits : WindowFits height startLine endLine) : EndFits height endLine :=
  ⟨fits.lower, fits.bottom⟩

theorem EndFits.window {height startLine endLine : Int} (fits : EndFits height endLine)
    (top : 0 ≤ startLine) (upper : 2 * startLine < height) :
    WindowFits height startLine endLine :=
  ⟨top, upper, fits.lower, fits.bottom⟩

/-- All lines of the state belong to frames of this height. -/
structure Autocrop.Tracks (this : Autocrop) (height : Int) : Prop where
  stabilized : WindowFits height this.stabilizedStartLine this.stabilizedEndLine
  active : WindowFits height this.startLine this.endLine
  detected : EndFits height this.detectedEndLine
  prevDetected : EndFits height this.prevDetectedEndLine
  limit : this.heightLimitActive = true → EndFits height this.heightLimit

def Lines.Fit (lines : Lines) (height : Int) : Prop :=
  WindowFits height lines.startLine lines.endLine

def LinesTrack (height : Int) (result : Autocrop × Lines) : Prop :=
  result.2.croppingActive = true → result.1.Tracks height ∧ result.2.Fit height

section Stages

variable {this : Autocrop} {height : Int} {lines : Lines}

theorem whole_frame_fits (positive : 0 < height) : WindowFits height 0 height := by
  constructor <;> omega

theorem track_pts_tracks (tracks : this.Tracks height) (pts : Int) :
    (this.trackPts pts).Tracks height := by
  obtain ⟨stabilized, active, detected, prevDetected, limit⟩ := tracks
  unfold Autocrop.trackPts Autocrop.shortJump
  split_ifs <;> exact ⟨stabilized, active, detected, prevDetected, limit⟩

theorem activate_tracks (positive : 0 < height) : (this.activate height).Tracks height :=
  ⟨whole_frame_fits positive, whole_frame_fits positive, (whole_frame_fits positive).endFits,
    (whole_frame_fits positive).endFits, (fun active => nomatch active)⟩

theorem detect_end_line_tracks (tracks : this.Tracks height) {endLine : Int}
    (fits : EndFits height endLine) : (this.detectEndLine endLine).Tracks height := by
  obtain ⟨stabilized, active, detected, prevDetected, limit⟩ := tracks
  unfold Autocrop.detectEndLine
  dsimp only
  split_ifs
  · exact ⟨stabilized, active, fits, prevDetected, limit⟩
  · exact ⟨stabilized, active, detected, prevDetected, limit⟩
  · exact ⟨stabilized, active, detected, prevDetected, limit⟩

theorem count_height_limit_tracks (tracks : this.Tracks height) :
    this.countHeightLimit.Tracks height := by
  unfold Autocrop.countHeightLimit
  split_ifs with limited
  · obtain ⟨stabilized, active, detected, prevDetected, limit⟩ := tracks
    exact ⟨stabilized, active, detected, prevDetected, fun _ => limit limited⟩
  · exact tracks

theorem apply_height_limit_fits (tracks : this.Tracks height) {endLine : Int}
    (fits : EndFits height endLine) : EndFits height (this.applyHeightLimit endLine) := by
  unfold Autocrop.applyHeightLimit
  split_ifs with raised
  · exact tracks.limit raised.1
  · exact fits

theorem stabilize_timer_tracks (tracks : this.Tracks height) (timer : Int) :
    Autocrop.Tracks { this with stabilizeTimer := timer } height :=
  ⟨tracks.stabilized, tracks.active, tracks.detected, tracks.prevDetected, tracks.limit⟩

theorem activate_lines_track (positive : 0 < height) (fit : lines.Fit height)
    (tracks : lines.croppingActive = true → this.Tracks height) :
    LinesTrack height (this.activateLines height lines) := by
  unfold Autocrop.activateLines
  split_ifs
  · exact fun _ => ⟨activate_tracks positive, fit⟩
  · exact fun active => ⟨tracks active, fit⟩

theorem limit_lines_track (track : LinesTrack height (this, lines)) :
    LinesTrack height (this.limitLines lines) := by
  unfold Autocrop.limitLines
  split_ifs
  · intro active
    obtain ⟨tracks, fit⟩ := track active
    have limited := count_height_limit_tracks (detect_end_line_tracks tracks fit.endFits)
    exact ⟨limited, (apply_height_limit_fits limited fit.endFits).window fit.top fit.upper⟩
  · exact track

theorem stabilize_lines_track (track : LinesTrack height (this, lines)) :
    LinesTrack height (this.stabilizeLines height lines) := by
  unfold Autocrop.stabilizeLines LinesTrack
  dsimp only
  split_ifs
  · intro active
    obtain ⟨tracks, -⟩ := track active
    exact ⟨stabilize_timer_tracks tracks _, tracks.stabilized⟩
  · intro active
    cases active
  · intro active
    obtain ⟨tracks, fit⟩ := track active
    exact ⟨stabilize_timer_tracks tracks _, fit⟩
  · intro active
    obtain ⟨tracks, -⟩ := track active
    exact ⟨stabilize_timer_tracks tracks _, tracks.stabilized⟩

theorem move_height_limit_track {detectedEndLine : Int} (tracks : this.Tracks height)
    (fit : lines.Fit height) (fits : EndFits height detectedEndLine) :
    (this.moveHeightLimit detectedEndLine lines).1.Tracks height ∧
      (this.moveHeightLimit detectedEndLine lines).2.Fit height := by
  obtain ⟨stabilized, active, detected, prevDetected, limit⟩ := tracks
  unfold Autocrop.moveHeightLimit
  split_ifs
  · exact ⟨⟨stabilized, active, fits, prevDetected, (fun limited => nomatch limited)⟩,
      fits.window fit.top fit.upper⟩
  · exact ⟨⟨stabilized, active, detected, prevDetected, fun _ => detected⟩, fit⟩
  · exact ⟨⟨stabilized, active, detected, prevDetected, limit⟩, fit⟩
  · exact ⟨⟨stabilized, active, detected, prevDetected, limit⟩, fit⟩
  · exact ⟨⟨stabilized, active, detected, prevDetected, limit⟩, fit⟩

theorem moved_active (this : Autocrop) (detectedEndLine : Int) (lines : Lines) :
    (this.moveHeightLimit detectedEndLine lines).2.croppingActive = lines.croppingActive := by
  unfold Autocrop.moveHeightLimit
  split_ifs <;> rfl

theorem keep_subtitles_track {detectedEndLine : Int} (track : LinesTrack height (this, lines))
    (fits : EndFits height detectedEndLine) :
    LinesTrack height (this.keepSubtitles detectedEndLine lines) := by
  unfold Autocrop.keepSubtitles
  split_ifs
  · intro active
    rw [moved_active] at active
    obtain ⟨tracks, fit⟩ := track active
    obtain ⟨moved, movedFit⟩ := move_height_limit_track tracks fit fits
    exact ⟨⟨moved.stabilized, moved.active, moved.detected, moved.detected, moved.limit⟩, movedFit⟩
  · exact track

theorem follow_analysis_track (positive : 0 < height) (fit : lines.Fit height)
    (tracks : lines.croppingActive = true → this.Tracks height) :
    LinesTrack height (this.followAnalysis height lines) := by
  have activated := activate_lines_track positive fit tracks
  have limited := limit_lines_track activated
  have stabilized := stabilize_lines_track limited
  have kept := keep_subtitles_track stabilized fit.endFits
  intro active
  obtain ⟨state, fits⟩ := kept active
  exact ⟨⟨fits, state.active, state.detected, state.prevDetected, state.limit⟩, fits⟩

theorem soft_line_between (this : Autocrop) (before line : Int) :
    min before line ≤ this.softLine before line ∧ this.softLine before line ≤ max before line := by
  have step := this.setup.softStartStepRange.1
  unfold Autocrop.softLine
  dsimp only
  split_ifs <;> omega

theorem soft_start_fits (active : WindowFits height this.startLine this.endLine)
    (fit : lines.Fit height) : (this.softStart lines).Fit height := by
  unfold Autocrop.softStart
  split_ifs
  · have start := soft_line_between this this.startLine lines.startLine
    have stop := soft_line_between this this.endLine lines.endLine
    have top := fit.top
    have upper := fit.upper
    have lower := fit.lower
    have bottom := fit.bottom
    obtain ⟨activeTop, activeUpper, activeLower, activeBottom⟩ := active
    constructor <;> dsimp only <;> omega
  · exact fit

end Stages

/-! ## Drawing a frame -/

/-- While
cropping is active the frame has the height of the one drawn before, which was drawn with
automatic detection; or a long jump of the time stamps ends cropping and leaves no height
limit below the frame. Where a frame is analyzed, no odd height is rounded up. -/
structure DrawsAlike (this : Autocrop) (drawnFixed : Bool) (frame : Frame) (decoded : Decoded) :
    Prop where
  same : this.croppingActive = true →
    drawnFixed = false ∧ this.prevHeight = frame.height ∨
      this.longJump decoded.pts = true ∧
        (this.heightLimitActive = true → this.heightLimit ≤ frame.height)
  rounded : this.analyzes decoded = true → frame.height % 2 = 0 ∨
    this.setup.stabilize = true ∧ this.setup.overscanCompensate ≤ 0

/-- Cropping that was found by automatic detection belongs to the frame drawn last. -/
def Follows (this : Autocrop) (drawnFixed : Bool) : Prop :=
  this.croppingActive = true → drawnFixed = false → this.Tracks this.prevHeight

theorem analyze_frame_fits {this : Autocrop} {frame : Frame} {decoded : Decoded} {lines : Lines}
    (fit : lines.Fit frame.height)
    (limited : this.croppingActive = true → this.heightLimitActive = true →
      this.heightLimit ≤ frame.height)
    (rounded : frame.height % 2 = 0 ∨
      this.setup.stabilize = true ∧ this.setup.overscanCompensate ≤ 0) :
    (this.analyzeFrame frame decoded lines).Fit frame.height := by
  have tall := frame.heightRange.1
  unfold Autocrop.analyzeFrame
  cases found : detectBars this.setup.useAvardsAnalysis (frame.analysisFormat decoded) frame.height
      decoded.picture with
  | none => exact fit
  | some bars =>
      obtain ⟨inside, half, below⟩ := detect_bars_range tall found
      apply crop_bars_fit
      · omega
      · intro limit
        split_ifs with active
        · intro same
          cases same
          rw [Bool.and_eq_true] at active
          exact limited active.1 active.2
        · intro none_active
          cases none_active
      · omega
      · omega
      · omega
      · exact rounded.imp_left fun even => by omega

theorem analyze_frame_active (this : Autocrop) (frame : Frame) (decoded : Decoded) (lines : Lines) :
    (this.analyzeFrame frame decoded lines).croppingActive = lines.croppingActive := by
  unfold Autocrop.analyzeFrame
  split <;> rfl

theorem track_pts_limit (this : Autocrop) (pts : Int) :
    (this.trackPts pts).heightLimitActive = this.heightLimitActive ∧
      (this.trackPts pts).heightLimit = this.heightLimit ∧
      (this.trackPts pts).croppingActive = this.croppingActive ∧
      (this.trackPts pts).setup = this.setup ∧
      (this.trackPts pts).analyzeTimer = this.analyzeTimer := by
  unfold Autocrop.trackPts Autocrop.shortJump
  split_ifs <;> exact ⟨rfl, rfl, rfl, rfl, rfl⟩

theorem draw_detecting_follows {this : Autocrop} {drawnFixed : Bool} {frame : Frame}
    {decoded : Decoded} (follows : Follows this drawnFixed)
    (alike : DrawsAlike this drawnFixed frame decoded) :
    Follows (this.drawDetecting frame decoded) false := by
  have tall := frame.heightRange.1
  have positive : (0 : Int) < frame.height := by omega
  obtain ⟨limitKept, limitSame, activeKept, setupKept, timerKept⟩ :=
    track_pts_limit this decoded.pts
  -- cropping that goes on is that of the last frame
  have onward : (this.croppingActive && !this.longJump decoded.pts) = true →
      this.Tracks frame.height := by
    intro active
    rw [Bool.and_eq_true, Bool.not_eq_true'] at active
    rcases alike.same active.1 with ⟨detected, same⟩ | ⟨jump, -⟩
    · rw [← same]
      exact follows active.1 detected
    · exact absurd (jump.symm.trans active.2) (by decide)
  have limited : this.croppingActive = true → this.heightLimitActive = true →
      this.heightLimit ≤ frame.height := by
    intro active limit
    rcases alike.same active with ⟨detected, same⟩ | ⟨-, below⟩
    · rw [← same]
      exact ((follows active detected).limit limit).bottom
    · exact below limit
  intro nowActive _
  unfold Autocrop.drawDetecting at nowActive ⊢
  dsimp only at nowActive ⊢
  generalize this.longJump decoded.pts = jump at onward nowActive ⊢
  have tracked : (this.croppingActive && !jump) = true →
      (this.trackPts decoded.pts).Tracks frame.height := fun active =>
    track_pts_tracks (onward active) decoded.pts
  have same : ((this.trackPts decoded.pts).currentLines frame.height
      (this.croppingActive && !jump)).croppingActive = (this.croppingActive && !jump) := by
    unfold Autocrop.currentLines
    split_ifs with active
    · exact active.symm
    · exact (Bool.eq_false_iff.mpr active).symm
  have current : ((this.trackPts decoded.pts).currentLines frame.height
      (this.croppingActive && !jump)).Fit frame.height := by
    unfold Autocrop.currentLines
    split_ifs with active
    · exact (tracked active).stabilized
    · exact whole_frame_fits positive
  generalize (this.trackPts decoded.pts).currentLines frame.height
    (this.croppingActive && !jump) = lines at nowActive same current ⊢
  have analyzed : LinesTrack frame.height
      (if (this.trackPts decoded.pts).analyzes decoded = true then
        (this.trackPts decoded.pts).followAnalysis frame.height
          ((this.trackPts decoded.pts).analyzeFrame frame decoded lines)
      else (this.trackPts decoded.pts, lines)) := by
    split_ifs with analyzes
    · apply follow_analysis_track positive
      · apply analyze_frame_fits current
        · rw [limitKept, limitSame, activeKept]
          exact limited
        · rw [setupKept]
          apply alike.rounded
          rw [Autocrop.analyzes, ← setupKept, ← timerKept]
          exact analyzes
      · rw [analyze_frame_active, same]
        exact tracked
    · intro active
      rw [same] at active
      exact ⟨tracked active, current⟩
  generalize (if (this.trackPts decoded.pts).analyzes decoded = true then
    (this.trackPts decoded.pts).followAnalysis frame.height
      ((this.trackPts decoded.pts).analyzeFrame frame decoded lines)
    else (this.trackPts decoded.pts, lines)) = result at nowActive analyzed ⊢
  have soft : (result.1.softStart result.2).croppingActive = result.2.croppingActive := by
    unfold Autocrop.softStart
    split_ifs <;> rfl
  rw [soft] at nowActive
  obtain ⟨tracks, fit⟩ := analyzed nowActive
  exact ⟨tracks.stabilized, soft_start_fits tracks.active fit, tracks.detected,
    tracks.prevDetected, tracks.limit⟩

/-! ## Runs -/

/-- The plugin with the frames that are on their way, and whether the last one was drawn
without automatic detection. -/
structure Session where
  this : Autocrop
  frames : List Frame
  drawnFixed : Bool

inductive Call where
  | getFrame (request : FrameRequest)
  | draw (decoded : Decoded)
  | setParameters (parameters : Parameters)
  | videoClose

def openSession (hasDriverCrop : Bool) : Session := ⟨autocropOpenPlugin hasDriverCrop, [], false⟩

namespace Session

variable (session : Session)

def perform : Call → Session × Option Crop
  | .getFrame request =>
      let got := session.this.getFrame request
      ({ session with this := got.1, frames := session.frames ++ got.2.1.toList }, got.2.2)
  | .draw decoded =>
      match session.frames with
      | [] => (session, none)
      | frame :: frames =>
          let drawn := session.this.draw frame decoded
          (⟨drawn.1, frames, !session.this.setup.enableAutodetect⟩, drawn.2)
  | .setParameters parameters =>
      ({ session with this := { session.this with setup := parameters } }, none)
  | .videoClose =>
      ({ session with this := { session.this with croppingActive := false } }, none)

def after (calls : List Call) : Session :=
  calls.foldl (fun session call => (session.perform call).1) session

/-- A frame is drawn, and cropped by the driver, with a window that belongs to it. -/
def Proper : Call → Prop
  | .getFrame request => session.this.keepsCropping request = true →
      session.this.useDriverCrop = true → session.this.setup.enableAutodetect = true →
      session.drawnFixed = false
  | .draw decoded =>
      match session.frames with
      | [] => True
      | frame :: _ => session.this.setup.enableAutodetect = true →
          DrawsAlike session.this session.drawnFixed frame decoded
  | .setParameters _ => True
  | .videoClose => True

end Session

theorem perform_follows {session : Session} {call : Call}
    (follows : Follows session.this session.drawnFixed) (proper : session.Proper call) :
    Follows (session.perform call).1.this (session.perform call).1.drawnFixed := by
  cases call with
  | getFrame request =>
      intro active detected
      replace active : (session.this.keepsCropping request && !session.this.lacksImage request) =
        true := active
      rw [Bool.and_eq_true] at active
      have before : session.this.croppingActive = true := by
        have kept := active.1
        unfold Autocrop.keepsCropping at kept
        rw [Bool.and_eq_true, Bool.and_eq_true] at kept
        exact kept.1.1
      obtain ⟨stabilized, lines, detectedEnd, prevDetected, limit⟩ := follows before detected
      exact ⟨stabilized, lines, detectedEnd, prevDetected, limit⟩
  | draw decoded =>
      unfold Session.perform
      unfold Session.Proper at proper
      cases queued : session.frames with
      | nil => exact follows
      | cons frame frames =>
          rw [queued] at proper
          dsimp only at proper ⊢
          unfold Autocrop.draw
          cases detects : session.this.setup.enableAutodetect with
          | false => exact fun _ drawn => nomatch drawn
          | true => exact draw_detecting_follows follows (proper detects)
  | setParameters parameters =>
      intro active detected
      obtain ⟨stabilized, lines, detectedEnd, prevDetected, limit⟩ := follows active detected
      exact ⟨stabilized, lines, detectedEnd, prevDetected, limit⟩
  | videoClose => exact fun active => nomatch active

theorem window_copied {this : Autocrop} {frame : Frame} {decoded : Decoded} {crop : Crop}
    (fits : this.croppingActive = true → WindowFits frame.height this.startLine this.endLine)
    (cropped : this.crop frame decoded = some crop) : crop.Fits := by
  unfold Autocrop.crop at cropped
  split_ifs at cropped with passed
  cases cropped
  have active : this.croppingActive = true := by
    cases stored : this.croppingActive with
    | true => rfl
    | false => simp [stored] at passed
  obtain ⟨top, upper, lower, bottom⟩ := fits active
  have ordered : this.startLine < this.endLine := by omega
  exact ⟨⟨top, ordered, bottom⟩, crop_copy_inside frame top ordered bottom⟩

theorem draw_fits {session : Session} {frame : Frame} {decoded : Decoded} {crop : Crop}
    (follows : Follows session.this session.drawnFixed)
    (alike : session.this.setup.enableAutodetect = true →
      DrawsAlike session.this session.drawnFixed frame decoded)
    (cropped : (session.this.draw frame decoded).2 = some crop) : crop.Fits := by
  have tall := frame.heightRange.1
  unfold Autocrop.draw at cropped
  cases detects : session.this.setup.enableAutodetect with
  | false =>
      rw [detects] at cropped
      have fixed : WindowFits frame.height ((frame.height : Int) / 8)
          ((frame.height : Int) * 7 / 8) := by
        constructor <;> omega
      exact window_copied (fun _ => fixed) cropped
  | true =>
      rw [detects] at cropped
      refine window_copied ?_ cropped
      intro active
      have height : (session.this.drawDetecting frame decoded).prevHeight = frame.height := rfl
      have tracks := draw_detecting_follows follows (alike detects) active rfl
      rw [height] at tracks
      exact tracks.active

theorem get_frame_fits {session : Session} {request : FrameRequest} {crop : Crop}
    (follows : Follows session.this session.drawnFixed)
    (proper : session.Proper (.getFrame request))
    (cropped : (session.this.getFrame request).2.2 = some crop) : crop.Fits := by
  replace cropped : session.this.driverCrop request = some crop := cropped
  unfold Autocrop.driverCrop at cropped
  split_ifs at cropped with driven detects
  · cases cropped
    rw [Bool.and_eq_true, Bool.and_eq_true] at driven
    have kept := driven.1.2
    unfold Autocrop.keepsCropping at kept
    simp only [detects, Bool.true_and, Bool.and_eq_true, Bool.not_eq_true', Bool.or_eq_false_iff,
      decide_eq_true_eq, decide_eq_false_iff_not, not_not] at kept
    obtain ⟨⟨active, -⟩, height, -⟩ := kept
    have tracks := follows active (proper driven.1.2 driven.2 detects)
    rw [← height] at tracks
    obtain ⟨top, upper, lower, bottom⟩ := tracks.active
    exact ⟨top, by omega, by omega⟩
  · cases cropped
    rw [Bool.and_eq_true, Bool.and_eq_true] at driven
    have kept := driven.1.2
    unfold Autocrop.keepsCropping at kept
    rw [Bool.and_eq_true, Bool.and_eq_true, decide_eq_true_eq] at kept
    have tall := kept.1.2.2.2.2.2.1
    exact ⟨by omega, by omega, by omega⟩

theorem perform_fits {session : Session} {call : Call} {crop : Crop}
    (follows : Follows session.this session.drawnFixed) (proper : session.Proper call)
    (cropped : (session.perform call).2 = some crop) : crop.Fits := by
  cases call with
  | getFrame request => exact get_frame_fits follows proper cropped
  | draw decoded =>
      unfold Session.perform at cropped
      unfold Session.Proper at proper
      cases queued : session.frames with
      | nil =>
          rw [queued] at cropped
          cases cropped
      | cons frame frames =>
          rw [queued] at cropped proper
          exact draw_fits follows proper cropped
  | setParameters parameters => cases cropped
  | videoClose => cases cropped

/-- In a run in which every window belongs to its frame, it fits the frame. -/
theorem crop_window_fits (hasDriverCrop : Bool) (calls : List Call)
    (proper : ∀ (count : Nat) (within : count < calls.length),
      ((openSession hasDriverCrop).after (calls.take count)).Proper calls[count]) :
    ∀ (count : Nat) (within : count < calls.length) (crop : Crop),
      (((openSession hasDriverCrop).after (calls.take count)).perform calls[count]).2 =
        some crop → crop.Fits := by
  have follows : ∀ count ≤ calls.length,
      Follows ((openSession hasDriverCrop).after (calls.take count)).this
        ((openSession hasDriverCrop).after (calls.take count)).drawnFixed := by
    intro count
    induction count with
    | zero => exact fun _ active => nomatch active
    | succ count ih =>
        intro within
        have onward := perform_follows (ih (Nat.le_of_lt within)) (proper count within)
        rw [List.take_succ_eq_append_getElem within, Session.after, List.foldl_append]
        exact onward
  intro count within crop cropped
  exact perform_fits (follows count (Nat.le_of_lt within)) (proper count within) cropped

def standardRequest (height : Nat) : FrameRequest where
  width := 720
  height := height
  nearFourThirds := true
  format := .standard .yv12
  available := true
  provides := true

def letterboxed : Decoded where
  pts := 0
  badFrame := false
  provided := none
  picture := {
    topBlank := fun y => decide (y < 72)
    bottomBlank := fun y => decide (504 ≤ y)
    centerBlank := false }

def letterboxedFrames : List Call :=
  [.getFrame (standardRequest 576), .draw letterboxed, .getFrame (standardRequest 576),
    .draw letterboxed]

theorem letterboxed_frames_fit :
    ∃ crop, (((openSession false).after (letterboxedFrames.take 3)).perform
      (.draw letterboxed)).2 = some crop ∧ crop.Fits := by
  have cropped : (((openSession false).after (letterboxedFrames.take 3)).perform
      (.draw letterboxed)).2.isSome = true := by
    decide +kernel
  obtain ⟨crop, same⟩ := Option.isSome_iff_exists.mp cropped
  refine ⟨crop, same, crop_window_fits false letterboxedFrames ?_ 3 (by decide) crop same⟩
  intro count within
  match count with
  | 0 => exact fun _ _ _ => rfl
  | 1 => exact fun _ => ⟨by decide +kernel, by decide +kernel⟩
  | 2 => exact fun _ _ _ => by decide +kernel
  | 3 => exact fun _ => ⟨by decide +kernel, by decide +kernel⟩

def resizedFrames : List Call :=
  [.getFrame (standardRequest 576), .getFrame (standardRequest 288), .draw letterboxed,
    .draw letterboxed]

theorem resized_frame_overrun :
    ¬∀ (count : Nat) (within : count < resizedFrames.length) (crop : Crop),
      (((openSession false).after (resizedFrames.take count)).perform resizedFrames[count]).2 =
        some crop → crop.Fits := by
  intro fits
  have copied : (((openSession false).after (resizedFrames.take 3)).perform (.draw letterboxed)).2.map
      (fun crop => match crop with
        | .copied frame _ endLine => decide (endLine ≤ frame.height)
        | .driver _ _ _ => true) = some false := by
    decide +kernel
  obtain ⟨crop, cropped, overrun⟩ := Option.map_eq_some_iff.mp copied
  have inside := fits 3 (by decide) crop cropped
  cases crop with
  | copied frame startLine endLine => exact of_decide_eq_false overrun inside.1.2.2
  | driver height cropTop cropBottom => cases overrun

end Xineliboutput.Post
