import Mathlib.Algebra.Ring.Int.Defs
import Mathlib.Algebra.Ring.Nat
import Mathlib.Tactic.SplitIfs

/-!
# Black bars

What `analyze_frame` of `xine_post_autocrop.c` makes of the lines of a picture. Which
lines are blank is given with the picture.
-/

namespace Xineliboutput.Post

set_option autoImplicit false

/-! ## Detection -/

inductive StandardFormat where
  | yv12
  | yuy2
  deriving DecidableEq

/-- The outcome of the tests of the lines at `y`, from the top, from the bottom and in
the center. -/
structure Picture where
  topBlank : Nat → Bool
  bottomBlank : Nat → Bool
  centerBlank : Bool

/-- A loop over the lines from the top down, up to `limit`. -/
def firstFromTop (blank : Nat → Bool) (step limit : Nat) : Nat → Nat → Nat
  | 0, y => y
  | rounds + 1, y =>
      if y ≤ limit ∧ blank y = true then firstFromTop blank step limit rounds (y + step) else y

/-- A loop over the lines from the bottom up, down to `limit`. -/
def firstFromBottom (blank : Nat → Bool) (step limit : Nat) : Nat → Nat → Nat
  | 0, y => y
  | rounds + 1, y =>
      if limit ≤ y ∧ blank y = true then firstFromBottom blank step limit rounds (y - step) else y

/-- `none` for a frame that is black. -/
def analyzeFrameYv12 (height : Nat) (picture : Picture) : Option (Nat × Nat) :=
  let maxCrop := height / 4 / 2
  let y := firstFromTop picture.topBlank 2 (maxCrop * 2) height 8
  let cropTop := if 8 < y then y else 0
  let cropBottom := firstFromBottom picture.bottomBlank 2 (height - maxCrop) height (height - 5)
  if maxCrop * 2 ≤ cropTop ∧ cropBottom ≤ height - maxCrop ∧ picture.centerBlank = true then none
  else some (cropTop, cropBottom)

def analyzeFrameYuy2 (height : Nat) (picture : Picture) : Option (Nat × Nat) :=
  let maxCrop := height / 4 / 2
  let cropTop := firstFromTop picture.topBlank 1 (maxCrop * 2) height 6
  let cropBottom := firstFromBottom picture.bottomBlank 1 (height - maxCrop) height (height - 5)
  if maxCrop * 2 ≤ cropTop ∧ cropBottom ≤ height - maxCrop ∧ picture.centerBlank = true then none
  else some (cropTop, cropBottom)

/-- `AVARDS_FN`; a line ends the bar if what is left of it is wider than the logo. -/
def analyzeFrameAvards (topOverscanCompensate height : Nat) (picture : Picture) :
    Option (Nat × Nat) :=
  let top := firstFromTop picture.topBlank 1 (height / 2 - 1) height topOverscanCompensate
  let bottom := firstFromBottom picture.bottomBlank 1 (height / 2 + 1) height (height - 1 - 4)
  if top < bottom then some (top, bottom) else none

def analyzeFrameYv12Avards : Nat → Picture → Option (Nat × Nat) := analyzeFrameAvards 8

def analyzeFrameYuy2Avards : Nat → Picture → Option (Nat × Nat) := analyzeFrameAvards 6

def detectBars (useAvardsAnalysis : Bool) (format : Option StandardFormat) (height : Nat)
    (picture : Picture) : Option (Nat × Nat) :=
  match format with
  | some .yv12 =>
      if useAvardsAnalysis then analyzeFrameYv12Avards height picture
      else analyzeFrameYv12 height picture
  | some .yuy2 =>
      if useAvardsAnalysis then analyzeFrameYuy2Avards height picture
      else analyzeFrameYuy2 height picture
  | none => none

section Loops

variable (blank : Nat → Bool) {step limit : Nat}

theorem first_from_top_ends (positive : 0 < step) (rounds : Nat) {y : Nat}
    (enough : limit < rounds + y) :
    ¬(firstFromTop blank step limit rounds y ≤ limit ∧
      blank (firstFromTop blank step limit rounds y) = true) := by
  induction rounds generalizing y with
  | zero =>
      unfold firstFromTop
      omega
  | succ rounds ih =>
      unfold firstFromTop
      by_cases onward : y ≤ limit ∧ blank y = true
      · rw [if_pos onward]
        exact ih (by omega)
      · rw [if_neg onward]
        exact onward

theorem first_from_top_range (rounds : Nat) {y : Nat} (start : y ≤ limit + step) :
    y ≤ firstFromTop blank step limit rounds y ∧
      firstFromTop blank step limit rounds y ≤ limit + step := by
  induction rounds generalizing y with
  | zero => exact ⟨Nat.le_refl y, start⟩
  | succ rounds ih =>
      unfold firstFromTop
      by_cases onward : y ≤ limit ∧ blank y = true
      · rw [if_pos onward]
        obtain ⟨lower, upper⟩ := ih (by omega : y + step ≤ limit + step)
        exact ⟨by omega, upper⟩
      · rw [if_neg onward]
        exact ⟨Nat.le_refl y, start⟩

theorem first_from_bottom_ends (positive : 0 < step) (rounds : Nat) {y : Nat}
    (deep : step ≤ limit) (enough : y < rounds + limit) :
    ¬(limit ≤ firstFromBottom blank step limit rounds y ∧
      blank (firstFromBottom blank step limit rounds y) = true) := by
  induction rounds generalizing y with
  | zero =>
      unfold firstFromBottom
      omega
  | succ rounds ih =>
      unfold firstFromBottom
      by_cases onward : limit ≤ y ∧ blank y = true
      · rw [if_pos onward]
        exact ih (by omega)
      · rw [if_neg onward]
        exact onward

theorem first_from_bottom_range (rounds : Nat) {y : Nat} (start : limit ≤ y + step) :
    limit ≤ firstFromBottom blank step limit rounds y + step ∧
      firstFromBottom blank step limit rounds y ≤ y := by
  induction rounds generalizing y with
  | zero => exact ⟨start, Nat.le_refl y⟩
  | succ rounds ih =>
      unfold firstFromBottom
      by_cases onward : limit ≤ y ∧ blank y = true
      · rw [if_pos onward]
        obtain ⟨lower, upper⟩ := ih (by omega : limit ≤ y - step + step)
        exact ⟨lower, by omega⟩
      · rw [if_neg onward]
        exact ⟨start, Nat.le_refl y⟩

end Loops

theorem detect_bars_range {useAvardsAnalysis : Bool} {format : Option StandardFormat}
    {height top bottom : Nat} {picture : Picture} (tall : 288 ≤ height)
    (found : detectBars useAvardsAnalysis format height picture = some (top, bottom)) :
    top ≤ height / 2 ∧ height / 2 ≤ bottom ∧ bottom + 5 ≤ height := by
  unfold detectBars at found
  have avards : ∀ compensate ≤ 8, analyzeFrameAvards compensate height picture =
      some (top, bottom) → top ≤ height / 2 ∧ height / 2 ≤ bottom ∧ bottom + 5 ≤ height := by
    intro compensate small found
    unfold analyzeFrameAvards at found
    have fromTop := first_from_top_range picture.topBlank height
      (by omega : compensate ≤ height / 2 - 1 + 1)
    have fromBottom := first_from_bottom_range picture.bottomBlank height
      (by omega : height / 2 + 1 ≤ height - 1 - 4 + 1)
    dsimp only at found
    split_ifs at found
    cases found
    omega
  have fromBottom : ∀ step ≤ 2, height - height / 4 / 2 ≤
      firstFromBottom picture.bottomBlank step (height - height / 4 / 2) height (height - 5) + step ∧
      firstFromBottom picture.bottomBlank step (height - height / 4 / 2) height (height - 5) ≤
        height - 5 := by
    intro step small
    exact first_from_bottom_range picture.bottomBlank height (by omega)
  split at found
  · split_ifs at found
    · exact avards 8 (Nat.le_refl 8) found
    · unfold analyzeFrameYv12 at found
      have fromTop := first_from_top_range picture.topBlank height
        (by omega : 8 ≤ height / 4 / 2 * 2 + 2)
      have fromBottom := fromBottom 2 (Nat.le_refl 2)
      dsimp only at found
      split_ifs at found <;> cases found <;> omega
  · split_ifs at found
    · exact avards 6 (by decide) found
    · unfold analyzeFrameYuy2 at found
      have fromTop := first_from_top_range picture.topBlank height
        (by omega : 6 ≤ height / 4 / 2 * 2 + 1)
      have fromBottom := fromBottom 1 (by decide)
      dsimp only at found
      split_ifs at found
      cases found
      omega
  · cases found

/-! ## The window -/

/-- `& ~1` -/
def evenLine (line : Int) : Int := line / 2 * 2

/-- The bars with `stabilize`; the bottom bar decides first whether the picture is wide. -/
def stabilizeBars (height startLine endLine : Int) : Int × Int :=
  let bottom := height - endLine
  let bottomBar : Int × Nat :=
    if bottom < height / 32 then (height - 1, 0)
    else if bottom < height * 3 / 32 then (height * 15 / 16 - 1, 0)
    else if bottom < height * 3 / 16 then (height * 7 / 8 - 1, 1)
    else (height * 3 / 4 - 1, 2)
  let topBar : Int × Nat :=
    if startLine < height / 32 then (0, bottomBar.2)
    else if startLine < height * 3 / 32 then (height / 16, bottomBar.2)
    else if startLine < height * 3 / 16 ∨ bottomBar.2 ≠ 0 then (height / 8, bottomBar.2)
    else (height / 4, bottomBar.2 + 1)
  let startLine :=
    if topBar.2 = 3 then
      if topBar.1 - height / 8 < 0 then 0 else topBar.1 - height / 8
    else topBar.1
  let endLine :=
    if topBar.2 = 3 ∨ topBar.2 = 2 then
      if height ≤ bottomBar.1 + height / 8 then height - 1 else bottomBar.1 + height / 8
    else bottomBar.1
  (startLine, endLine)

/-- A picture wider than 16:9 is moved to the center, but for the lines that an active
height limit keeps at the bottom. -/
def balanceBars (heightLimit : Option Int) (height startLine endLine : Int) : Int × Int :=
  if height / 8 < startLine ∧ height / 4 < startLine + (height - endLine) then
    let diff := evenLine (startLine + (height - endLine) - height / 4)
    let reserved := match heightLimit with
      | some limit => if 0 < limit - endLine then limit - endLine else 0
      | none => 0
    (startLine - (diff - reserved), endLine + reserved)
  else (startLine, endLine)

/-- The bars without `stabilize`. -/
def limitBars (heightLimit : Option Int) (height startLine endLine : Int) : Int × Int :=
  let startLine := if height / 8 * 2 < startLine then height / 8 * 2 else startLine
  let endLine := if endLine < height * 7 / 8 then height * 7 / 8 else endLine
  let balanced := balanceBars heightLimit height startLine endLine
  let startLine := if balanced.1 ≤ 8 then 0 else balanced.1
  let endLine := if height - 6 ≤ balanced.2 then height else balanced.2
  if startLine < height / 12 ∨ height * 11 / 12 < endLine then (startLine, endLine)
  else
    (if startLine < height / 8 then height / 8 else startLine,
      if endLine < height * 7 / 8 then height * 7 / 8 else endLine)

def compensateOverscan (overscanCompensate height startLine endLine : Int) : Int × Int :=
  if 0 < overscanCompensate then
    let h := height * overscanCompensate / 2000
    let h := if startLine < h then startLine else h
    let h := if height - endLine < h then height - endLine else h
    (startLine - h, endLine + h)
  else (startLine, endLine)

/-- `analyze_frame` from the detected bars on. -/
def cropBars (stabilize : Bool) (overscanCompensate : Int) (heightLimit : Option Int)
    (height startLine endLine : Int) : Int × Int :=
  let bars :=
    if stabilize then stabilizeBars height startLine endLine
    else limitBars heightLimit height startLine endLine
  let bars := compensateOverscan overscanCompensate height bars.1 bars.2
  (evenLine bars.1, evenLine (bars.2 + 1))

/-- The lines lie in their halves of the frame, and in the frame. -/
structure WindowFits (height startLine endLine : Int) : Prop where
  top : 0 ≤ startLine
  upper : 2 * startLine < height
  lower : height < 2 * endLine
  bottom : endLine ≤ height

section Window

variable {height startLine endLine : Int}

/-- The window of a detection, with the lines that rounding and overscan may still add. -/
structure BarsFit (height startLine endLine : Int) : Prop where
  top : 0 ≤ startLine
  upper : startLine ≤ height / 4 + 1
  lower : height * 7 / 8 - 2 ≤ endLine
  bottom : endLine ≤ height

theorem stabilize_bars_fit (tall : 288 ≤ height) (half : height / 2 ≤ endLine)
    (frame : endLine ≤ height) :
    BarsFit height (stabilizeBars height startLine endLine).1
        (stabilizeBars height startLine endLine).2 ∧
      (stabilizeBars height startLine endLine).2 < height := by
  unfold stabilizeBars
  dsimp only
  generalize bottomIs : (if height - endLine < height / 32 then (height - 1, 0)
    else if height - endLine < height * 3 / 32 then (height * 15 / 16 - 1, 0)
    else if height - endLine < height * 3 / 16 then (height * 7 / 8 - 1, 1)
    else (height * 3 / 4 - 1, 2) : Int × Nat) = bottomBar
  have lower : bottomBar.2 = 2 ∧ bottomBar.1 = height * 3 / 4 - 1 ∨
      bottomBar.2 < 2 ∧ height * 7 / 8 - 1 ≤ bottomBar.1 ∧ bottomBar.1 < height := by
    split_ifs at bottomIs <;> subst bottomIs <;> dsimp only <;> omega
  generalize topIs : (if startLine < height / 32 then (0, bottomBar.2)
    else if startLine < height * 3 / 32 then (height / 16, bottomBar.2)
    else if startLine < height * 3 / 16 ∨ bottomBar.2 ≠ 0 then (height / 8, bottomBar.2)
    else (height / 4, bottomBar.2 + 1) : Int × Nat) = topBar
  have upper : 0 ≤ topBar.1 ∧ topBar.1 ≤ height / 4 ∧
      (topBar.2 = bottomBar.2 ∨ bottomBar.2 = 0 ∧ topBar.2 = 1) := by
    split_ifs at topIs <;> subst topIs <;> dsimp only at lower ⊢ <;> omega
  refine ⟨⟨?_, ?_, ?_, ?_⟩, ?_⟩ <;> split_ifs <;> omega

theorem balance_bars_fit {heightLimit : Option Int}
    (limited : ∀ limit, heightLimit = some limit → limit ≤ height) (start : 0 ≤ startLine)
    (upper : startLine ≤ height / 8 * 2) (lower : height * 7 / 8 ≤ endLine)
    (bottom : endLine ≤ height) :
    BarsFit height (balanceBars heightLimit height startLine endLine).1
      (balanceBars heightLimit height startLine endLine).2 := by
  unfold balanceBars evenLine
  split_ifs with wide
  · cases heightLimit with
    | none =>
        constructor <;> dsimp only <;> omega
    | some limit =>
        have below := limited limit rfl
        dsimp only
        split_ifs <;> constructor <;> omega
  · constructor <;> dsimp only <;> omega

theorem limit_bars_fit {heightLimit : Option Int} (tall : 288 ≤ height)
    (limited : ∀ limit, heightLimit = some limit → limit ≤ height) (start : 0 ≤ startLine)
    (frame : endLine ≤ height) :
    BarsFit height (limitBars heightLimit height startLine endLine).1
      (limitBars heightLimit height startLine endLine).2 := by
  have clipped : 0 ≤ (if height / 8 * 2 < startLine then height / 8 * 2 else startLine) ∧
      (if height / 8 * 2 < startLine then height / 8 * 2 else startLine) ≤ height / 8 * 2 := by
    split_ifs <;> omega
  have raised : height * 7 / 8 ≤ (if endLine < height * 7 / 8 then height * 7 / 8 else endLine) ∧
      (if endLine < height * 7 / 8 then height * 7 / 8 else endLine) ≤ height := by
    split_ifs <;> omega
  obtain ⟨top, upper, lower, bottom⟩ :=
    balance_bars_fit limited clipped.1 clipped.2 raised.1 raised.2
  unfold limitBars
  dsimp only
  generalize balanceBars heightLimit height _ _ = balanced at top upper lower bottom
  split_ifs <;> constructor <;> dsimp only <;> omega

theorem compensate_overscan_fit (overscanCompensate : Int) (tall : 288 ≤ height)
    (fits : BarsFit height startLine endLine) :
    BarsFit height (compensateOverscan overscanCompensate height startLine endLine).1
      (compensateOverscan overscanCompensate height startLine endLine).2 := by
  obtain ⟨top, upper, lower, bottom⟩ := fits
  unfold compensateOverscan
  split_ifs with compensated
  · have positive : 0 ≤ height * overscanCompensate / 2000 :=
      Int.ediv_nonneg (Int.mul_nonneg (by omega) (Int.le_of_lt compensated)) (by decide)
    generalize height * overscanCompensate / 2000 = h at positive
    dsimp only
    split_ifs <;> constructor <;> omega
  · exact ⟨top, upper, lower, bottom⟩

theorem crop_bars_fit {stabilize : Bool} {overscanCompensate : Int} {heightLimit : Option Int}
    (tall : 288 ≤ height) (limited : ∀ limit, heightLimit = some limit → limit ≤ height)
    (start : 0 ≤ startLine) (half : height / 2 ≤ endLine) (frame : endLine ≤ height)
    (rounded : height % 2 = 0 ∨ stabilize = true ∧ overscanCompensate ≤ 0) :
    WindowFits height (cropBars stabilize overscanCompensate heightLimit height startLine endLine).1
      (cropBars stabilize overscanCompensate heightLimit height startLine endLine).2 := by
  have bars : ∃ first : Int × Int, cropBars stabilize overscanCompensate heightLimit height
        startLine endLine = (evenLine (compensateOverscan overscanCompensate height first.1 first.2).1,
          evenLine ((compensateOverscan overscanCompensate height first.1 first.2).2 + 1)) ∧
      BarsFit height first.1 first.2 ∧ (stabilize = true → first.2 < height) := by
    unfold cropBars
    cases stabilize with
    | true =>
        obtain ⟨fits, cut⟩ := stabilize_bars_fit tall half frame
        exact ⟨_, rfl, fits, fun _ => cut⟩
    | false =>
        exact ⟨_, rfl, limit_bars_fit tall limited start frame, fun stabilized => nomatch stabilized⟩
  obtain ⟨first, same, fits, cut⟩ := bars
  have below : (compensateOverscan overscanCompensate height first.1 first.2).2 < height ∨
      height % 2 = 0 := by
    rcases rounded with even | ⟨stabilized, uncompensated⟩
    · exact Or.inr even
    · left
      unfold compensateOverscan
      rw [if_neg (by omega)]
      exact cut stabilized
  obtain ⟨top, upper, lower, bottom⟩ := compensate_overscan_fit overscanCompensate tall fits
  rw [same]
  unfold evenLine
  constructor <;> dsimp only <;> omega

end Window

end Xineliboutput.Post
