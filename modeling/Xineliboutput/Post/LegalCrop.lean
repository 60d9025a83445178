import Xineliboutput.Post.FrameAnalysis

/-!
# Legal crops

Which detected bars `analyze_frame` turns into lines inside the frame that crop no more than
a quarter of it. Of the four classes of `stabilize`, a top bar of 20:9 above a bottom bar of
14:9 is the one pair that takes more; and the last line of an odd height is rounded up.
-/

namespace Xineliboutput.Post

set_option autoImplicit false

/-- The lines are even for even heights, lie in the frame in their order, and crop at most a
quarter of it, up to two lines. -/
structure LegalCrop (height : Int) (window : Int × Int) : Prop where
  evenTop : height % 2 = 0 → window.1 % 2 = 0
  evenBottom : height % 2 = 0 → window.2 % 2 = 0
  top : 0 ≤ window.1
  ordered : window.1 < window.2
  bottom : window.2 ≤ height
  quarter : window.1 + (height - window.2) ≤ height / 4 + 2

/-! ## The bars that go wrong -/

section Conditions

variable (stabilize : Bool) (overscanCompensate : Int) (heightLimit : Option Int)
  (height startLine endLine : Int)

def overscanLines : Int := height * overscanCompensate / 2000

/-- The end line, or the height limit where the picture is moved to the center above it. -/
def limitedEndLine : Int :=
  match heightLimit with
  | some limit =>
      if endLine < limit ∧ height / 8 < startLine ∧
          height / 4 < min startLine (height / 8 * 2) + (height - max endLine (height * 7 / 8)) then
        limit
      else endLine
  | none => endLine

/-- The window reaches the last line of an odd height. -/
def RoundsUp : Prop :=
  height % 2 = 1 ∧
    if stabilize then
      height - endLine < height / 32 ∧ height / 32 ≤ startLine ∧
        1 ≤ overscanLines overscanCompensate height
    else
      height - 6 ≤ limitedEndLine heightLimit height startLine endLine ∨
        height - limitedEndLine heightLimit height startLine endLine ≤
            overscanLines overscanCompensate height ∧
          8 < startLine ∧ height - limitedEndLine heightLimit height startLine endLine ≤ startLine

def WideAboveNarrow : Prop :=
  height * 3 / 16 ≤ startLine ∧ height / 32 ≤ height - endLine ∧
    height - endLine < height * 3 / 32

/-- Such bars, where overscan compensation does not give back the sixteenth of the height that
is too much, but for two lines. -/
def CropsTooMuch : Prop :=
  stabilize = true ∧ WideAboveNarrow height startLine endLine ∧
    2 < height - height * 15 / 16 - 2 * overscanLines overscanCompensate height -
        (height / 4 - overscanLines overscanCompensate height) % 2 +
      (height * 15 / 16 + overscanLines overscanCompensate height) % 2

end Conditions

/-! ## Overscan -/

section Overscan

variable {overscanCompensate height startLine endLine : Int}

theorem overscan_lines_range (positive : 0 ≤ height)
    (range : 0 ≤ overscanCompensate ∧ overscanCompensate ≤ 100) :
    0 ≤ overscanLines overscanCompensate height ∧
      overscanLines overscanCompensate height * 20 ≤ height := by
  have lower : 0 ≤ height * overscanCompensate := Int.mul_nonneg positive range.1
  have upper : height * overscanCompensate ≤ height * 100 :=
    Int.mul_le_mul_of_nonneg_left range.2 positive
  unfold overscanLines
  omega

theorem compensate_overscan_eq (ranged : 0 ≤ overscanCompensate)
    (top : 0 ≤ startLine) (bottom : endLine ≤ height) :
    compensateOverscan overscanCompensate height startLine endLine =
      (startLine - min (overscanLines overscanCompensate height) (min startLine (height - endLine)),
        endLine +
          min (overscanLines overscanCompensate height) (min startLine (height - endLine))) := by
  unfold compensateOverscan
  split_ifs with compensated
  · have least : (if height - endLine < if startLine < overscanLines overscanCompensate height
          then startLine else overscanLines overscanCompensate height
        then height - endLine else if startLine < overscanLines overscanCompensate height
          then startLine else overscanLines overscanCompensate height) =
        min (overscanLines overscanCompensate height) (min startLine (height - endLine)) := by
      split_ifs <;> omega
    rw [← least]
    rfl
  · have none : overscanLines overscanCompensate height = 0 := by
      obtain rfl : overscanCompensate = 0 := by omega
      simp [overscanLines]
    rw [none]
    congr 1 <;> omega

end Overscan

/-! ## The four classes -/

section Classes

variable {height startLine endLine : Int}

/-- The bottom bar decides the end line, the top bar the start line; a wide bottom bar moves the
end line down again. -/
theorem stabilize_bars_classes (tall : 288 ≤ height) (half : height / 2 ≤ endLine) :
    ∃ first second : Int, stabilizeBars height startLine endLine = (first, second) ∧
      (height - endLine < height / 32 ∧ second = height - 1 ∨
        height / 32 ≤ height - endLine ∧ height - endLine < height * 3 / 32 ∧
          second = height * 15 / 16 - 1 ∨
        height * 3 / 32 ≤ height - endLine ∧ height - endLine < height * 3 / 16 ∧
          second = height * 7 / 8 - 1 ∨
        height * 3 / 16 ≤ height - endLine ∧ second = height * 3 / 4 - 1 + height / 8) ∧
      (startLine < height / 32 ∧ first = 0 ∨
        height / 32 ≤ startLine ∧ startLine < height * 3 / 32 ∧ first = height / 16 ∨
        height * 3 / 32 ≤ startLine ∧
          (startLine < height * 3 / 16 ∨ height * 3 / 32 ≤ height - endLine) ∧
          first = height / 8 ∨
        height * 3 / 16 ≤ startLine ∧ height - endLine < height * 3 / 32 ∧ first = height / 4) := by
  unfold stabilizeBars
  dsimp only
  generalize bottomIs : (if height - endLine < height / 32 then (height - 1, 0)
    else if height - endLine < height * 3 / 32 then (height * 15 / 16 - 1, 0)
    else if height - endLine < height * 3 / 16 then (height * 7 / 8 - 1, 1)
    else (height * 3 / 4 - 1, 2) : Int × Nat) = bottomBar
  generalize topIs : (if startLine < height / 32 then (0, bottomBar.2)
    else if startLine < height * 3 / 32 then (height / 16, bottomBar.2)
    else if startLine < height * 3 / 16 ∨ bottomBar.2 ≠ 0 then (height / 8, bottomBar.2)
    else (height / 4, bottomBar.2 + 1) : Int × Nat) = topBar
  refine ⟨_, _, rfl, ?_, ?_⟩
  · split_ifs at bottomIs <;> subst bottomIs <;> dsimp only at topIs <;>
      split_ifs at topIs <;> subst topIs <;> dsimp only <;> simp <;> omega
  · split_ifs at bottomIs <;> subst bottomIs <;> dsimp only at topIs <;>
      split_ifs at topIs <;> subst topIs <;> dsimp only <;> simp <;> omega

end Classes

/-! ## The window -/

section Window

variable {overscanCompensate height first second : Int}

theorem compensated_legal_iff (tall : 288 ≤ height)
    (range : 0 ≤ overscanCompensate ∧ overscanCompensate ≤ 100)
    (fits : BarsFit height first second) :
    LegalCrop height
        (evenLine (compensateOverscan overscanCompensate height first second).1,
          evenLine ((compensateOverscan overscanCompensate height first second).2 + 1)) ↔
      ¬(height % 2 = 1 ∧ height - second ≤ overscanLines overscanCompensate height ∧
          height - second ≤ first) ∧
        evenLine (first -
            min (overscanLines overscanCompensate height) (min first (height - second))) +
          (height - evenLine (second +
            min (overscanLines overscanCompensate height) (min first (height - second)) + 1)) ≤
          height / 4 + 2 := by
  obtain ⟨top, upper, lower, bottom⟩ := fits
  obtain ⟨some', few⟩ := overscan_lines_range (by omega : 0 ≤ height) range
  rw [compensate_overscan_eq range.1 top bottom]
  generalize overscanLines overscanCompensate height = lines at some' few
  unfold evenLine
  dsimp only
  constructor
  · intro legal
    have inside := legal.bottom
    have quarter := legal.quarter
    dsimp only at inside quarter
    refine ⟨?_, quarter⟩
    omega
  · rintro ⟨inside, quarter⟩
    constructor <;> dsimp only <;> omega

variable {startLine endLine : Int} {heightLimit : Option Int}

theorem given_back_le (first second : Int) {lines : Int} (some' : 0 ≤ lines) :
    evenLine (first - lines) + (height - evenLine (second + lines + 1)) ≤
      evenLine first + (height - evenLine (second + 1)) := by
  unfold evenLine
  omega

theorem stabilized_legal_iff (tall : 288 ≤ height)
    (range : 0 ≤ overscanCompensate ∧ overscanCompensate ≤ 100)
    (half : height / 2 ≤ endLine) (frame : endLine ≤ height) :
    LegalCrop height (cropBars true overscanCompensate heightLimit height startLine endLine) ↔
      ¬RoundsUp true overscanCompensate heightLimit height startLine endLine ∧
        ¬CropsTooMuch true overscanCompensate height startLine endLine := by
  obtain ⟨first, second, same, bottomClass, topClass⟩ :=
    @stabilize_bars_classes height startLine endLine tall half
  have fits := (@stabilize_bars_fit height startLine endLine tall half frame).1
  obtain ⟨some', few⟩ := overscan_lines_range (by omega : 0 ≤ height) range
  rw [same] at fits
  have window : cropBars true overscanCompensate heightLimit height startLine endLine =
      (evenLine (compensateOverscan overscanCompensate height first second).1,
        evenLine ((compensateOverscan overscanCompensate height first second).2 + 1)) := by
    unfold cropBars
    rw [if_pos rfl, same]
  rw [window, compensated_legal_iff tall range fits]
  unfold RoundsUp CropsTooMuch WideAboveNarrow
  rw [if_pos rfl]
  generalize overscanLines overscanCompensate height = lines at some' few
  have last : height - second ≤ lines ∧ height - second ≤ first ↔
      height - endLine < height / 32 ∧ height / 32 ≤ startLine ∧ 1 ≤ lines := by
    rcases bottomClass with bottomClass | bottomClass | bottomClass | bottomClass <;>
      rcases topClass with topClass | topClass | topClass | topClass <;> omega
  rw [last]
  apply and_congr Iff.rfl
  simp only [true_and]
  by_cases wide : height * 3 / 16 ≤ startLine ∧ height / 32 ≤ height - endLine ∧
      height - endLine < height * 3 / 32
  · have firstIs : first = height / 4 := by omega
    have secondIs : second = height * 15 / 16 - 1 := by omega
    have least : min lines (min first (height - second)) = lines := by omega
    rw [least, firstIs, secondIs]
    simp only [wide, true_and]
    unfold evenLine
    omega
  · simp only [wide, false_and, not_false_iff, iff_true]
    refine Int.le_trans (given_back_le first second (by omega)) ?_
    unfold evenLine
    rcases bottomClass with bottomClass | bottomClass | bottomClass | bottomClass <;>
      rcases topClass with topClass | topClass | topClass | topClass <;> omega

theorem balance_bars_cases (heightLimit : Option Int) (height startLine endLine : Int) :
    ¬(height / 8 < startLine ∧ height / 4 < startLine + (height - endLine)) ∧
        balanceBars heightLimit height startLine endLine = (startLine, endLine) ∨
      (height / 8 < startLine ∧ height / 4 < startLine + (height - endLine)) ∧
        ∃ first : Int, balanceBars heightLimit height startLine endLine =
            (first, heightLimit.elim endLine (max endLine)) ∧
          height / 4 ≤ first + (height - heightLimit.elim endLine (max endLine)) ∧
          first + (height - heightLimit.elim endLine (max endLine)) ≤ height / 4 + 1 := by
  unfold balanceBars
  by_cases wide : height / 8 < startLine ∧ height / 4 < startLine + (height - endLine)
  · rw [if_pos wide]
    refine Or.inr ⟨wide, ?_⟩
    cases heightLimit with
    | none =>
        dsimp only [Option.elim]
        refine ⟨startLine - evenLine (startLine + (height - endLine) - height / 4), ?_, ?_⟩
        · rw [Int.sub_zero, Int.add_zero]
        · unfold evenLine
          omega
    | some limit =>
        have reserved : endLine + (if 0 < limit - endLine then limit - endLine else 0) =
            max endLine limit := by
          split_ifs <;> omega
        dsimp only [Option.elim]
        refine ⟨startLine - (evenLine (startLine + (height - endLine) - height / 4) -
          (if 0 < limit - endLine then limit - endLine else 0)), ?_, ?_⟩
        · rw [reserved]
        · unfold evenLine
          split_ifs <;> omega
  · rw [if_neg wide]
    exact Or.inl ⟨wide, rfl⟩

/-- The end line of bars that are limited, and the start line where it matters. -/
theorem limit_bars_last (tall : 288 ≤ height) (start : 0 ≤ startLine)
    (frame : endLine + 5 ≤ height)
    (limited : ∀ limit, heightLimit = some limit → limit ≤ height)
    {lines : Int} (some' : 0 ≤ lines) (few : lines * 20 ≤ height) :
    height - (limitBars heightLimit height startLine endLine).2 ≤ lines ∧
        height - (limitBars heightLimit height startLine endLine).2 ≤
          (limitBars heightLimit height startLine endLine).1 ↔
      height - 6 ≤ limitedEndLine heightLimit height startLine endLine ∨
        height - limitedEndLine heightLimit height startLine endLine ≤ lines ∧ 8 < startLine ∧
          height - limitedEndLine heightLimit height startLine endLine ≤ startLine := by
  have clipped : (if height / 8 * 2 < startLine then height / 8 * 2 else startLine) =
      min startLine (height / 8 * 2) := by
    split_ifs <;> omega
  have raised : (if endLine < height * 7 / 8 then height * 7 / 8 else endLine) =
      max endLine (height * 7 / 8) := by
    split_ifs <;> omega
  unfold limitBars
  rw [clipped, raised]
  have balance := balance_bars_cases heightLimit height
    (min startLine (height / 8 * 2)) (max endLine (height * 7 / 8))
  have fits := balance_bars_fit limited
    (by omega : 0 ≤ min startLine (height / 8 * 2)) (by omega)
    (by omega : height * 7 / 8 ≤ max endLine (height * 7 / 8)) (by omega)
  dsimp only
  generalize balanceBars heightLimit height _ _ = balanced at balance fits
  obtain ⟨first, second⟩ := balanced
  obtain ⟨top, -, lower, bottom⟩ := fits
  dsimp only at top lower bottom ⊢
  have ends : ∀ bars : Int × Int, (if (if first ≤ 8 then 0 else first) < height / 12 ∨
        height * 11 / 12 < (if height - 6 ≤ second then height else second) then
      ((if first ≤ 8 then 0 else first), (if height - 6 ≤ second then height else second))
    else (if (if first ≤ 8 then 0 else first) < height / 8 then height / 8
        else if first ≤ 8 then 0 else first,
      if (if height - 6 ≤ second then height else second) < height * 7 / 8 then height * 7 / 8
        else if height - 6 ≤ second then height else second)) = bars →
      (height - bars.2 ≤ lines ∧ height - bars.2 ≤ bars.1 ↔
        height - 6 ≤ second ∨ height - second ≤ lines ∧ 8 < first ∧ height - second ≤ first) := by
    intro bars is
    split_ifs at is <;> subst is <;> dsimp only <;> omega
  rw [ends _ rfl]
  unfold limitedEndLine
  cases heightLimit with
  | none =>
      dsimp only [Option.elim] at balance ⊢
      simp only [Prod.mk.injEq] at balance
      rcases balance with ⟨narrow, rfl, rfl⟩ | ⟨wide, first', ⟨rfl, rfl⟩, low, high⟩
      · omega
      · omega
  | some limit =>
      have below := limited limit rfl
      dsimp only [Option.elim] at balance ⊢
      simp only [Prod.mk.injEq] at balance
      rcases balance with ⟨narrow, rfl, rfl⟩ | ⟨wide, first', ⟨rfl, rfl⟩, low, high⟩
      · split_ifs with moved
        · omega
        · omega
      · split_ifs with moved
        · omega
        · omega

theorem limit_bars_quarter (tall : 288 ≤ height) (start : 0 ≤ startLine)
    (frame : endLine ≤ height) (limited : ∀ limit, heightLimit = some limit → limit ≤ height) :
    (limitBars heightLimit height startLine endLine).1 +
      (height - (limitBars heightLimit height startLine endLine).2) ≤ height / 4 + 1 := by
  have clipped : 0 ≤ (if height / 8 * 2 < startLine then height / 8 * 2 else startLine) ∧
      (if height / 8 * 2 < startLine then height / 8 * 2 else startLine) ≤ height / 8 * 2 := by
    split_ifs <;> omega
  have raised : height * 7 / 8 ≤ (if endLine < height * 7 / 8 then height * 7 / 8 else endLine) ∧
      (if endLine < height * 7 / 8 then height * 7 / 8 else endLine) ≤ height := by
    split_ifs <;> omega
  have fits := balance_bars_fit limited clipped.1 clipped.2 raised.1 raised.2
  unfold limitBars
  generalize (if height / 8 * 2 < startLine then height / 8 * 2 else startLine) = upper at *
  generalize (if endLine < height * 7 / 8 then height * 7 / 8 else endLine) = lower at *
  have taken : (balanceBars heightLimit height upper lower).1 +
      (height - (balanceBars heightLimit height upper lower).2) ≤ height / 4 + 1 := by
    rcases balance_bars_cases heightLimit height upper lower with
      ⟨narrow, same⟩ | ⟨wide, first, same, low, high⟩
    · rw [same]
      dsimp only
      omega
    · rw [same]
      exact high
  have bottom := fits.bottom
  have top := fits.top
  dsimp only
  generalize balanceBars heightLimit height upper lower = balanced at *
  split_ifs <;> dsimp only <;> omega

theorem limited_legal_iff (tall : 288 ≤ height)
    (range : 0 ≤ overscanCompensate ∧ overscanCompensate ≤ 100)
    (limited : ∀ limit, heightLimit = some limit → limit ≤ height)
    (start : 0 ≤ startLine) (frame : endLine + 5 ≤ height) :
    LegalCrop height (cropBars false overscanCompensate heightLimit height startLine endLine) ↔
      ¬RoundsUp false overscanCompensate heightLimit height startLine endLine := by
  have fits := limit_bars_fit tall limited start (by omega : endLine ≤ height)
  have quarter := limit_bars_quarter tall start (by omega : endLine ≤ height) limited
  obtain ⟨some', few⟩ := overscan_lines_range (by omega : 0 ≤ height) range
  have last := limit_bars_last tall start frame limited some' few
  have window : cropBars false overscanCompensate heightLimit height startLine endLine =
      (evenLine (compensateOverscan overscanCompensate height
          (limitBars heightLimit height startLine endLine).1
          (limitBars heightLimit height startLine endLine).2).1,
        evenLine ((compensateOverscan overscanCompensate height
          (limitBars heightLimit height startLine endLine).1
          (limitBars heightLimit height startLine endLine).2).2 + 1)) := rfl
  rw [window, compensated_legal_iff tall range fits]
  obtain ⟨top, -, -, bottom⟩ := fits
  generalize limitBars heightLimit height startLine endLine = bars at top bottom quarter last ⊢
  have small : evenLine bars.1 + (height - evenLine (bars.2 + 1)) ≤ height / 4 + 2 := by
    unfold evenLine
    omega
  unfold RoundsUp
  rw [last, if_neg Bool.false_ne_true]
  apply and_iff_left
  exact Int.le_trans (given_back_le bars.1 bars.2 (by omega)) small

/-- The window of bars that an analysis function returns is legal, unless it is rounded up past
an odd height or a top bar of 20:9 is cropped together with a bottom bar of 14:9. -/
theorem detected_legal_iff {useAvardsAnalysis stabilize : Bool} {format : Option StandardFormat}
    {height first last : Nat} {picture : Picture} (tall : 288 ≤ height)
    (found : detectBars useAvardsAnalysis format height picture = some (first, last))
    (range : 0 ≤ overscanCompensate ∧ overscanCompensate ≤ 100)
    (limited : ∀ limit, heightLimit = some limit → limit ≤ height) :
    LegalCrop height (cropBars stabilize overscanCompensate heightLimit height first last) ↔
      ¬RoundsUp stabilize overscanCompensate heightLimit height first last ∧
        ¬CropsTooMuch stabilize overscanCompensate height first last := by
  obtain ⟨-, half, frame⟩ := detect_bars_range tall found
  cases stabilize with
  | true => exact stabilized_legal_iff (by omega) range (by omega) (by omega)
  | false =>
      rw [limited_legal_iff (by omega) range limited (by omega) (by omega)]
      exact (and_iff_left fun crops => Bool.false_ne_true crops.1).symm

end Window

/-! ## Frames -/

/-- Lines of a frame that is black above `top` and below `bottom`. -/
def barredPicture (top bottom : Nat) : Picture where
  topBlank y := decide (y < top)
  bottomBlank y := decide (bottom < y)
  centerBlank := false

/-- The bars of a letterboxed picture. -/
theorem detected_legal_iff_letterbox :
    LegalCrop (576 : Nat) (cropBars true 0 none (576 : Nat) (72 : Nat) (503 : Nat)) ↔
      ¬RoundsUp true 0 none (576 : Nat) (72 : Nat) (503 : Nat) ∧
        ¬CropsTooMuch true 0 (576 : Nat) (72 : Nat) (503 : Nat) := by
  have found : detectBars false (some .yv12) 576 (barredPicture 72 503) = some (72, 503) := by
    decide
  exact detected_legal_iff (by decide) found (by decide) nofun

theorem wide_bar_crops_too_much :
    ¬∀ (useAvardsAnalysis stabilize : Bool) (format : Option StandardFormat) (height : Nat)
      (picture : Picture) (first last : Nat) (overscanCompensate : Int) (heightLimit : Option Int),
      288 ≤ height → height ≤ 576 →
      detectBars useAvardsAnalysis format height picture = some (first, last) →
      0 ≤ overscanCompensate → overscanCompensate ≤ 100 →
      (∀ limit, heightLimit = some limit → limit ≤ height) →
      LegalCrop height (cropBars stabilize overscanCompensate heightLimit height first last) := by
  intro claimed
  have legal := claimed false true (some .yv12) 576 (barredPicture 144 540) 144 539 0 none
    (by decide) (by decide) (by decide) (by decide) (by decide) nofun
  exact absurd legal.quarter (by decide)

end Xineliboutput.Post
