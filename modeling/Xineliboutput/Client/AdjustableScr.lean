import Mathlib.Data.Rat.Floor
import Mathlib.Tactic.Ring
import Mathlib.Tactic.Linarith
import Mathlib.Tactic.Positivity
import Xineliboutput.Client.PlaybackSpeed
import Xineliboutput.Foundation.ClockReadings

/-!
# The adjustable clock of the engine

`xine/adjustable_scr.c`, with rational numbers in place of floating point. Between two
operations the reading is an affine function of the time. `set_pivot` moves the base of
that function to the present before anything changes, and rounds the reading down to a
whole tick as every reading is rounded. Every function holds the lock throughout.
-/

namespace Xineliboutput.Client

open Xineliboutput.Foundation

set_option autoImplicit false

/-- The cast of a floating point number to an integer: toward zero. -/
def truncate (value : ℚ) : Int := if 0 ≤ value then ⌊value⌋ else ⌈value⌉

/-- `scr_impl_t`; the start of buffering is only logged. -/
structure Scr where
  curTime : Timeval
  curPts : Int
  xineSpeed : Int
  scrSpeedBase : Int
  speedFactor : ℚ
  speedTuning : ℚ
  buffering : Bool

namespace Scr

variable (scr : Scr)

/-- `pts_calc` -/
def ptsCalc (now : Timeval) : ℚ :=
  (now.sec - scr.curTime.sec : ℤ) * scr.speedFactor +
    (now.usec.val - scr.curTime.usec.val : ℤ) * scr.speedFactor / 1000000

def setPivot (now : Timeval) : Scr :=
  if scr.buffering then { scr with curTime := now }
  else { scr with curTime := now, curPts := truncate (scr.curPts + scr.ptsCalc now) }

/-- `scr_get_current` -/
def getCurrent (now : Timeval) : Int :=
  if scr.buffering then scr.curPts else truncate (scr.curPts + scr.ptsCalc now)

/-- What is assigned to `speed_factor`. -/
def factorOf (xineSpeed scrSpeedBase : Int) (speedTuning : ℚ) : ℚ :=
  xineSpeed * scrSpeedBase / (1 * (fineSpeedNormal : ℤ)) * speedTuning

/-- `scr_set_fine_speed` -/
def setFineSpeed (now : Timeval) (speed : Int) : Scr :=
  let pivoted := scr.setPivot now
  { pivoted with
    xineSpeed := speed
    speedFactor := factorOf speed pivoted.scrSpeedBase pivoted.speedTuning }

/-- `adjustable_scr_speed_tuning` -/
def setSpeedTuning (now : Timeval) (factor : ℚ) : Scr :=
  let pivoted := scr.setPivot now
  { pivoted with
    speedTuning := factor
    speedFactor := factorOf pivoted.xineSpeed pivoted.scrSpeedBase factor }

/-- `adjustable_scr_speed_base` -/
def setSpeedBase (now : Timeval) (hz : Int) : Scr :=
  let pivoted := scr.setPivot now
  { pivoted with
    scrSpeedBase := hz
    speedFactor := factorOf pivoted.xineSpeed hz pivoted.speedTuning }

/-- `adjustable_scr_set_buffering` -/
def setBuffering (now : Timeval) (on : Bool) : Scr :=
  if on then
    if !scr.buffering then { scr.setPivot now with buffering := true } else scr
  else if scr.buffering then { scr.setPivot now with buffering := false } else scr

/-- `adjustable_scr_jump` -/
def jump (now : Timeval) (pts : Int) : Scr :=
  let pivoted := scr.setPivot now
  { pivoted with curPts := pivoted.curPts + pts }

/-- `scr_adjust` -/
def adjust (now : Timeval) (vpts : Int) : Scr :=
  { scr with curTime := now, curPts := vpts }

/-- `scr_start` -/
def start (now : Timeval) (startVpts : Int) : Scr :=
  (scr.adjust now startVpts).setFineSpeed now fineSpeedNormal

/-- `adjustable_scr_start`; what `calloc` leaves is zero. -/
def initial (now : Timeval) (time : Int) : Scr :=
  let zero : Scr := ⟨⟨0, 0⟩, 0, 0, 90000, 0, 0, false⟩
  ((zero.setSpeedTuning now 1).setFineSpeed now speedPause).start now time

inductive Operation where
  | getCurrent
  | setFineSpeed (speed : Int)
  | setSpeedTuning (factor : ℚ)
  | setSpeedBase (hz : Int)
  | setBuffering (on : Bool)

def perform (scr : Scr) : Timeval × Operation → Scr
  | (_, .getCurrent) => scr
  | (now, .setFineSpeed speed) => scr.setFineSpeed now speed
  | (now, .setSpeedTuning factor) => scr.setSpeedTuning now factor
  | (now, .setSpeedBase hz) => scr.setSpeedBase now hz
  | (now, .setBuffering on) => scr.setBuffering now on

end Scr

/-! ## The reading between and across operations -/

theorem truncate_int (value : Int) : truncate value = value := by
  unfold truncate
  split <;> simp

theorem truncate_mono {first second : ℚ} (ordered : first ≤ second) :
    truncate first ≤ truncate second := by
  unfold truncate
  by_cases positive : 0 ≤ first
  · rw [if_pos positive, if_pos (positive.trans ordered)]
    exact Int.floor_mono ordered
  · rw [if_neg positive]
    by_cases positive2 : 0 ≤ second
    · rw [if_pos positive2]
      have below : ⌈first⌉ ≤ 0 := Int.ceil_le.mpr (by simpa using (not_le.mp positive).le)
      have above : 0 ≤ ⌊second⌋ := Int.floor_nonneg.mpr positive2
      exact below.trans above
    · rw [if_neg positive2]
      exact Int.ceil_mono ordered

namespace Scr

theorem pts_calc_eq (scr : Scr) (now : Timeval) :
    scr.ptsCalc now =
      (now.micros - scr.curTime.micros : ℤ) * (scr.speedFactor / 1000000) := by
  simp only [ptsCalc, Timeval.micros]
  push_cast
  ring

theorem pts_calc_self (scr : Scr) : scr.ptsCalc scr.curTime = 0 := by
  simp [pts_calc_eq]

theorem get_current_pivot (scr : Scr) : scr.getCurrent scr.curTime = scr.curPts := by
  unfold getCurrent
  split
  · rfl
  · rw [pts_calc_self, add_zero, truncate_int]

theorem set_pivot_time (scr : Scr) (now : Timeval) : (scr.setPivot now).curTime = now := by
  unfold setPivot
  split <;> rfl

theorem set_pivot_pts (scr : Scr) (now : Timeval) :
    (scr.setPivot now).curPts = scr.getCurrent now := by
  unfold setPivot getCurrent
  split <;> rfl

theorem pivoted_reading {scr next : Scr} {now : Timeval}
    (time : next.curTime = (scr.setPivot now).curTime)
    (pts : next.curPts = (scr.setPivot now).curPts) :
    next.getCurrent now = scr.getCurrent now := by
  have here := get_current_pivot next
  rw [time, pts, set_pivot_time, set_pivot_pts] at here
  exact here

theorem perform_reading (scr : Scr) (label : Timeval × Operation) :
    (scr.perform label).getCurrent label.1 = scr.getCurrent label.1 := by
  obtain ⟨now, operation⟩ := label
  cases operation with
  | getCurrent => rfl
  | setFineSpeed speed => exact pivoted_reading rfl rfl
  | setSpeedTuning factor => exact pivoted_reading rfl rfl
  | setSpeedBase hz => exact pivoted_reading rfl rfl
  | setBuffering on =>
      simp only [perform, setBuffering]
      split
      · split
        · exact pivoted_reading rfl rfl
        · rfl
      · split
        · exact pivoted_reading rfl rfl
        · rfl

theorem get_current_mono {scr : Scr} (forward : 0 ≤ scr.speedFactor) {now later : Timeval}
    (ordered : now.micros ≤ later.micros) : scr.getCurrent now ≤ scr.getCurrent later := by
  unfold getCurrent
  split
  · exact le_refl _
  · apply truncate_mono
    have elapsed : ((now.micros - scr.curTime.micros : ℤ) : ℚ) ≤
        ((later.micros - scr.curTime.micros : ℤ) : ℚ) := by
      exact_mod_cast Int.sub_le_sub_right ordered _
    have rate : 0 ≤ scr.speedFactor / 1000000 := by positivity
    rw [pts_calc_eq, pts_calc_eq]
    have onward := mul_le_mul_of_nonneg_right elapsed rate
    linarith

theorem get_current_frozen {scr : Scr} (frozen : scr.buffering = true) (now later : Timeval) :
    scr.getCurrent now = scr.getCurrent later := by
  simp [getCurrent, frozen]

/-- The clock after the first operations of a sequence. -/
abbrev after (scr : Scr) (operations : List (Timeval × Operation)) (count : Nat) : Scr :=
  Clock.stateAfter perform scr operations count

abbrev readingAt (scr : Scr) (operations : List (Timeval × Operation)) (place : Nat)
    (within : place < operations.length) : Int :=
  Clock.readingAt perform getCurrent scr operations place within

/-- What a clock is to do: no operation changes the reading at its instant, the reading
does not decrease as long as no speed is negative, and it stands still while buffering. -/
structure Lawful (scr : Scr) (operations : List (Timeval × Operation)) : Prop where
  kept : ∀ place (within : place < operations.length),
    (scr.after operations (place + 1)).getCurrent operations[place].1 =
      scr.readingAt operations place within
  forward : ∀ first last (ordered : first ≤ last) (within : last < operations.length),
    (∀ count, first < count → count ≤ last → 0 ≤ (scr.after operations count).speedFactor) →
      scr.readingAt operations first (Nat.lt_of_le_of_lt ordered within) ≤
        scr.readingAt operations last within
  frozen : ∀ first last (ordered : first ≤ last) (within : last < operations.length),
    (∀ count, first < count → count ≤ last → (scr.after operations count).buffering = true) →
      scr.readingAt operations first (Nat.lt_of_le_of_lt ordered within) =
        scr.readingAt operations last within

theorem lawful (scr : Scr) {operations : List (Timeval × Operation)}
    (inOrder : InOrder operations) : scr.Lawful operations := by
  have kept : ∀ place (within : place < operations.length),
      (scr.after operations (place + 1)).getCurrent operations[place].1 =
        scr.readingAt operations place within := by
    intro place within
    rw [after, Clock.state_after_succ _ _ within]
    exact perform_reading _ _
  refine ⟨kept, ?_, ?_⟩
  · intro first last ordered within speeds
    apply Clock.readings_related (· ≤ ·) le_refl le_trans ordered within
    · exact fun place inside _ _ => kept place inside
    · intro place inside reached before
      exact get_current_mono (speeds (place + 1) (by omega) (by omega))
        (inOrder.next place inside)
  · intro first last ordered within buffering
    apply Clock.readings_related (· = ·) (fun _ => rfl) Eq.trans ordered within
    · exact fun place inside _ _ => kept place inside
    · intro place inside reached before
      exact get_current_frozen (buffering (place + 1) (by omega) (by omega)) _ _

end Scr
end Xineliboutput.Client
