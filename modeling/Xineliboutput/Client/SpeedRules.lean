import Xineliboutput.Client.PlaybackSpeed
import Xineliboutput.Foundation.Machine
import Mathlib.Tactic.SplitIfs

/-!
# Rules of the playback speed

The rules hold as long as no message leaves a guard behind with the state half
changed: still mode is not left once live mode is on, and a pause is not undone when
trick speed is refused.
-/

namespace Xineliboutput.Client

open Xineliboutput.Foundation

set_option autoImplicit false

structure SpeedRules (this : Playback) : Prop where
  modes : ¬(this.liveMode = true ∧ this.stillMode = true)
  tuning : this.isTrickspeed = true → this.scrTuning = scrTuningOff
  paused : this.fineSpeed = speedPause ↔ this.isPaused = true ∨ this.scrTuning = scrTuningPaused

/-- The step keeps the rules: live mode is not switched on in still mode, and no trick
speed is set in live mode during a pause that is not the clock's own. -/
def KeepsRules (this : Playback) : SpeedStep → Prop
  | .live onoff => ¬(onoff % 2 = 1 ∧ this.stillMode = true)
  | .trickSpeed speed _ =>
      ¬((1 < speed ∨ speed < -1) ∧ -64 ≤ speed ∧ speed ≤ 64 ∧ this.liveMode = true ∧
        this.isPaused = true ∧ this.scrTuning ≠ scrTuningPaused)
  | .still _ | .adjustScrSpeed _ | .adjustRealtimeSpeed _ | .setPaused | .countFrame _ => True

def RulesThroughout (steps : List SpeedStep) : Prop :=
  ∀ count ≤ steps.length, ∀ this,
    Machine.follow performSpeed Playback.init (steps.take count) = some this → SpeedRules this

/-! ## Tuning -/

theorem init_rules : SpeedRules Playback.init := by
  refine ⟨?_, ?_, ?_⟩
  · rintro ⟨live, -⟩
    cases live
  · intro _
    rfl
  · decide

theorem reset_tuning_cases (this : Playback) :
    (resetScrTuning this = this ∧ (this.scrTuning = scrTuningOff ∨ this.isTrickspeed = true ∨
        this.isPaused = true)) ∨
      (this.isTrickspeed = false ∧ this.isPaused = false ∧
        resetScrTuning this =
          { this with scrTuning := scrTuningOff, fineSpeed := fineSpeedNormal }) := by
  unfold resetScrTuning
  by_cases off : this.scrTuning = scrTuningOff
  · rw [if_neg (not_not.mpr off)]
    exact Or.inl ⟨rfl, Or.inl off⟩
  · rw [if_pos off]
    cases trick : this.isTrickspeed with
    | true => exact Or.inl ⟨rfl, Or.inr (Or.inl rfl)⟩
    | false =>
        cases paused : this.isPaused with
        | true => exact Or.inl ⟨rfl, Or.inr (Or.inr rfl)⟩
        | false =>
            refine Or.inr ⟨rfl, rfl, ?_⟩
            have speed : (if this.fineSpeed ≠ fineSpeedNormal ∧ false = false then fineSpeedNormal
                else this.fineSpeed) = fineSpeedNormal := by
              split <;> simp_all
            rw [if_neg Bool.false_ne_true, if_neg Bool.false_ne_true, speed]

theorem normal_rules {this : Playback} (modes : ¬(this.liveMode = true ∧ this.stillMode = true))
    (off : this.scrTuning = scrTuningOff) (paused : this.isPaused = false)
    (plays : this.fineSpeed ≠ speedPause) : SpeedRules this := by
  refine ⟨modes, fun _ => off, ?_⟩
  rw [paused, off]
  constructor
  · intro pause
    exact absurd pause plays
  · rintro (pause | pause) <;> cases pause

theorem reset_tuning_rules {this : Playback} (rules : SpeedRules this) :
    SpeedRules (resetScrTuning this) := by
  rcases reset_tuning_cases this with ⟨same, -⟩ | ⟨-, unpaused, changed⟩
  · rw [same]
    exact rules
  · rw [changed]
    exact normal_rules rules.modes rfl unpaused (by decide : fineSpeedNormal ≠ speedPause)

theorem set_paused_rules {this : Playback} (rules : SpeedRules this) :
    SpeedRules (scrTuningSetPaused this) := by
  unfold scrTuningSetPaused
  split
  · exact rules
  · rename_i untricked
    split
    · exact rules
    · split
      · exact rules
      · split
        · refine ⟨rules.modes, fun trick => absurd trick untricked, ?_⟩
          have pause : (if this.fineSpeed ≠ speedPause then speedPause else this.fineSpeed) =
              speedPause := by
            split <;> simp_all
          constructor
          · intro _
            exact Or.inr rfl
          · intro _
            exact pause
        · exact rules

theorem smooth_tuning_bound (fillLevel : UInt32) {this : Playback}
    (running : this.scrTuning ≠ scrTuningPaused) :
    (smoothTuning fillLevel this).1 ≠ scrTuningPaused := by
  unfold smoothTuning
  dsimp only
  split
  · split
    · change max (min _ 2) (-2) ≠ (-10000 : Int)
      omega
    · exact running
  · exact running

theorem new_tuning_runs (around : Surroundings) (numUsed numFree : UInt32) {this : Playback}
    (running : this.scrTuning ≠ scrTuningPaused) :
    (newTuning around numUsed numFree this).1 ≠ scrTuningPaused := by
  have off : scrTuningOff ≠ scrTuningPaused := by decide
  unfold newTuning
  dsimp only
  by_cases sync : around.scrLiveSync = false
  · rw [if_pos sync]
    exact off
  · rw [if_neg sync]
    by_cases radio : around.noVideo = true
    · rw [if_pos radio]
      dsimp only
      split_ifs <;> decide
    · rw [if_neg radio]
      by_cases smooth : around.smoothScrTuning = true
      · rw [if_pos smooth]
        exact smooth_tuning_bound _ running
      · rw [if_neg smooth]
        dsimp only
        split_ifs
        · decide
        · decide
        · decide
        · decide
        · exact off
        · exact running

theorem adjust_levels_rules (around : Surroundings) (numUsed numFree : UInt32) {this : Playback}
    (rules : SpeedRules this) (untricked : this.isTrickspeed = false) :
    SpeedRules (adjustToLevels around numUsed numFree this) := by
  unfold adjustToLevels
  split
  · exact set_paused_rules rules
  · split
    · split
      · exact reset_tuning_rules ⟨rules.modes, rules.tuning, rules.paused⟩
      · exact rules
    · rename_i running
      split
      · rename_i normal
        have fresh := new_tuning_runs around numUsed numFree running
        refine ⟨rules.modes, ?_, ?_⟩
        · intro trick
          rw [untricked] at trick
          cases trick
        · have paused := rules.paused
          simp only [running, or_false, fresh] at paused ⊢
          exact paused
      · split
        · exact reset_tuning_rules rules
        · exact rules

theorem adjust_realtime_rules {around : Surroundings} {this next : Playback}
    (rules : SpeedRules this) (adjusted : vdrAdjustRealtimeSpeed around this = some next) :
    SpeedRules next := by
  unfold vdrAdjustRealtimeSpeed at adjusted
  split at adjusted
  · cases adjusted
    exact rules
  · split at adjusted
    · cases adjusted
      exact rules
    · rename_i untricked
      split at adjusted
      · cases adjusted
        exact rules
      · split at adjusted
        · cases adjusted
        · cases adjusted
          exact adjust_levels_rules around _ _ rules (Bool.eq_false_iff.mpr untricked)

theorem adjust_scr_rules {around : Surroundings} {this next : Playback} {needPause : Bool}
    (rules : SpeedRules this) (adjusted : adjustScrSpeed around this = some (next, needPause)) :
    SpeedRules next := by
  unfold adjustScrSpeed at adjusted
  split at adjusted
  · cases adjusted
    split
    · exact reset_tuning_rules rules
    · exact rules
  · split at adjusted
    · cases adjusted
      exact reset_tuning_rules rules
    · obtain ⟨_, realtime, same⟩ := Option.map_eq_some_iff.mp adjusted
      cases same
      exact adjust_realtime_rules rules realtime

theorem update_frames_rules {this : Playback} (rules : SpeedRules this) (type : FrameType) :
    SpeedRules (updateFrames type this) := by
  obtain ⟨modes, tuning, paused⟩ := rules
  unfold updateFrames
  split <;> cases type <;> exact ⟨modes, tuning, paused⟩

/-! ## Modes -/

/-- Still mode is changed unless the guard against live mode stands before it. -/
theorem still_mode_rules {this : Playback} (stillMode : Int) (rules : SpeedRules this) :
    SpeedRules (setStillMode stillMode this) := by
  unfold setStillMode
  split
  · exact rules
  · rename_i allowed
    dsimp only
    have changed : SpeedRules { this with
        stillMode := decide (stillMode ≠ 0), videoHasStill := decide (stillMode ≠ 0) } := by
      refine ⟨?_, rules.tuning, rules.paused⟩
      rintro ⟨live, still⟩
      exact allowed ⟨Or.inl (of_decide_eq_true still), live⟩
    have kept : ∀ other : Playback, SpeedRules other →
        SpeedRules { other with metronomStillMode := stillMode } :=
      fun other holds => ⟨holds.modes, holds.tuning, holds.paused⟩
    split
    · exact kept _ (reset_tuning_rules changed)
    · exact kept _ changed

theorem leave_still_mode (this : Playback) :
    (setStillMode 0 this).liveMode = this.liveMode ∧
      (setStillMode 0 this).stillMode = (this.liveMode && this.stillMode) ∧
      (setStillMode 0 this).isPaused = this.isPaused ∧
      (setStillMode 0 this).isTrickspeed = this.isTrickspeed ∧
      (setStillMode 0 this).scrTuning = this.scrTuning ∧
      (setStillMode 0 this).fineSpeed = this.fineSpeed := by
  unfold setStillMode
  cases live : this.liveMode <;> cases still : this.stillMode <;> simp [live, still]

/-- Live mode is switched on in still mode: both stay set. Otherwise the rules hold. -/
theorem live_mode_rules {this : Playback} (onoff : Int) (rules : SpeedRules this) :
    SpeedRules (setLiveMode onoff this) ↔ KeepsRules this (.live onoff) := by
  have switched : (if (if this.liveMode then 1 else 0) ≠ onoff then
      { this with liveMode := onoff % 2 = 1 } else this) =
        { this with liveMode := decide (onoff % 2 = 1) } := by
    by_cases same : (if this.liveMode then 1 else 0) ≠ onoff
    · rw [if_pos same]
    · rw [if_neg same, ← not_not.mp same]
      obtain ⟨live, still, paused, trick, tuning, i, b, p, buf, speed, has, m, t⟩ := this
      cases live <;> rfl
  unfold setLiveMode
  dsimp only
  rw [switched]
  obtain ⟨live, still, paused, trick, tuning, speed⟩ :=
    leave_still_mode { this with liveMode := decide (onoff % 2 = 1) }
  by_cases on : onoff % 2 = 1
  · rw [if_neg (by rw [live]; simpa using on)]
    simp only [on, decide_true, Bool.true_and] at live still
    constructor
    · intro holds
      rintro ⟨-, same⟩
      exact holds.modes ⟨by simpa [on] using live, by simpa [on, same] using still⟩
    · intro keeps
      have left : this.stillMode = false := Bool.eq_false_iff.mpr fun same => keeps ⟨on, same⟩
      apply still_mode_rules
      refine ⟨?_, rules.tuning, rules.paused⟩
      rintro ⟨-, same⟩
      rw [left] at same
      cases same
  · rw [if_pos (by rw [live]; simpa using on)]
    constructor
    · intro _
      exact fun both => on both.1
    · intro _
      apply reset_tuning_rules
      apply still_mode_rules
      refine ⟨?_, rules.tuning, rules.paused⟩
      rintro ⟨same, -⟩
      exact on (of_decide_eq_true same)

/-! ## Trick speed -/

theorem engine_speed_zero {speed : Int} (high : speed ≤ 64) :
    engineSpeed speed = speedPause ↔ speed = 0 := by
  unfold engineSpeed
  split
  · rename_i positive
    have large : 1 ≤ (1000000 : Int) / speed := by
      rw [Int.le_ediv_iff_mul_le positive]
      omega
    change (1000000 : Int) / speed = 0 ↔ speed = 0
    omega
  · change (1000000 : Int) * -speed = 0 ↔ speed = 0
    omega

theorem play_at_rules {speed : Int} {this : Playback} (high : speed ≤ 64)
    (modes : ¬(this.liveMode = true ∧ this.stillMode = true))
    (tuning : this.isTrickspeed = true → this.scrTuning = scrTuningOff)
    (stopped : this.scrTuning = scrTuningPaused → this.fineSpeed = speedPause)
    (paused : this.isPaused = true ↔ speed = 0) : SpeedRules (playAt speed this) := by
  have zero := engine_speed_zero high
  unfold playAt
  dsimp only
  split
  · rename_i changed
    refine ⟨modes, tuning, ?_⟩
    dsimp only
    rw [zero, paused]
    constructor
    · exact Or.inl
    · intro either
      exact either.resolve_right changed.1
  · rename_i kept
    refine ⟨modes, tuning, ?_⟩
    dsimp only
    by_cases clock : this.scrTuning = scrTuningPaused
    · simp only [clock, stopped clock, or_true]
    · have same : this.fineSpeed = engineSpeed speed := by
        by_contra different
        exact kept ⟨clock, different⟩
      rw [same, zero, paused]
      simp only [clock, or_false]

theorem set_pause_spec {this : Playback} (speed : Int) (backwards : Bool)
    (rules : SpeedRules this) :
    (setPause speed backwards this).liveMode = this.liveMode ∧
      ¬(this.liveMode = true ∧ (setPause speed backwards this).stillMode = true) ∧
      (setPause speed backwards this).isPaused = decide (speed = 0) ∧
      (setPause speed backwards this).isTrickspeed = this.isTrickspeed ∧
      (setPause speed backwards this).scrTuning = this.scrTuning ∧
      (setPause speed backwards this).fineSpeed = this.fineSpeed := by
  unfold setPause
  dsimp only
  split
  · obtain ⟨live, still, paused, trick, tuning, fineSpeed⟩ :=
      leave_still_mode { this with isPaused := decide (speed = 0) }
    refine ⟨live, ?_, paused, trick, tuning, fineSpeed⟩
    rw [still]
    simpa using rules.modes
  · exact ⟨rfl, rules.modes, rfl, rfl, rfl, rfl⟩

theorem trick_speed_rules {this : Playback} (speed : Int) (backwards : Bool)
    (rules : SpeedRules this) :
    SpeedRules (setTrickSpeed speed backwards this) ↔
      KeepsRules this (.trickSpeed speed backwards) := by
  unfold KeepsRules setTrickSpeed
  by_cases outside : 64 < speed ∨ speed < -64
  · rw [if_pos outside]
    exact iff_of_true rules (by omega)
  · rw [if_neg outside]
    obtain ⟨live, modes, paused, trick, tuning, fineSpeed⟩ := set_pause_spec speed backwards rules
    have clock := rules.paused
    dsimp only
    generalize setPause speed backwards this = changed at *
    rw [← live] at modes
    have stopped : changed.scrTuning = scrTuningPaused → changed.fineSpeed = speedPause := by
      intro same
      rw [fineSpeed]
      exact clock.mpr (Or.inr (tuning ▸ same))
    by_cases fast : 1 < speed ∨ speed < -1
    · have moving : speed ≠ 0 := by omega
      rw [if_pos fast]
      rw [decide_eq_false moving] at paused
      by_cases liveMode : changed.liveMode = true
      · rw [if_pos liveMode]
        constructor
        · rintro holds ⟨-, -, -, -, pause, running⟩
          have plays := holds.paused.mp (fineSpeed.trans (clock.mpr (Or.inl pause)))
          rw [paused, tuning] at plays
          rcases plays with same | same
          · cases same
          · exact running same
        · intro keeps
          refine ⟨modes, ?_, ?_⟩
          · rw [trick, tuning]
            exact rules.tuning
          · rw [fineSpeed, tuning, paused, clock]
            constructor
            · rintro (pause | same)
              · right
                by_contra running
                exact keeps ⟨fast, by omega, by omega, live ▸ liveMode, pause, running⟩
              · exact Or.inr same
            · rintro (same | same)
              · cases same
              · exact Or.inr same
      · rw [if_neg liveMode]
        refine iff_of_true ?_ (fun both => liveMode (live.trans both.2.2.2.1))
        rcases reset_tuning_cases changed with ⟨same, reason⟩ | ⟨-, -, reset⟩
        · rw [same]
          have off : changed.scrTuning = scrTuningOff := by
            rcases reason with off | tricked | pause
            · exact off
            · rw [tuning]
              exact rules.tuning (trick ▸ tricked)
            · rw [paused] at pause
              cases pause
          exact play_at_rules (by omega) modes (fun _ => off) stopped (by simp [paused, moving])
        · rw [reset]
          exact play_at_rules (by omega) modes (fun _ => rfl) (fun same => nomatch same)
            (by simp [paused, moving])
    · rw [if_neg fast]
      refine iff_of_true ?_ (fun both => fast both.1)
      exact play_at_rules (by omega) modes (fun same => nomatch same) stopped (by simp [paused])

/-! ## Runs -/

theorem perform_rules {this next : Playback} (step : SpeedStep) (rules : SpeedRules this)
    (performed : performSpeed this step = some next) : SpeedRules next ↔ KeepsRules this step := by
  cases step with
  | trickSpeed speed backwards =>
      cases performed
      exact trick_speed_rules speed backwards rules
  | still stillMode =>
      cases performed
      exact iff_of_true (still_mode_rules stillMode rules) trivial
  | live onoff =>
      cases performed
      exact live_mode_rules onoff rules
  | adjustScrSpeed around =>
      obtain ⟨⟨_, needPause⟩, adjusted, same⟩ := Option.map_eq_some_iff.mp performed
      cases same
      exact iff_of_true (adjust_scr_rules rules adjusted) trivial
  | adjustRealtimeSpeed around =>
      exact iff_of_true (adjust_realtime_rules rules performed) trivial
  | setPaused =>
      cases performed
      exact iff_of_true (set_paused_rules rules) trivial
  | countFrame type =>
      cases performed
      exact iff_of_true (update_frames_rules rules type) trivial

/-- The rules hold throughout a run exactly if every step of it keeps them. -/
theorem rules_throughout_iff (steps : List SpeedStep) :
    RulesThroughout steps ↔
      ∀ (count : Nat) (within : count < steps.length) (this : Playback),
        Machine.follow performSpeed Playback.init (steps.take count) = some this →
        KeepsRules this steps[count] := by
  unfold RulesThroughout
  rw [Machine.follow_invariant_iff init_rules fun _ step _ => perform_rules step]
  constructor
  · intro keeps count within this reached
    have one := keeps count within this
    cases step : steps[count] with
    | trickSpeed speed backwards =>
        rw [step] at one
        exact one _ reached rfl
    | live onoff =>
        rw [step] at one
        exact one _ reached rfl
    | still _ => trivial
    | adjustScrSpeed _ => trivial
    | adjustRealtimeSpeed _ => trivial
    | setPaused => trivial
    | countFrame _ => trivial
  · intro keeps count within this _ reached _
    exact keeps count within this reached

/-- Live mode in still mode, and trick speed in live mode during a pause. -/
theorem refused_modes_break_rules :
    ¬RulesThroughout [.still 1, .live 1] ∧
      ¬RulesThroughout [.live 1, .trickSpeed 0 false, .trickSpeed 2 false] := by
  constructor
  · intro always
    exact (always 2 (by decide) _ rfl).modes ⟨rfl, rfl⟩
  · intro always
    have stopped := (always 3 (by decide) _ rfl).paused.mp rfl
    revert stopped
    decide

end Xineliboutput.Client
