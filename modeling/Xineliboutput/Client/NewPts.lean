import Mathlib.Tactic.Ring
import Xineliboutput.Foundation.Machine

/-!
# Announcements of discontinuities

`check_newpts`, `pts_wrap_workaround` and the part of `demux_xvdr_seek` that goes with them.
The decoders are told the time stamp a stream goes on with where it is not the one they
expect. The flags of the demuxer are a summary of the buffers and seeks so far.
-/

namespace Xineliboutput.Client

open Xineliboutput.Foundation Xineliboutput.Foundation.Machine

set_option autoImplicit false

/-- `PTS_AUDIO` and `PTS_VIDEO` -/
inductive Medium where
  | audio
  | video
  deriving DecidableEq

/-- `XVDR_METRONOM_STILL_MODE` and `XVDR_METRONOM_TRICK_SPEED`, as `int`. -/
structure MetronomModes where
  stillMode : Int
  trickSpeed : Int
  deriving DecidableEq

structure PtsCheck where
  lastAudio : Int
  lastVideo : Int
  lastVpts : Int
  sendNewpts : Bool
  bufFlagSeek : Bool
  deriving DecidableEq

/-- `_x_demux_control_newpts`, with or without `BUF_FLAG_SEEK`. -/
structure NewPts where
  pts : Int
  seek : Bool
  deriving DecidableEq

/-- A buffer that was checked: the time stamp it is left with, and what is announced before it. -/
structure CheckedPts where
  pts : Int
  announced : Option NewPts
  deriving DecidableEq

def wrapThreshold : Nat := 360000

namespace PtsCheck

/-- `calloc` -/
def opened : PtsCheck where
  lastAudio := 0
  lastVideo := 0
  lastVpts := 0
  sendNewpts := false
  bufFlagSeek := false

/-- `last_pts[video]` -/
def lastPts (this : PtsCheck) : Medium → Int
  | .audio => this.lastAudio
  | .video => this.lastVideo

/-- `pts_wrap_workaround`, with the time stamp of the buffer after it. -/
def ptsWrapWorkaround (this : PtsCheck) (pts : Int) (medium : Medium) : PtsCheck × Int :=
  if 0 < pts then
    match medium with
    | .video =>
        if this.lastVpts < 14400 ∧ 0 < this.lastVpts ∧ 0x1ffffffff - 14400 < pts ∧
            !this.sendNewpts then (this, 0)
        else ({ this with lastVpts := pts }, pts)
    | .audio =>
        if 0x40400000 < pts ∧ this.lastVpts < 0x40000000 ∧ 0 < this.lastVpts then (this, 0)
        else (this, pts)
  else (this, pts)

/-- The end of `check_newpts`, from the workaround on. -/
def announce (this : PtsCheck) (pts : Int) (medium : Medium) : PtsCheck × CheckedPts :=
  if pts ≠ 0 then
    let jumps := this.lastPts medium ≠ 0 ∧ wrapThreshold < (pts - this.lastPts medium).natAbs
    if this.sendNewpts ∨ jumps then
      ({ this with
          bufFlagSeek := false
          sendNewpts := false
          lastAudio := pts
          lastVideo := pts },
        ⟨pts, some ⟨pts, this.bufFlagSeek⟩⟩)
    else ({ this with lastAudio := pts, lastVideo := pts }, ⟨pts, none⟩)
  else (this, ⟨pts, none⟩)

def skipped (modes : MetronomModes) : Medium → Bool
  | .audio => false
  | .video => 0 < modes.stillMode || 0 < modes.trickSpeed

/-- `check_newpts` -/
def checkNewpts (this : PtsCheck) (modes : MetronomModes) (pts : Int) (medium : Medium) :
    PtsCheck × CheckedPts :=
  if pts ≤ 0 then (this, ⟨pts, none⟩)
  else if skipped modes medium then (this, ⟨pts, none⟩)
  else
    let (this, pts) := this.ptsWrapWorkaround pts medium
    this.announce pts medium

/-- `demux_xvdr_seek` -/
def seek (this : PtsCheck) (playing : Bool) : PtsCheck :=
  let this := { this with sendNewpts := true }
  if playing then { this with bufFlagSeek := true, lastVpts := -1 }
  else { this with bufFlagSeek := false, lastAudio := 0, lastVideo := 0 }

end PtsCheck

inductive PtsEvent where
  | buffer (medium : Medium) (modes : MetronomModes) (pts : Int)
  | seek (playing : Bool)
  deriving DecidableEq

abbrev PtsLabel := PtsEvent × CheckedPts

def PtsCheck.perform (this : PtsCheck) : PtsEvent → PtsCheck × CheckedPts
  | .buffer medium modes pts => this.checkNewpts modes pts medium
  | .seek playing => (this.seek playing, ⟨0, none⟩)

/-- The demuxer from `demux_xvdr_open_plugin` on. -/
def ptsMachine : Machine PtsCheck PtsLabel where
  initial state := state = .opened
  step state label next := state.perform label.1 = (next, label.2)

/-! ## Histories -/

/-- The buffers whose time stamps count: those that have one, keep it and are not skipped. -/
def timedPts : PtsLabel → Option Int
  | (.buffer medium modes pts, checked) =>
      if 0 < pts ∧ !PtsCheck.skipped modes medium ∧ checked.pts ≠ 0 then some checked.pts else none
  | (.seek _, _) => none

def timedVideo : PtsLabel → Option Int
  | (.buffer .video modes pts, checked) => timedPts (.buffer .video modes pts, checked)
  | _ => none

def seekOf : PtsLabel → Option Bool
  | (.seek playing, _) => some playing
  | _ => none

def lastTimed (history : List PtsLabel) : Option Int :=
  (history.reverse.takeWhile fun label => (seekOf label).isNone).findSome? timedPts

/-- The last one of the video that counts since the last seek while playing. -/
def lastTimedVideo (history : List PtsLabel) : Option Int :=
  (history.reverse.takeWhile fun label => seekOf label != some true).findSome? timedVideo

def lastSeek (history : List PtsLabel) : Option Bool := history.reverse.findSome? seekOf

/-- The decoders wait for the first time stamp behind a seek. -/
def AwaitsPts (history : List PtsLabel) : Prop :=
  lastTimed history = none ∧ lastSeek history ≠ none

instance (history : List PtsLabel) : Decidable (AwaitsPts history) :=
  inferInstanceAs (Decidable (_ ∧ _))

def StalePts (history : List PtsLabel) (pts : Int) : Medium → Prop
  | .video => ∃ video ∈ lastTimedVideo history, video < 14400 ∧ 0x1ffffffff - 14400 < pts ∧
      ¬AwaitsPts history
  | .audio => ∃ video ∈ lastTimedVideo history, video < 0x40000000 ∧ 0x40400000 < pts

/-- The first time stamp behind a seek is announced, and one that jumps. -/
def dueAnnouncement (history : List PtsLabel) (pts : Int) : Option NewPts :=
  match lastTimed history with
  | some earlier =>
      if wrapThreshold < (pts - earlier).natAbs then some ⟨pts, false⟩ else none
  | none => (lastSeek history).map fun playing => ⟨pts, playing⟩

def FitsHistory (history : List PtsLabel) : PtsLabel → Prop
  | (.buffer medium modes pts, checked) =>
      (pts ≤ 0 ∨ PtsCheck.skipped modes medium = true → checked = ⟨pts, none⟩) ∧
      (0 < pts → PtsCheck.skipped modes medium = false →
        (StalePts history pts medium → checked = ⟨0, none⟩) ∧
        (¬StalePts history pts medium → checked = ⟨pts, dueAnnouncement history pts⟩))
  | (.seek _, checked) => checked = ⟨0, none⟩

/-! ### Histories that grow -/

variable {history : List PtsLabel} {checked : CheckedPts} {medium : Medium}
  {modes : MetronomModes} {pts : Int}

theorem last_timed_buffer :
    lastTimed (history ++ [(.buffer medium modes pts, checked)]) =
      (timedPts (.buffer medium modes pts, checked)).or (lastTimed history) := by
  rw [lastTimed, List.reverse_append]
  simp only [List.reverse_singleton, List.singleton_append]
  rw [List.takeWhile_cons_of_pos (by rfl), List.findSome?_cons]
  cases timedPts (.buffer medium modes pts, checked) with
  | none => rfl
  | some timed => rfl

theorem last_timed_seek {playing : Bool} :
    lastTimed (history ++ [(.seek playing, checked)]) = none := by
  rw [lastTimed, List.reverse_append]
  rfl

theorem last_timed_video_buffer :
    lastTimedVideo (history ++ [(.buffer medium modes pts, checked)]) =
      (timedVideo (.buffer medium modes pts, checked)).or (lastTimedVideo history) := by
  rw [lastTimedVideo, List.reverse_append]
  simp only [List.reverse_singleton, List.singleton_append]
  rw [List.takeWhile_cons_of_pos (by rfl), List.findSome?_cons]
  cases timedVideo (.buffer medium modes pts, checked) with
  | none => rfl
  | some timed => rfl

theorem last_timed_video_playing :
    lastTimedVideo (history ++ [(.seek true, checked)]) = none := by
  rw [lastTimedVideo, List.reverse_append]
  rfl

theorem last_timed_video_stopped :
    lastTimedVideo (history ++ [(.seek false, checked)]) = lastTimedVideo history := by
  rw [lastTimedVideo, List.reverse_append]
  rfl

theorem last_seek_buffer :
    lastSeek (history ++ [(.buffer medium modes pts, checked)]) = lastSeek history := by
  rw [lastSeek, List.reverse_append]
  rfl

theorem last_seek_seek {playing : Bool} :
    lastSeek (history ++ [(.seek playing, checked)]) = some playing := by
  rw [lastSeek, List.reverse_append]
  rfl

/-! ## The flags summarise the history -/

structure PtsCheck.Summarises (this : PtsCheck) (history : List PtsLabel) : Prop where
  same : this.lastAudio = this.lastVideo
  positive : ∀ earlier ∈ lastTimed history, 0 < earlier
  last : ∀ earlier ∈ lastTimed history, this.lastVideo = earlier
  unset : lastTimed history = none → lastSeek history = none → this.lastVideo = 0
  sends : this.sendNewpts = true ↔ AwaitsPts history
  seeks : this.bufFlagSeek = true ↔ lastTimed history = none ∧ lastSeek history = some true
  video : ∀ earlier ∈ lastTimedVideo history, 0 < earlier ∧ this.lastVpts = earlier
  noVideo : lastTimedVideo history = none → this.lastVpts ≤ 0

namespace PtsCheck

variable {this : PtsCheck}

theorem Summarises.uncounted (summary : this.Summarises history)
    (untimed : timedPts (.buffer medium modes pts, checked) = none) :
    this.Summarises (history ++ [(.buffer medium modes pts, checked)]) := by
  have untimedVideo : timedVideo (.buffer medium modes pts, checked) = none := by
    cases medium with
    | audio => rfl
    | video => exact untimed
  have timed : lastTimed (history ++ [(.buffer medium modes pts, checked)]) =
      lastTimed history := by
    rw [last_timed_buffer, untimed, Option.none_or]
  have video : lastTimedVideo (history ++ [(.buffer medium modes pts, checked)]) =
      lastTimedVideo history := by
    rw [last_timed_video_buffer, untimedVideo, Option.none_or]
  constructor
  · exact summary.same
  · rw [timed]
    exact summary.positive
  · rw [timed]
    exact summary.last
  · rw [timed, last_seek_buffer]
    exact summary.unset
  · rw [AwaitsPts, timed, last_seek_buffer]
    exact summary.sends
  · rw [timed, last_seek_buffer]
    exact summary.seeks
  · rw [video]
    exact summary.video
  · rw [video]
    exact summary.noVideo

theorem Summarises.seek (summary : this.Summarises history) (playing : Bool) :
    (this.seek playing).Summarises (history ++ [(.seek playing, checked)]) := by
  have timed : lastTimed (history ++ [(PtsEvent.seek playing, checked)]) = none := last_timed_seek
  have sought : lastSeek (history ++ [(PtsEvent.seek playing, checked)]) = some playing :=
    last_seek_seek
  have awaits : AwaitsPts (history ++ [(PtsEvent.seek playing, checked)]) := by
    refine ⟨timed, ?_⟩
    rw [sought]
    exact Option.some_ne_none playing
  cases playing with
  | true =>
      have video : lastTimedVideo (history ++ [(PtsEvent.seek true, checked)]) = none :=
        last_timed_video_playing
      constructor
      · exact summary.same
      · rw [timed]
        exact fun _ none => absurd none (Option.not_mem_none _)
      · rw [timed]
        exact fun _ none => absurd none (Option.not_mem_none _)
      · rw [sought]
        exact fun _ none => absurd none (Option.some_ne_none true)
      · exact iff_of_true rfl awaits
      · exact iff_of_true rfl ⟨timed, sought⟩
      · rw [video]
        exact fun _ none => absurd none (Option.not_mem_none _)
      · exact fun _ => Int.neg_nonpos_of_nonneg (Int.le_of_lt Int.one_pos)
  | false =>
      constructor
      · rfl
      · rw [timed]
        exact fun _ none => absurd none (Option.not_mem_none _)
      · rw [timed]
        exact fun _ none => absurd none (Option.not_mem_none _)
      · exact fun _ _ => rfl
      · exact iff_of_true rfl awaits
      · rw [sought]
        simp [PtsCheck.seek]
      · rw [last_timed_video_stopped]
        exact summary.video
      · rw [last_timed_video_stopped]
        exact summary.noVideo

def noteVideo (this : PtsCheck) (pts : Int) : Medium → PtsCheck
  | .audio => this
  | .video => { this with lastVpts := pts }

theorem stale_wrap (summary : this.Summarises history) (positive : 0 < pts)
    (stale : StalePts history pts medium) : this.ptsWrapWorkaround pts medium = (this, 0) := by
  cases medium with
  | audio =>
      rw [ptsWrapWorkaround, if_pos positive]
      obtain ⟨video, seen, early, late⟩ := stale
      obtain ⟨above, known⟩ := summary.video video seen
      exact if_pos ⟨late, known ▸ early, known ▸ above⟩
  | video =>
      rw [ptsWrapWorkaround, if_pos positive]
      obtain ⟨video, seen, early, late, settled⟩ := stale
      obtain ⟨above, known⟩ := summary.video video seen
      have silent : this.sendNewpts = false :=
        Bool.eq_false_iff.mpr fun sends => settled (summary.sends.mp sends)
      exact if_pos ⟨known ▸ early, known ▸ above, late, by rw [silent]; rfl⟩

theorem fresh_wrap (summary : this.Summarises history) (positive : 0 < pts)
    (fresh : ¬StalePts history pts medium) :
    this.ptsWrapWorkaround pts medium = (this.noteVideo pts medium, pts) := by
  -- a time stamp of the video that is above 0 was seen
  have seen : 0 < this.lastVpts → this.lastVpts ∈ lastTimedVideo history := by
    intro above
    cases found : lastTimedVideo history with
    | none => exact absurd (summary.noVideo found) (by omega)
    | some video => exact Option.mem_some_iff.mpr (summary.video video found).2.symm
  cases medium with
  | audio =>
      rw [ptsWrapWorkaround, if_pos positive]
      apply if_neg
      rintro ⟨late, early, above⟩
      exact fresh ⟨this.lastVpts, seen above, early, late⟩
  | video =>
      rw [ptsWrapWorkaround, if_pos positive]
      apply if_neg
      rintro ⟨early, above, late, silent⟩
      have settled : ¬AwaitsPts history := by
        intro awaits
        rw [summary.sends.mpr awaits] at silent
        cases silent
      exact fresh ⟨this.lastVpts, seen above, early, late, settled⟩

theorem last_pts (summary : this.Summarises history) : this.lastPts medium = this.lastVideo := by
  cases medium with
  | audio => exact summary.same
  | video => rfl

theorem note_video_last : (this.noteVideo pts medium).lastPts medium = this.lastPts medium := by
  cases medium <;> rfl

theorem note_video_sends : (this.noteVideo pts medium).sendNewpts = this.sendNewpts := by
  cases medium <;> rfl

theorem note_video_seeks : (this.noteVideo pts medium).bufFlagSeek = this.bufFlagSeek := by
  cases medium <;> rfl

theorem announce_due (summary : this.Summarises history) (positive : 0 < pts) :
    ((this.noteVideo pts medium).announce pts medium).2 =
      ⟨pts, dueAnnouncement history pts⟩ := by
  have counts : pts ≠ 0 := by omega
  simp only [announce, if_pos counts, note_video_last, note_video_sends, note_video_seeks,
    last_pts summary]
  rw [dueAnnouncement]
  cases timed : lastTimed history with
  | some earlier =>
      have silent : this.sendNewpts = false := by
        apply Bool.eq_false_iff.mpr
        intro sends
        rw [(summary.sends.mp sends).1] at timed
        cases timed
      have unflagged : this.bufFlagSeek = false := by
        apply Bool.eq_false_iff.mpr
        intro seeks
        rw [(summary.seeks.mp seeks).1] at timed
        cases timed
      have nonzero : earlier ≠ 0 := by
        have above := summary.positive earlier timed
        omega
      rw [silent, unflagged, summary.last earlier timed]
      by_cases far : wrapThreshold < (pts - earlier).natAbs
      · simp [far, nonzero]
      · simp [far]
  | none =>
      cases sought : lastSeek history with
      | none =>
          have silent : this.sendNewpts = false :=
            Bool.eq_false_iff.mpr fun sends => (summary.sends.mp sends).2 sought
          simp [silent, summary.unset timed sought]
      | some playing =>
          have sends : this.sendNewpts = true :=
            summary.sends.mpr ⟨timed, by rw [sought]; exact Option.some_ne_none playing⟩
          have flagged : this.bufFlagSeek = playing := by
            rw [Bool.eq_iff_iff, summary.seeks, timed, sought]
            simp
          simp [sends, flagged]

theorem announce_state (counts : pts ≠ 0) :
    ((this.announce pts medium).1.lastAudio = pts ∧ (this.announce pts medium).1.lastVideo = pts) ∧
      (this.announce pts medium).1.lastVpts = this.lastVpts := by
  simp only [announce, if_pos counts]
  split_ifs <;> exact ⟨⟨rfl, rfl⟩, rfl⟩

theorem announce_quiet (summary : this.Summarises history) (counts : pts ≠ 0) :
    ((this.noteVideo pts medium).announce pts medium).1.sendNewpts = false ∧
      ((this.noteVideo pts medium).announce pts medium).1.bufFlagSeek = false := by
  simp only [announce, if_pos counts]
  split_ifs with due
  · exact ⟨rfl, rfl⟩
  · have silent : this.sendNewpts = false := by
      rw [not_or, note_video_sends] at due
      exact Bool.eq_false_iff.mpr due.1
    refine ⟨(note_video_sends).trans silent, (note_video_seeks).trans ?_⟩
    apply Bool.eq_false_iff.mpr
    intro seeks
    obtain ⟨timed, sought⟩ := summary.seeks.mp seeks
    rw [summary.sends.mpr ⟨timed, by rw [sought]; exact Option.some_ne_none true⟩] at silent
    cases silent

theorem Summarises.counted (summary : this.Summarises history) (positive : 0 < pts)
    (checks : skipped modes medium = false) {announced : Option NewPts} :
    ((this.noteVideo pts medium).announce pts medium).1.Summarises
      (history ++ [(.buffer medium modes pts, ⟨pts, announced⟩)]) := by
  have counts : pts ≠ 0 := by omega
  have timed : timedPts (.buffer medium modes pts, ⟨pts, announced⟩) = some pts :=
    if_pos ⟨positive, by rw [checks]; rfl, counts⟩
  have last : lastTimed (history ++ [(.buffer medium modes pts, ⟨pts, announced⟩)]) = some pts := by
    rw [last_timed_buffer, timed, Option.some_or]
  obtain ⟨⟨audio, video⟩, vpts⟩ := @announce_state medium pts (this.noteVideo pts medium) counts
  obtain ⟨silent, unflagged⟩ := @announce_quiet history medium pts this summary counts
  have known : ∀ earlier ∈ lastTimedVideo (history ++
      [(.buffer medium modes pts, ⟨pts, announced⟩)]),
      0 < earlier ∧ (this.noteVideo pts medium).lastVpts = earlier := by
    rw [last_timed_video_buffer]
    cases medium with
    | audio => exact summary.video
    | video =>
        rw [show timedVideo (.buffer .video modes pts, ⟨pts, announced⟩) = some pts from timed]
        rintro earlier same
        cases same
        exact ⟨positive, rfl⟩
  have unknown : lastTimedVideo (history ++ [(.buffer medium modes pts, ⟨pts, announced⟩)]) = none →
      (this.noteVideo pts medium).lastVpts ≤ 0 := by
    rw [last_timed_video_buffer]
    cases medium with
    | audio => exact summary.noVideo
    | video =>
        rw [show timedVideo (.buffer .video modes pts, ⟨pts, announced⟩) = some pts from timed]
        exact fun none => absurd none (Option.some_ne_none pts)
  constructor
  · rw [audio, video]
  · rw [last]
    rintro earlier same
    cases same
    exact positive
  · rw [last, video]
    rintro earlier same
    cases same
    rfl
  · rw [last]
    exact fun none => absurd none (Option.some_ne_none pts)
  · rw [silent, AwaitsPts, last]
    simp
  · rw [unflagged, last]
    simp
  · rw [vpts]
    exact known
  · rw [vpts]
    exact unknown

theorem timed_of_skipped (skips : pts ≤ 0 ∨ skipped modes medium = true) :
    timedPts (.buffer medium modes pts, checked) = none := by
  apply if_neg
  rintro ⟨positive, checks, _⟩
  rcases skips with negative | skips
  · omega
  · rw [skips] at checks
    cases checks

theorem Summarises.step (summary : this.Summarises history) (event : PtsEvent) :
    FitsHistory history (event, (this.perform event).2) ∧
      (this.perform event).1.Summarises (history ++ [(event, (this.perform event).2)]) := by
  cases event with
  | seek playing => exact ⟨rfl, summary.seek playing⟩
  | buffer medium modes pts =>
      by_cases skips : pts ≤ 0 ∨ skipped modes medium = true
      · have unchanged : this.perform (.buffer medium modes pts) = (this, ⟨pts, none⟩) := by
          simp only [perform, checkNewpts]
          rcases skips with negative | skips
          · rw [if_pos negative]
          · rw [if_pos skips, ite_self]
        rw [unchanged]
        refine ⟨⟨fun _ => rfl, fun positive checks => ?_⟩,
          summary.uncounted (timed_of_skipped skips)⟩
        rcases skips with negative | skips
        · omega
        · rw [checks] at skips
          cases skips
      · obtain ⟨positive, checks⟩ := not_or.mp skips
        rw [Int.not_le] at positive
        rw [Bool.not_eq_true] at checks
        have checked : this.perform (.buffer medium modes pts) =
            (this.ptsWrapWorkaround pts medium).1.announce
              (this.ptsWrapWorkaround pts medium).2 medium := by
          simp only [perform, checkNewpts]
          rw [if_neg (by omega), checks]
          rfl
        rw [checked]
        by_cases stale : StalePts history pts medium
        · rw [stale_wrap summary positive stale]
          have ignored : this.announce 0 medium = (this, ⟨0, none⟩) := if_neg (by simp)
          rw [ignored]
          refine ⟨⟨fun given => absurd given skips, fun _ _ =>
            ⟨fun _ => rfl, fun fresh => absurd stale fresh⟩⟩, summary.uncounted ?_⟩
          apply if_neg
          rintro ⟨_, _, kept⟩
          exact kept rfl
        · rw [fresh_wrap summary positive stale]
          have due := @announce_due history medium pts this summary positive
          refine ⟨⟨fun given => absurd given skips, fun _ _ =>
            ⟨fun given => absurd given stale, fun _ => due⟩⟩, ?_⟩
          rw [due]
          exact summary.counted positive checks

theorem opened_summarises : opened.Summarises [] where
  same := rfl
  positive _ none := absurd none (Option.not_mem_none _)
  last _ none := absurd none (Option.not_mem_none _)
  unset _ _ := rfl
  sends := by simp [opened, AwaitsPts, lastSeek]
  seeks := by simp [opened, lastSeek]
  video _ none := absurd none (Option.not_mem_none _)
  noVideo _ := Int.le_refl 0

end PtsCheck

/-! ## Runs -/

theorem run_summarises {labels : List PtsLabel} {state : PtsCheck}
    (run : Run ptsMachine labels state) :
    EachAfter FitsHistory labels ∧ state.Summarises labels := by
  induction run with
  | start initially =>
      rw [show _ = PtsCheck.opened from initially]
      exact ⟨each_after_nil _, PtsCheck.opened_summarises⟩
  | @snoc labels state prior label next move ih =>
      obtain ⟨each, summary⟩ := ih
      obtain ⟨fits, after⟩ := summary.step label.1
      rw [show state.perform label.1 = (next, label.2) from move] at fits after
      exact ⟨each_after_snoc.mpr ⟨each, fits⟩, after⟩

/-- In every run the decoders are told of each discontinuity, before the buffer it begins with
and never otherwise; time stamps from before a wrap of the video are cleared. -/
theorem each_discontinuity_announced {labels : List PtsLabel} {state : PtsCheck}
    (run : Run ptsMachine labels state) : EachAfter FitsHistory labels :=
  (run_summarises run).1

/-- A seek, its first picture, and a jump. -/
theorem seek_and_jump_announced :
    EachAfter FitsHistory
      [(.seek true, ⟨0, none⟩),
        (.buffer .video ⟨0, 0⟩ 90000, ⟨90000, some ⟨90000, true⟩⟩),
        (.buffer .audio ⟨0, 0⟩ 93600, ⟨93600, none⟩),
        (.buffer .video ⟨0, 0⟩ 540000, ⟨540000, some ⟨540000, false⟩⟩)] := by
  have begun : Run ptsMachine [] .opened := .start rfl
  have sought := begun.snoc (show ptsMachine.step _ (.seek true, ⟨0, none⟩) _ from rfl)
  have shown := sought.snoc (show ptsMachine.step _
    (.buffer .video ⟨0, 0⟩ 90000, ⟨90000, some ⟨90000, true⟩⟩) _ from rfl)
  have heard := shown.snoc (show ptsMachine.step _
    (.buffer .audio ⟨0, 0⟩ 93600, ⟨93600, none⟩) _ from rfl)
  have jumped := heard.snoc (show ptsMachine.step _
    (.buffer .video ⟨0, 0⟩ 540000, ⟨540000, some ⟨540000, false⟩⟩) _ from rfl)
  exact each_discontinuity_announced jumped

end Xineliboutput.Client
