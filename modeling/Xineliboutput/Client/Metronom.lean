import Xineliboutput.Client.AdjustableScr
import Xineliboutput.Foundation.Machine

/-!
# Buffering at the start of live streams

`xine/xvdr_metronom.c`: the metronom freezes the clock when a live stream begins, until
time stamps of both audio and video have been seen or one of them is missing for a
second. It does so only while it stands in for the metronom of the stream. The flag is
kept twice, here and in the clock.
-/

namespace Xineliboutput.Client

open Xineliboutput.Foundation

set_option autoImplicit false

/-- `time_ms` -/
def timeMs (time : Timeval) : Int := time.sec * 1000 + time.usec.val / 1000

/-- The fields of `vo_frame_t` that the metronom reads or hides. -/
structure VoFrame where
  pts : Int
  duration : Int
  badFrame : Bool
  deriving DecidableEq

/-- Whether the metronom stands in for that of its stream. After `metronom_exit` it has no
stream any more, and after `dispose` it is gone. -/
inductive Attachment where
  | wired
  | unwired
  | exited
  | disposed
  deriving DecidableEq

/-- `xvdr_metronom_impl_t` with the clock it controls; the start of buffering is only
logged. -/
structure Metronom where
  scr : Scr
  attachment : Attachment
  trickspeed : Int
  stillMode : Int
  lastVoPts : Int
  buffering : Bool
  liveBuffering : Int
  streamStart : Bool
  vidPts : Int
  audPts : Int
  discPts : Int
  firstFrameSeenTime : Int

namespace Metronom

/-- `xvdr_metronom_init`, which wires it to the stream. -/
def init (scr : Scr) : Metronom where
  scr := scr
  attachment := .wired
  trickspeed := 0
  stillMode := 0
  lastVoPts := 0
  buffering := false
  liveBuffering := 0
  streamStart := false
  vidPts := 0
  audPts := 0
  discPts := 0
  firstFrameSeenTime := 0

def absdiff (a b : Int) : Int := if a - b < 0 then -(a - b) else a - b

variable (metronom : Metronom) (now : Timeval)

/-- `this->buffering = 0` and `set_buffering(this->scr, 0)` -/
def stopBuffering : Metronom :=
  { metronom with buffering := false, scr := metronom.scr.setBuffering now false }

def checkBufferingDone : Metronom :=
  if metronom.vidPts ≠ 0 ∧ metronom.audPts ≠ 0 then
    let dMin := min (metronom.audPts - metronom.discPts) (metronom.vidPts - metronom.discPts)
    let jumped :=
      if dMin < 0 ∧ -10 * 90000 < dMin then { metronom with scr := metronom.scr.jump now dMin }
      else metronom
    { jumped with streamStart := false }.stopBuffering now
  else if metronom.firstFrameSeenTime ≠ 0 ∧ 1000 < timeMs now - metronom.firstFrameSeenTime then
    let aborted := { metronom with streamStart := false }
    if metronom.vidPts ≠ 0 ∧ metronom.audPts = 0 then aborted.stopBuffering now
    else if metronom.vidPts = 0 ∧ metronom.audPts ≠ 0 then aborted.stopBuffering now
    else aborted
  else metronom

def trackVideo (pts : Int) : Metronom :=
  let vidJump := metronom.vidPts ≠ 0 ∧ 5 * 90000 < absdiff metronom.vidPts pts
  let audPts := if vidJump then 0 else metronom.audPts
  let apart := metronom.vidPts ≠ 0 ∧ audPts ≠ 0 ∧ 5 * 90000 < absdiff metronom.vidPts audPts
  { metronom with
    audPts := if apart then 0 else audPts
    firstFrameSeenTime := if metronom.vidPts = 0 then timeMs now else metronom.firstFrameSeenTime
    vidPts := pts }

def trackAudio (pts : Int) : Metronom :=
  let audJump := metronom.audPts ≠ 0 ∧
    (pts < metronom.audPts ∨ 5 * 90000 < absdiff pts metronom.audPts)
  let vidPts := if audJump then 0 else metronom.vidPts
  let apart := metronom.audPts ≠ 0 ∧ vidPts ≠ 0 ∧ 5 * 90000 < absdiff vidPts metronom.audPts
  { metronom with
    vidPts := if apart then 0 else vidPts
    firstFrameSeenTime := if metronom.audPts = 0 then timeMs now else metronom.firstFrameSeenTime
    audPts := pts }

/-- The frame that `got_video_frame` gives to the original metronom. -/
def handedOn (frame : VoFrame) : VoFrame :=
  let still := if metronom.stillMode ≠ 0 then { frame with pts := 0 } else frame
  if metronom.trickspeed ≠ 0 then { still with pts := 0, duration := still.duration * 12 }
  else still

def gotVideoFrame (frame : VoFrame) : Metronom × VoFrame :=
  if metronom.buffering && !frame.badFrame then
    let tracked := if frame.pts ≠ 0 then metronom.trackVideo now frame.pts else metronom
    (tracked.checkBufferingDone now, metronom.handedOn frame)
  else (metronom, metronom.handedOn frame)

def gotAudioSamples (pts : Int) : Metronom :=
  if metronom.buffering then
    let tracked := if pts ≠ 0 then metronom.trackAudio now pts else metronom
    tracked.checkBufferingDone now
  else metronom

def startBuffering (discOff : Int) : Metronom :=
  if metronom.liveBuffering ≠ 0 ∧ metronom.streamStart = true ∧ discOff ≠ 0 then
    if metronom.buffering then metronom
    else { metronom with
      audPts := 0
      vidPts := 0
      discPts := discOff
      firstFrameSeenTime := 0
      buffering := true
      scr := metronom.scr.setBuffering now true }
  else if metronom.buffering then metronom.stopBuffering now
  else metronom

/-- The options with a meaning here; all others go to the original metronom. -/
inductive Option where
  | lastVoPts
  | liveBuffering
  | streamStart
  | trickSpeed
  | stillMode
  | other

/-- `set_option`; the two flags are of types `uint8_t` and `int`. -/
def setOption (option : Option) (value : Int) : Metronom :=
  match option with
  | .lastVoPts => if 0 < value then { metronom with lastVoPts := value } else metronom
  | .liveBuffering => { metronom with liveBuffering := value % 2 ^ 8 }
  | .streamStart => { metronom with streamStart := true }
  | .trickSpeed => { metronom with trickspeed := Int.bmod value (2 ^ 32) }
  | .stillMode => { metronom with stillMode := Int.bmod value (2 ^ 32) }
  | .other => metronom

/-- `xvdr_metronom_wire` -/
def wire : Metronom :=
  match metronom.attachment with
  | .unwired => { metronom with attachment := .wired }
  | .wired | .exited | .disposed => metronom

/-- `xvdr_metronom_unwire` -/
def unwire : Metronom :=
  match metronom.attachment with
  | .wired => { metronom with attachment := .unwired }
  | .unwired | .exited | .disposed => metronom

/-- `metronom_exit` -/
def exit : Metronom := { metronom.unwire with attachment := .exited }

/-- `xvdr_metronom_dispose` -/
def dispose : Metronom := { metronom.unwire with attachment := .disposed }

inductive Operation where
  | videoFrame (frame : VoFrame)
  | audioSamples (pts : Int)
  /-- Of audio or of video. -/
  | discontinuity (discOff : Int)
  | setOption (option : Option) (value : Int)
  | wire
  | unwire
  | exit
  | dispose
  | setFineSpeed (speed : Int)
  | setSpeedTuning (factor : ℚ)
  | setSpeedBase (hz : Int)
  | jump (pts : Int)
  | adjust (vpts : Int)

def isWired : Bool := metronom.attachment == .wired

/-- Calls through the stream come to this metronom while it is wired; the engine and the
input plugin set the speed of the clock at any time. -/
def perform (metronom : Metronom) : Timeval × Operation → Metronom
  | (now, .videoFrame frame) =>
      if metronom.isWired then (metronom.gotVideoFrame now frame).1 else metronom
  | (now, .audioSamples pts) =>
      if metronom.isWired then metronom.gotAudioSamples now pts else metronom
  | (now, .discontinuity discOff) =>
      if metronom.isWired then metronom.startBuffering now discOff else metronom
  | (_, .setOption option value) =>
      if metronom.isWired then metronom.setOption option value else metronom
  | (_, .wire) => metronom.wire
  | (_, .unwire) => metronom.unwire
  | (_, .exit) => if metronom.isWired then metronom.exit else metronom
  | (_, .dispose) => metronom.dispose
  | (now, .setFineSpeed speed) => { metronom with scr := metronom.scr.setFineSpeed now speed }
  | (now, .setSpeedTuning factor) =>
      { metronom with scr := metronom.scr.setSpeedTuning now factor }
  | (now, .setSpeedBase hz) => { metronom with scr := metronom.scr.setSpeedBase now hz }
  | (now, .jump pts) => { metronom with scr := metronom.scr.jump now pts }
  | (now, .adjust vpts) => { metronom with scr := metronom.scr.adjust now vpts }

/-- The metronom after the first operations of a sequence. -/
abbrev after (operations : List (Timeval × Operation)) (count : Nat) : Metronom :=
  Clock.stateAfter perform metronom operations count

/-- The two flags agree, and a metronom that is not wired leaves the clock running. -/
structure BufferingLawful (metronom : Metronom) : Prop where
  agree : metronom.scr.buffering = metronom.buffering
  released : metronom.isWired = false → metronom.scr.buffering = false

def Operation.detaches : Operation → Bool
  | .unwire | .exit | .dispose => true
  | .videoFrame _ | .audioSamples _ | .discontinuity _ | .setOption _ _ | .wire
  | .setFineSpeed _ | .setSpeedTuning _ | .setSpeedBase _ | .jump _ | .adjust _ => false

end Metronom

/-! ## The clock's flag -/

namespace Scr

theorem set_pivot_buffering (scr : Scr) (now : Timeval) :
    (scr.setPivot now).buffering = scr.buffering := by
  unfold setPivot
  split <;> rfl

theorem set_buffering_buffering (scr : Scr) (now : Timeval) (on : Bool) :
    (scr.setBuffering now on).buffering = on := by
  unfold setBuffering
  cases on <;> cases buffers : scr.buffering <;> simp [buffers]

end Scr

namespace Metronom

/-! ## One operation -/

/-- What the work on frames and discontinuities leaves behind. -/
structure Keeps (metronom next : Metronom) : Prop where
  attachment : next.attachment = metronom.attachment
  agree : metronom.scr.buffering = metronom.buffering → next.scr.buffering = next.buffering

theorem Keeps.refl (metronom : Metronom) : Keeps metronom metronom := ⟨rfl, id⟩

theorem Keeps.trans {metronom middle next : Metronom} (first : Keeps metronom middle)
    (second : Keeps middle next) : Keeps metronom next :=
  ⟨second.attachment.trans first.attachment, second.agree ∘ first.agree⟩

theorem keeps_stop_buffering (metronom : Metronom) (now : Timeval) :
    Keeps metronom (metronom.stopBuffering now) :=
  ⟨rfl, fun _ => Scr.set_buffering_buffering _ _ _⟩

theorem keeps_check_buffering_done (metronom : Metronom) (now : Timeval) :
    Keeps metronom (metronom.checkBufferingDone now) := by
  unfold checkBufferingDone
  split
  · apply Keeps.trans _ (keeps_stop_buffering _ now)
    split
    · exact ⟨rfl, (Scr.set_pivot_buffering _ _).trans⟩
    · exact ⟨rfl, id⟩
  · have aborted : Keeps metronom { metronom with streamStart := false } := ⟨rfl, id⟩
    split
    · split
      · exact aborted.trans (keeps_stop_buffering _ now)
      · split
        · exact aborted.trans (keeps_stop_buffering _ now)
        · exact aborted
    · exact Keeps.refl metronom

theorem keeps_got_video_frame (metronom : Metronom) (now : Timeval) (frame : VoFrame) :
    Keeps metronom (metronom.gotVideoFrame now frame).1 := by
  unfold gotVideoFrame
  split
  · apply Keeps.trans _ (keeps_check_buffering_done _ now)
    split
    · exact ⟨rfl, id⟩
    · exact Keeps.refl metronom
  · exact Keeps.refl metronom

theorem keeps_got_audio_samples (metronom : Metronom) (now : Timeval) (pts : Int) :
    Keeps metronom (metronom.gotAudioSamples now pts) := by
  unfold gotAudioSamples
  split
  · apply Keeps.trans _ (keeps_check_buffering_done _ now)
    split
    · exact ⟨rfl, id⟩
    · exact Keeps.refl metronom
  · exact Keeps.refl metronom

theorem keeps_start_buffering (metronom : Metronom) (now : Timeval) (discOff : Int) :
    Keeps metronom (metronom.startBuffering now discOff) := by
  unfold startBuffering
  split
  · split
    · exact Keeps.refl metronom
    · exact ⟨rfl, fun _ => Scr.set_buffering_buffering _ _ _⟩
  · split
    · exact keeps_stop_buffering metronom now
    · exact Keeps.refl metronom

theorem keeps_set_option (metronom : Metronom) (option : Option) (value : Int) :
    Keeps metronom (metronom.setOption option value) := by
  cases option with
  | lastVoPts =>
      simp only [setOption]
      split <;> exact ⟨rfl, id⟩
  | liveBuffering | streamStart | trickSpeed | stillMode | other => exact ⟨rfl, id⟩

theorem keeps_lawful {metronom next : Metronom} (lawful : metronom.BufferingLawful)
    (keeps : Keeps metronom next) :
    (if metronom.isWired then next else metronom).BufferingLawful := by
  split
  · rename_i wired
    refine ⟨keeps.agree lawful.agree, ?_⟩
    intro loose
    rw [isWired, keeps.attachment, ← isWired, wired] at loose
    cases loose
  · exact lawful

theorem clock_lawful {metronom : Metronom} (lawful : metronom.BufferingLawful) {scr : Scr}
    (same : scr.buffering = metronom.scr.buffering) :
    { metronom with scr := scr }.BufferingLawful :=
  ⟨same.trans lawful.agree, fun loose => same.trans (lawful.released loose)⟩

theorem detached_lawful_iff {metronom next : Metronom} (lawful : metronom.BufferingLawful)
    (loose : next.isWired = false) (scr : next.scr = metronom.scr)
    (flag : next.buffering = metronom.buffering) :
    next.BufferingLawful ↔ metronom.buffering = false := by
  constructor
  · intro after_
    rw [← lawful.agree, ← scr]
    exact after_.released loose
  · intro idle
    have frees : next.scr.buffering = false := by rw [scr, lawful.agree, idle]
    exact ⟨by rw [frees, flag, idle], fun _ => frees⟩

theorem unwire_same (metronom : Metronom) :
    metronom.unwire.isWired = false ∧ metronom.unwire.scr = metronom.scr ∧
      metronom.unwire.buffering = metronom.buffering := by
  unfold unwire isWired
  split <;> simp_all

theorem wire_lawful {metronom : Metronom} (lawful : metronom.BufferingLawful) :
    metronom.wire.BufferingLawful := by
  unfold wire
  split
  · exact ⟨lawful.agree, fun loose => by cases loose⟩
  all_goals exact lawful

/-- Every operation keeps the law, except one that detaches the metronom while it is
buffering. -/
theorem perform_lawful_iff (metronom : Metronom) (label : Timeval × Operation)
    (lawful : metronom.BufferingLawful) :
    (metronom.perform label).BufferingLawful ↔
      (label.2.detaches = true → metronom.buffering = false) := by
  obtain ⟨now, operation⟩ := label
  obtain ⟨loose, scr, flag⟩ := unwire_same metronom
  have free : metronom.isWired = false → metronom.buffering = false :=
    fun loose => lawful.agree ▸ lawful.released loose
  cases operation with
  | videoFrame frame =>
      have kept := keeps_lawful lawful (keeps_got_video_frame metronom now frame)
      exact iff_of_true kept (fun detaches => by cases detaches)
  | audioSamples pts =>
      have kept := keeps_lawful lawful (keeps_got_audio_samples metronom now pts)
      exact iff_of_true kept (fun detaches => by cases detaches)
  | discontinuity discOff =>
      have kept := keeps_lawful lawful (keeps_start_buffering metronom now discOff)
      exact iff_of_true kept (fun detaches => by cases detaches)
  | setOption option value =>
      have kept := keeps_lawful lawful (keeps_set_option metronom option value)
      exact iff_of_true kept (fun detaches => by cases detaches)
  | wire => exact iff_of_true (wire_lawful lawful) (fun detaches => by cases detaches)
  | unwire =>
      simp only [Operation.detaches, forall_true_left]
      exact detached_lawful_iff lawful loose scr flag
  | exit =>
      simp only [Operation.detaches, forall_true_left, perform]
      cases wired : metronom.isWired with
      | true => exact detached_lawful_iff lawful rfl scr flag
      | false => exact ⟨fun _ => free wired, fun _ => lawful⟩
  | dispose =>
      simp only [Operation.detaches, forall_true_left]
      exact detached_lawful_iff lawful rfl scr flag
  | setFineSpeed speed | setSpeedTuning factor | setSpeedBase hz | jump pts =>
      have kept := clock_lawful lawful (Scr.set_pivot_buffering metronom.scr now)
      exact iff_of_true ⟨kept.agree, kept.released⟩ (fun detaches => by cases detaches)
  | adjust vpts =>
      exact iff_of_true (clock_lawful lawful rfl) (fun detaches => by cases detaches)

/-! ## Whole runs -/

theorem init_lawful (now : Timeval) (time : Int) :
    (init (Scr.initial now time)).BufferingLawful :=
  ⟨rfl, fun _ => rfl⟩

/-- The clock keeps its readings over any operations at times that do not decrease, and
the metronom keeps the two flags together and leaves the clock running when it goes,
exactly if it never goes while it is buffering. -/
theorem playback_clock (clock : Scr) (clockOperations : List (Timeval × Scr.Operation))
    (inOrder : InOrder clockOperations) (now : Timeval) (time : Int)
    (operations : List (Timeval × Operation)) :
    clock.Lawful clockOperations ∧
      ((∀ count ≤ operations.length,
          ((init (Scr.initial now time)).after operations count).BufferingLawful) ↔
        ∀ (count : Nat) (within : count < operations.length),
          operations[count].2.detaches = true →
            ((init (Scr.initial now time)).after operations count).buffering = false) :=
  ⟨Scr.lawful clock inOrder,
    Machine.foldl_invariant_iff (init_lawful now time) perform_lawful_iff operations⟩

/-- Live buffering begins; then the stream ends before any frame has come. -/
def unwiredWhileBuffering : List (Timeval × Operation) :=
  [(⟨1, 0⟩, .setOption .liveBuffering 1), (⟨1, 0⟩, .setOption .streamStart 0),
    (⟨2, 0⟩, .discontinuity 90000), (⟨3, 0⟩, .unwire)]

def frozenForASecond : List (Timeval × Scr.Operation) :=
  [(⟨1, 0⟩, .setFineSpeed 1000000), (⟨2, 0⟩, .setBuffering true), (⟨3, 0⟩, .setBuffering false)]

theorem playback_clock_frozen_for_a_second :
    (Scr.initial ⟨0, 0⟩ 0).Lawful frozenForASecond ∧
      ((∀ count ≤ unwiredWhileBuffering.length,
          ((init (Scr.initial ⟨0, 0⟩ 0)).after unwiredWhileBuffering count).BufferingLawful) ↔
        ∀ (count : Nat) (within : count < unwiredWhileBuffering.length),
          unwiredWhileBuffering[count].2.detaches = true →
            ((init (Scr.initial ⟨0, 0⟩ 0)).after unwiredWhileBuffering count).buffering = false) :=
  playback_clock (Scr.initial ⟨0, 0⟩ 0) frozenForASecond (by decide) ⟨0, 0⟩ 0
    unwiredWhileBuffering

/-- Nothing thaws the clock that the metronom froze. -/
theorem unwired_clock_frozen :
    ¬ ∀ (now : Timeval) (time : Int) (operations : List (Timeval × Operation)),
      ∀ count ≤ operations.length,
        ((init (Scr.initial now time)).after operations count).BufferingLawful := by
  intro claimed
  have released := (claimed ⟨0, 0⟩ 0 unwiredWhileBuffering 4 (by decide)).released rfl
  cases released

end Metronom
end Xineliboutput.Client
