import Xineliboutput.Foundation.Machine
import Xineliboutput.Ts.TsPacket

/-!
# The TS cache of the device

`cXinelibDevice` of `device.c` collects TS packets in `m_TsBuf` and passes them on through
`PlayAny`, whose answers are given. `cDevice::PlayTs` dispatches a packet by its PID and
returns the result of the function it dispatches to; PAT and PMT it parses itself.
-/

namespace Xineliboutput.Device

open Xineliboutput.Foundation Xineliboutput.Ts

set_option autoImplicit false

abbrev tsBufLength : Nat := 4096

inductive PlayMode where
  | none
  | audioVideo
  | audioOnly
  | audioOnlyBlack
  | videoOnly
  deriving DecidableEq

structure Modes where
  playMode : PlayMode
  playingFile : PlayMode
  skipAudio : Bool
  trickSpeedNoAudio : Bool

/-- Where `cDevice::PlayTs` sends a packet. `radio` says that the tables now have an audio
stream and no video stream. -/
inductive Route where
  | video
  | audio
  | patPmt (radio : Bool)
  | other

/-- `played` is what `PlayAny` passed on to the clients, `asked` the number of its calls. -/
structure TsDevice where
  tsBuf : Block UInt8 tsBufLength
  tsBufSize : Nat
  radioStream : Bool
  audioCount : Int
  noVideo : Bool
  played : List (List UInt8)
  asked : Nat

namespace TsDevice

def new (tsBuf : Block UInt8 tsBufLength) : TsDevice where
  tsBuf := tsBuf
  tsBufSize := 0
  radioStream := false
  audioCount := 0
  noVideo := false
  played := []
  asked := 0

/-! ## Filters -/

def acceptVideoPacket (modes : Modes) (device : TsDevice) : TsDevice × Bool :=
  if modes.playMode = .audioOnlyBlack then (device, false)
  else if modes.playingFile = .audioVideo ∨ modes.playingFile = .videoOnly then (device, false)
  else if device.radioStream then
    ({ device with radioStream := false, audioCount := 0, noVideo := false }, true)
  else (device, true)

def acceptAudioPacket (modes : Modes) (device : TsDevice) : TsDevice × Bool :=
  if modes.playingFile = .audioVideo ∨ modes.playingFile = .audioOnly then (device, false)
  else if modes.skipAudio then (device, false)
  else if modes.trickSpeedNoAudio then (device, false)
  else if device.radioStream ∧ 0 < device.audioCount then
    ({ device with
        audioCount := device.audioCount - 1
        noVideo := if device.audioCount - 1 ≤ 0 then device.radioStream else device.noVideo }, true)
  else (device, true)

/-! ## The cache -/

section Cache

variable (answers : Nat → Bool)

def playAny (device : TsDevice) (data : List UInt8) : TsDevice × Nat :=
  if answers device.asked then
    ({ device with played := device.played ++ [data], asked := device.asked + 1 }, data.length)
  else ({ device with asked := device.asked + 1 }, 0)

/-- `none` is an access outside of `m_TsBuf`. -/
def tsBufferFlush (device : TsDevice) : Option (TsDevice × Nat) :=
  if device.tsBufSize ≠ 0 then
    (device.tsBuf.slice 0 device.tsBufSize).map fun data =>
      let (device, n) := device.playAny answers data
      if n = device.tsBufSize then ({ device with tsBufSize := 0 }, n) else (device, 0)
  else some (device, 0)

def tsBufferClear (device : TsDevice) : TsDevice := { device with tsBufSize := 0 }

/-- The packet is added to the cache, which is flushed when it is time to. -/
def cachePacket (device : TsDevice) (pkt : TsPacket) : Option (TsDevice × Nat) :=
  (device.tsBuf.overwrite device.tsBufSize pkt.cells).bind fun tsBuf =>
    let device := { device with tsBuf := tsBuf, tsBufSize := device.tsBufSize + tsSize }
    if 2048 - tsSize - 1 ≤ device.tsBufSize then
      (device.tsBufferFlush answers).map fun (device, _) => (device, tsSize)
    else some (device, tsSize)

def playTsAny (device : TsDevice) (pkt : TsPacket) : Option (TsDevice × Nat) :=
  if 2048 ≤ device.tsBufSize then
    (device.tsBufferFlush answers).bind fun (device, flushed) =>
      if flushed = 0 then some (device, 0) else device.cachePacket answers pkt
  else device.cachePacket answers pkt

def playTsVideo (modes : Modes) (device : TsDevice) (pkt : TsPacket) : Option (TsDevice × Nat) :=
  let (device, accepted) := device.acceptVideoPacket modes
  if accepted then device.playTsAny answers pkt else some (device, tsSize)

def playTsAudio (modes : Modes) (device : TsDevice) (pkt : TsPacket) : Option (TsDevice × Nat) :=
  let (device, accepted) := device.acceptAudioPacket modes
  if accepted then device.playTsAny answers pkt else some (device, tsSize)

/-- `cDevice::PlayTs` -/
def basePlayTs (modes : Modes) (route : Route) (device : TsDevice) (pkt : TsPacket) :
    Option (TsDevice × Nat) :=
  match route with
  | .video => device.playTsVideo answers modes pkt
  | .audio => device.playTsAudio answers modes pkt
  | .patPmt _ | .other => some (device, tsSize)

/-- The hook of `PlayTs`: PAT and PMT go to the cache, and radio streams are detected. -/
def grabPatPmt (radio : Bool) (device : TsDevice) (pkt : TsPacket) : Option TsDevice :=
  (device.playTsAny answers pkt).bind fun (device, _) =>
    (device.tsBufferFlush answers).map fun (device, _) =>
      if radio then { device with radioStream := true, audioCount := 0, noVideo := true } else device

def playTs (modes : Modes) (route : Route) (device : TsDevice) (pkt : TsPacket) :
    Option (TsDevice × Nat) :=
  (device.basePlayTs answers modes route pkt).bind fun (device, result) =>
    if result ≠ tsSize then some (device, result)
    else match route with
      | .patPmt radio => (device.grabPatPmt answers radio pkt).map fun device => (device, result)
      | .video | .audio | .other => some (device, result)

end Cache
end TsDevice
end Xineliboutput.Device

/-!
# Forwarding of TS packets

What was passed on and what the cache holds are together the packets that were
acknowledged and not discarded, in order. Only a PAT or PMT fragment that meets a full
cache while there is no buffer is acknowledged and lost.
-/

namespace Xineliboutput.Device

open Xineliboutput.Foundation Xineliboutput.Ts

set_option autoImplicit false

namespace TsDevice

/-- The used part of `m_TsBuf`. -/
def cached (device : TsDevice) : List UInt8 := device.tsBuf.cells.take device.tsBufSize

def bytesOf (packets : List TsPacket) : List UInt8 := packets.flatMap Block.cells

/-- The packets have been passed on or are in the cache, each once and in order. -/
structure Forwards (device : TsDevice) (packets : List TsPacket) : Prop where
  whole : tsSize ∣ device.tsBufSize
  inside : device.tsBufSize ≤ tsBufLength
  order : device.played.flatten ++ device.cached = bytesOf packets

theorem bytes_length (packets : List TsPacket) :
    (bytesOf packets).length = tsSize * packets.length := by
  induction packets with
  | nil => rfl
  | cons pkt packets ih =>
      have onward : bytesOf (pkt :: packets) = pkt.cells ++ bytesOf packets := List.flatMap_cons
      rw [onward, List.length_append, pkt.sized, ih, List.length_cons, Nat.mul_succ, Nat.add_comm]

theorem cached_length {device : TsDevice} (inside : device.tsBufSize ≤ tsBufLength) :
    device.cached.length = device.tsBufSize := by
  rw [cached, List.length_take, device.tsBuf.sized, Nat.min_eq_left inside]

theorem new_forwards (tsBuf : Block UInt8 tsBufLength) : Forwards (new tsBuf) [] where
  whole := Nat.dvd_zero _
  inside := Nat.zero_le _
  order := rfl

variable (answers : Nat → Bool) {device : TsDevice} {packets : List TsPacket}

/-- A flush that finds a buffer empties the cache, any other leaves it as it is. -/
theorem flush_spec (forwards : device.Forwards packets) :
    ∃ next n, device.tsBufferFlush answers = some (next, n) ∧ next.Forwards packets ∧
      (n = 0 ↔ device.tsBufSize = 0 ∨ answers device.asked = false) ∧
      (n ≠ 0 → next.tsBufSize = 0) ∧ next.tsBufSize ≤ device.tsBufSize := by
  obtain ⟨whole, inside, order⟩ := forwards
  unfold tsBufferFlush
  by_cases empty : device.tsBufSize = 0
  · rw [if_neg (not_not.mpr empty)]
    exact ⟨device, 0, rfl, ⟨whole, inside, order⟩, iff_of_true rfl (Or.inl empty),
      fun nonzero => absurd rfl nonzero, Nat.le_refl _⟩
  · have part : device.tsBuf.slice 0 device.tsBufSize = some device.cached := by
      rw [Block.slice_eq _ (by rw [Nat.zero_add]; exact inside), List.drop_zero, cached]
    rw [if_pos empty, part, Option.map_some]
    unfold playAny
    cases answer : answers device.asked with
    | true =>
        have length := cached_length inside
        rw [if_pos rfl]
        dsimp only
        rw [if_pos length]
        refine ⟨_, _, rfl, ⟨Nat.dvd_zero _, Nat.zero_le _, ?_⟩, ?_, fun _ => rfl, Nat.zero_le _⟩
        · simpa [cached] using order
        · rw [length]
          simp [empty]
    | false =>
        rw [if_neg Bool.false_ne_true]
        dsimp only
        rw [if_neg (Ne.symm empty)]
        exact ⟨_, _, rfl, ⟨whole, inside, order⟩, iff_of_true rfl (Or.inr rfl),
          fun nonzero => absurd rfl nonzero, Nat.le_refl _⟩

theorem cache_packet_spec (pkt : TsPacket) (forwards : device.Forwards packets)
    (room : device.tsBufSize < 2048) :
    ∃ next, device.cachePacket answers pkt = some (next, tsSize) ∧
      next.Forwards (packets ++ [pkt]) := by
  obtain ⟨whole, inside, order⟩ := forwards
  have fits : device.tsBufSize + pkt.cells.length ≤ tsBufLength := by
    rw [pkt.sized]
    change device.tsBufSize + 188 ≤ 4096
    omega
  obtain ⟨tsBuf, written⟩ := Option.isSome_iff_exists.mp
    ((Block.overwrite_is_some device.tsBuf device.tsBufSize pkt.cells).mpr fits)
  have stored : Forwards { device with tsBuf := tsBuf, tsBufSize := device.tsBufSize + tsSize }
      (packets ++ [pkt]) := by
    refine ⟨Nat.dvd_add whole (Nat.dvd_refl _), ?_, ?_⟩
    · rw [pkt.sized] at fits
      exact fits
    · have front : (device.cached ++ pkt.cells).length = device.tsBufSize + tsSize := by
        rw [List.length_append, cached_length inside, pkt.sized]
      have grown : tsBuf.cells.take (device.tsBufSize + tsSize) = device.cached ++ pkt.cells := by
        rw [Block.overwrite_cells written, ← front]
        exact List.take_left
      unfold cached
      dsimp only
      rw [grown, ← List.append_assoc, order]
      simp [bytesOf]
  unfold cachePacket
  rw [written, Option.bind_some]
  dsimp only
  split
  · obtain ⟨next, n, flushed, holds, -⟩ := flush_spec answers stored
    rw [flushed]
    exact ⟨next, rfl, holds⟩
  · exact ⟨_, rfl, stored⟩

def Blocked (device : TsDevice) : Prop := 2048 ≤ device.tsBufSize ∧ answers device.asked = false

theorem play_ts_any_blocked (pkt : TsPacket) (forwards : device.Forwards packets)
    (blocked : device.Blocked answers) :
    ∃ next, device.playTsAny answers pkt = some (next, 0) ∧ next.Forwards packets := by
  obtain ⟨next, n, flushed, holds, refused, -⟩ := flush_spec answers forwards
  have nothing : n = 0 := refused.mpr (Or.inr blocked.2)
  unfold playTsAny
  rw [if_pos blocked.1, flushed, Option.bind_some]
  dsimp only
  rw [if_pos nothing]
  exact ⟨next, rfl, holds⟩

theorem play_ts_any_cached (pkt : TsPacket) (forwards : device.Forwards packets)
    (open' : ¬device.Blocked answers) :
    ∃ next, device.playTsAny answers pkt = some (next, tsSize) ∧
      next.Forwards (packets ++ [pkt]) := by
  unfold playTsAny
  by_cases full : 2048 ≤ device.tsBufSize
  · obtain ⟨next, n, flushed, holds, refused, emptied, -⟩ := flush_spec answers forwards
    have passed : n ≠ 0 := by
      intro nothing
      rcases refused.mp nothing with empty | unanswered
      · omega
      · exact open' ⟨full, unanswered⟩
    rw [if_pos full, flushed, Option.bind_some]
    dsimp only
    rw [if_neg passed]
    have room : next.tsBufSize < 2048 := by
      rw [emptied passed]
      decide
    exact cache_packet_spec answers pkt holds room
  · rw [if_neg full]
    exact cache_packet_spec answers pkt forwards (Nat.lt_of_not_le full)

/-! ## Filters -/

theorem Forwards.same {other : TsDevice} (forwards : device.Forwards packets)
    (tsBuf : other.tsBuf = device.tsBuf) (tsBufSize : other.tsBufSize = device.tsBufSize)
    (played : other.played = device.played) : other.Forwards packets := by
  obtain ⟨whole, inside, order⟩ := forwards
  refine ⟨tsBufSize ▸ whole, tsBufSize ▸ inside, ?_⟩
  rw [cached, tsBuf, tsBufSize, played]
  exact order

theorem accept_video_forwards (modes : Modes) (forwards : device.Forwards packets) :
    (device.acceptVideoPacket modes).1.Forwards packets := by
  unfold acceptVideoPacket
  split
  · exact forwards
  · split
    · exact forwards
    · split
      · exact forwards.same rfl rfl rfl
      · exact forwards

theorem accept_audio_forwards (modes : Modes) (forwards : device.Forwards packets) :
    (device.acceptAudioPacket modes).1.Forwards packets := by
  unfold acceptAudioPacket
  split
  · exact forwards
  · split
    · exact forwards
    · split
      · exact forwards
      · split
        · exact forwards.same rfl rfl rfl
        · exact forwards

def passes (modes : Modes) (route : Route) (device : TsDevice) : Bool :=
  match route with
  | .video => (device.acceptVideoPacket modes).2
  | .audio => (device.acceptAudioPacket modes).2
  | .patPmt _ => true
  | .other => false

/-- The packets to be forwarded after `PlayTs` has returned. -/
def acknowledged (packets : List TsPacket) (pkt : TsPacket) (passing : Bool) (result : Nat) :
    List TsPacket :=
  if passing = true ∧ result = tsSize then packets ++ [pkt] else packets

/-- A filtered packet is acknowledged, an accepted one only if it is in the cache. -/
theorem play_filtered {filtered : TsDevice × Bool} (pkt : TsPacket)
    (forwards : filtered.1.Forwards packets) :
    ∃ next result,
      (if filtered.2 then filtered.1.playTsAny answers pkt else some (filtered.1, tsSize)) =
        some (next, result) ∧
      next.Forwards (acknowledged packets pkt filtered.2 result) ∧ (result = 0 ∨ result = tsSize) := by
  unfold acknowledged
  cases accepted : filtered.2 with
  | false => exact ⟨filtered.1, tsSize, rfl, forwards, Or.inr rfl⟩
  | true =>
      by_cases blocked : filtered.1.Blocked answers
      · obtain ⟨next, played, holds⟩ := play_ts_any_blocked answers pkt forwards blocked
        exact ⟨next, 0, played, holds, Or.inl rfl⟩
      · obtain ⟨next, played, holds⟩ := play_ts_any_cached answers pkt forwards blocked
        exact ⟨next, tsSize, played, holds, Or.inr rfl⟩

/-! ## `PlayTs` -/

theorem Forwards.length_unique {others : List TsPacket} (forwards : device.Forwards packets)
    (other : device.Forwards others) : packets.length = others.length := by
  have same := congrArg List.length (forwards.order.symm.trans other.order)
  rw [bytes_length, bytes_length] at same
  exact Nat.eq_of_mul_eq_mul_left (by decide) same

def KeepsFragment (device : TsDevice) : Route → Prop
  | .patPmt _ => ¬device.Blocked answers
  | .video | .audio | .other => True

theorem grab_spec (radio : Bool) (pkt : TsPacket) (forwards : device.Forwards packets) :
    ∃ next, device.grabPatPmt answers radio pkt = some next ∧
      (next.Forwards (packets ++ [pkt]) ↔ ¬device.Blocked answers) := by
  have finish : ∀ (middle : TsDevice) (result : Nat) (kept : List TsPacket),
      device.playTsAny answers pkt = some (middle, result) → middle.Forwards kept →
      ∃ next, device.grabPatPmt answers radio pkt = some next ∧ next.Forwards kept := by
    intro middle result kept played holds
    obtain ⟨flushed, n, ran, onward, -⟩ := flush_spec answers holds
    unfold grabPatPmt
    rw [played, Option.bind_some]
    dsimp only
    rw [ran, Option.map_some]
    cases radio with
    | true => exact ⟨_, rfl, onward.same rfl rfl rfl⟩
    | false => exact ⟨_, rfl, onward⟩
  by_cases blocked : device.Blocked answers
  · obtain ⟨middle, played, holds⟩ := play_ts_any_blocked answers pkt forwards blocked
    obtain ⟨next, grabbed, kept⟩ := finish middle 0 packets played holds
    refine ⟨next, grabbed, iff_of_false ?_ (not_not.mpr blocked)⟩
    intro both
    have same := kept.length_unique both
    rw [List.length_append, List.length_singleton] at same
    omega
  · obtain ⟨middle, played, holds⟩ := play_ts_any_cached answers pkt forwards blocked
    obtain ⟨next, grabbed, kept⟩ := finish middle tsSize (packets ++ [pkt]) played holds
    exact ⟨next, grabbed, iff_of_true kept blocked⟩

theorem play_ts_spec (modes : Modes) (route : Route) (pkt : TsPacket)
    (forwards : device.Forwards packets) :
    ∃ next result, device.playTs answers modes route pkt = some (next, result) ∧
      (next.Forwards (acknowledged packets pkt (device.passes modes route) result) ↔
        device.KeepsFragment answers route) := by
  cases route with
  | video =>
      obtain ⟨next, result, played, holds, -⟩ :=
        play_filtered answers pkt (accept_video_forwards modes forwards)
      refine ⟨next, result, ?_, iff_of_true holds trivial⟩
      unfold playTs basePlayTs playTsVideo
      dsimp only
      rw [played, Option.bind_some]
      dsimp only
      split <;> rfl
  | audio =>
      obtain ⟨next, result, played, holds, -⟩ :=
        play_filtered answers pkt (accept_audio_forwards modes forwards)
      refine ⟨next, result, ?_, iff_of_true holds trivial⟩
      unfold playTs basePlayTs playTsAudio
      dsimp only
      rw [played, Option.bind_some]
      dsimp only
      split <;> rfl
  | patPmt radio =>
      obtain ⟨next, grabbed, kept⟩ := grab_spec answers radio pkt forwards
      refine ⟨next, tsSize, ?_, kept⟩
      unfold playTs basePlayTs
      rw [Option.bind_some]
      dsimp only
      rw [if_neg (not_not.mpr rfl), grabbed]
      rfl
  | other =>
      refine ⟨device, tsSize, ?_, iff_of_true forwards trivial⟩
      unfold playTs basePlayTs
      rw [Option.bind_some]
      dsimp only
      rw [if_neg (not_not.mpr rfl)]

end TsDevice

/-! ## Runs -/

inductive TsOperation where
  | playTs (pkt : TsPacket) (modes : Modes) (route : Route)
  | tsBufferFlush
  | tsBufferClear

/-- The device, and the packets that are to be forwarded: those `PlayTs` has acknowledged,
without those that were in the cache when it was cleared. -/
structure TsRun where
  device : TsDevice
  packets : List TsPacket

def TsRun.Forwards (run : TsRun) : Prop := run.device.Forwards run.packets

def performTs (answers : Nat → Bool) (run : TsRun) : TsOperation → Option TsRun
  | .playTs pkt modes route =>
      (run.device.playTs answers modes route pkt).map fun (device, result) =>
        ⟨device, TsDevice.acknowledged run.packets pkt (run.device.passes modes route) result⟩
  | .tsBufferFlush =>
      (run.device.tsBufferFlush answers).map fun (device, _) => ⟨device, run.packets⟩
  | .tsBufferClear =>
      some ⟨run.device.tsBufferClear,
        run.packets.take (run.packets.length - run.device.tsBufSize / tsSize)⟩

/-- No fragment of a table meets a full cache while there is no buffer. -/
def TsRun.KeepsFragment (answers : Nat → Bool) (run : TsRun) : TsOperation → Prop
  | .playTs _ _ route => run.device.KeepsFragment answers route
  | .tsBufferFlush | .tsBufferClear => True

theorem bytes_take (packets : List TsPacket) (count : Nat) :
    TsDevice.bytesOf (packets.take count) = (TsDevice.bytesOf packets).take (tsSize * count) := by
  induction packets generalizing count with
  | nil => simp [TsDevice.bytesOf]
  | cons pkt packets ih =>
      cases count with
      | zero => simp [TsDevice.bytesOf]
      | succ count =>
          have whole : TsDevice.bytesOf (pkt :: packets) = pkt.cells ++ TsDevice.bytesOf packets :=
            List.flatMap_cons
          have front : TsDevice.bytesOf (pkt :: packets.take count) =
              pkt.cells ++ TsDevice.bytesOf (packets.take count) := List.flatMap_cons
          have all : pkt.cells.take (tsSize + tsSize * count) = pkt.cells :=
            List.take_of_length_le (by rw [pkt.sized]; exact Nat.le_add_right _ _)
          rw [List.take_succ_cons, front, whole, ih, Nat.mul_succ, Nat.add_comm, List.take_append,
            all, pkt.sized, Nat.add_sub_cancel_left]

theorem clear_forwards {run : TsRun} (forwards : run.Forwards) :
    TsRun.Forwards ⟨run.device.tsBufferClear,
      run.packets.take (run.packets.length - run.device.tsBufSize / tsSize)⟩ := by
  obtain ⟨⟨count, size⟩, inside, order⟩ := forwards
  have length := congrArg List.length order
  rw [List.length_append, TsDevice.cached_length inside, TsDevice.bytes_length, size] at length
  have before : run.device.played.flatten.length = tsSize * (run.packets.length - count) := by
    rw [Nat.mul_sub]
    omega
  refine ⟨Nat.dvd_zero _, Nat.zero_le _, ?_⟩
  dsimp only [TsDevice.tsBufferClear, TsDevice.cached]
  rw [size, Nat.mul_div_cancel_left _ (by decide), bytes_take, ← order, ← before, List.take_left,
    List.take_zero, List.append_nil]

theorem ts_step (answers : Nat → Bool) {run next : TsRun} (operation : TsOperation)
    (forwards : run.Forwards) (performed : performTs answers run operation = some next) :
    next.Forwards ↔ run.KeepsFragment answers operation := by
  cases operation with
  | playTs pkt modes route =>
      obtain ⟨device, result, played, kept⟩ := TsDevice.play_ts_spec answers modes route pkt forwards
      dsimp only [performTs] at performed
      rw [played, Option.map_some] at performed
      cases performed
      exact kept
  | tsBufferFlush =>
      obtain ⟨device, n, flushed, kept, -⟩ := TsDevice.flush_spec answers forwards
      dsimp only [performTs] at performed
      rw [flushed, Option.map_some] at performed
      cases performed
      exact iff_of_true kept trivial
  | tsBufferClear =>
      cases performed
      exact iff_of_true (clear_forwards forwards) trivial

/-- Nothing is accessed outside of `m_TsBuf`. -/
theorem ts_step_succeeds (answers : Nat → Bool) {run : TsRun} (operation : TsOperation)
    (forwards : run.Forwards) : ∃ next, performTs answers run operation = some next := by
  cases operation with
  | playTs pkt modes route =>
      obtain ⟨device, result, played, -⟩ := TsDevice.play_ts_spec answers modes route pkt forwards
      dsimp only [performTs]
      rw [played]
      exact ⟨_, rfl⟩
  | tsBufferFlush =>
      obtain ⟨device, n, flushed, -⟩ := TsDevice.flush_spec answers forwards
      dsimp only [performTs]
      rw [flushed]
      exact ⟨_, rfl⟩
  | tsBufferClear => exact ⟨_, rfl⟩

/-- The cache forwards everything it should after every operation of the sequence. -/
def ForwardsThroughout (answers : Nat → Bool) (tsBuf : Block UInt8 tsBufLength)
    (operations : List TsOperation) : Prop :=
  ∀ count ≤ operations.length, ∃ run,
    Machine.follow (performTs answers) ⟨.new tsBuf, []⟩ (operations.take count) = some run ∧
      run.Forwards

/-- Every acknowledged packet is forwarded exactly if no fragment of a table meets a full
cache while there is no buffer. -/
theorem forwards_throughout_iff (answers : Nat → Bool) (tsBuf : Block UInt8 tsBufLength)
    (operations : List TsOperation) :
    ForwardsThroughout answers tsBuf operations ↔
      ∀ (count : Nat) (within : count < operations.length) (run : TsRun),
        Machine.follow (performTs answers) ⟨.new tsBuf, []⟩ (operations.take count) = some run →
        run.KeepsFragment answers operations[count] := by
  have initially : TsRun.Forwards ⟨.new tsBuf, []⟩ := TsDevice.new_forwards tsBuf
  exact Machine.follow_progress_iff initially (fun _ operation => ts_step_succeeds answers operation)
    (fun _ operation _ => ts_step answers operation) operations

/-- Eleven packets fill the cache, and no buffer is free for the PAT that follows them. -/
theorem pat_lost_in_full_cache :
    ¬ForwardsThroughout (fun _ => false) (.filled 0)
      (List.replicate 11 (.playTs (.filled 0) ⟨.none, .none, false, false⟩ .video) ++
        [.playTs (.startingWith [0x47, 0x40, 0x00, 0x10] 0) ⟨.none, .none, false, false⟩
          (.patPmt false)]) := by
  intro always
  obtain ⟨run, reached, forwards⟩ := always 12 (by decide)
  have counts := congrArg (Option.map fun run : TsRun =>
    (run.device.played.flatten.length, run.device.tsBufSize, run.packets.length)) reached
  have computed : some (0, 2068, 12) = Option.map (fun run : TsRun =>
      (run.device.played.flatten.length, run.device.tsBufSize, run.packets.length)) (some run) :=
    Eq.trans (by decide +kernel) counts
  have length := congrArg List.length forwards.order
  rw [List.length_append, TsDevice.cached_length forwards.inside, TsDevice.bytes_length] at length
  simp only [Option.map_some, Option.some.injEq, Prod.mk.injEq] at computed
  rw [← computed.1, ← computed.2.1, ← computed.2.2] at length
  cases length

end Xineliboutput.Device
