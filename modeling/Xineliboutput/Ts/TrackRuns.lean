import Mathlib
import Xineliboutput.Ts.TrackConverters

/-!
# Runs of the track table

The arrays are walked up to the first empty slot. As long as each of them is filled from the
front and has an empty slot left, every converter is reached.
-/

namespace Xineliboutput.Ts

open Xineliboutput.Foundation Xineliboutput.Foundation.Machine

set_option autoImplicit false

namespace TrackDemux

variable {this next : TrackDemux} {tsData : TsData}

/-- Flushing now reaches every live converter, and disposing now has disposed each once. -/
structure Sound (this : TrackDemux) : Prop where
  flushes : ∃ flushed, this.tsDataFlush = some flushed ∧
    ∀ number, this.Live number → number ∈ flushed
  disposes : ∃ next, this.tsDataDispose = some next ∧ next.disposed.Nodup ∧
    ∀ number < next.created.length, number ∈ next.disposed

/-- After `ts_data_reset_audio` with a fifo. -/
structure AudioReset (before after : TrackDemux) (keepChannel : Int) : Prop where
  one : ∀ tsData, after.tsData = some tsData → ∀ index : Fin tsMaxTracks,
    index.val < tsData.audioTypes.length →
      ∃! number, after.Live number ∧ after.homes[number]? = some (.audio index)
  kept : ∀ (index : Fin tsMaxTracks) (number : Nat), (index.val : Int) = keepChannel →
    before.held (.audio index) = some number →
      after.held (.audio index) = some number ∧ after.Live number

def Terminated (this : TrackDemux) : Prop :=
  ∀ tsData, this.tsData = some tsData →
    (∃ count < tsMaxTracks, tsData.audio.Filled count) ∧
      ∃ count < tsMaxTracks, tsData.spu.Filled count

/-! ## Reaching every converter -/

theorem held_tracks (there : this.tsData = some tsData) :
    this.held = heldTracks tsData.video tsData.audio tsData.spu := by
  rw [held, there]
  rfl

theorem homes_length : this.homes.length = this.created.length := List.length_map _

theorem held_live (consistent : this.Consistent) {place : TrackPlace} {number : Nat}
    (holds : this.held place = some number) : this.Live number := by
  have home := consistent.home place number holds
  refine ⟨?_, consistent.alive place number holds⟩
  rw [← homes_length]
  exact (List.getElem?_eq_some_iff.mp home).1

theorem live_held (consistent : this.Consistent) {number : Nat} (live : this.Live number) :
    ∃ place, this.held place = some number := by
  have created : number < this.homes.length := homes_length ▸ live.1
  exact ⟨this.homes[number],
    consistent.owned _ number (List.getElem?_eq_getElem created) live.2⟩

theorem one_track (consistent : this.Consistent) (there : this.tsData = some tsData)
    (first second : TrackPlace) {number : Nat}
    (one : heldTracks tsData.video tsData.audio tsData.spu first = some number)
    (other : heldTracks tsData.video tsData.audio tsData.spu second = some number) :
    first = second := by
  rw [← held_tracks there] at one other
  exact consistent.one_place one other

theorem distinct_audio (consistent : this.Consistent) (there : this.tsData = some tsData) :
    tsData.audio.Distinct := by
  intro first second number one other
  exact TrackPlace.audio.inj (one_track consistent there (.audio first) (.audio second) one other)

theorem distinct_spu (consistent : this.Consistent) (there : this.tsData = some tsData) :
    tsData.spu.Distinct := by
  intro first second number one other
  exact TrackPlace.spu.inj (one_track consistent there (.spu first) (.spu second) one other)

/-- The converters of walks over both arrays, with that of the video. -/
def allTracks (tsData : TsData) (audioCount spuCount : Nat) : List Nat :=
  tsData.video.toList ++ Slots.handled (fun _ => true) tsData.audio 0 audioCount ++
    Slots.handled (fun _ => true) tsData.spu 0 spuCount

section Walks

variable {audioCount spuCount : Nat} (audio : tsData.audio.Filled audioCount)
  (spu : tsData.spu.Filled spuCount)

include audio spu in
theorem all_tracks_mem {number : Nat} :
    number ∈ allTracks tsData audioCount spuCount ↔
      ∃ place, heldTracks tsData.video tsData.audio tsData.spu place = some number := by
  rw [allTracks, List.mem_append, List.mem_append, Option.mem_toList, audio.mem, spu.mem]
  constructor
  · intro found
    rcases found with (video | ⟨index, holds⟩) | ⟨index, holds⟩
    · exact ⟨.video, video⟩
    · exact ⟨.audio index, holds⟩
    · exact ⟨.spu index, holds⟩
  · intro found
    obtain ⟨place, holds⟩ := found
    cases place with
    | video => exact .inl (.inl holds)
    | audio index => exact .inl (.inr ⟨index, holds⟩)
    | spu index => exact .inr ⟨index, holds⟩

include audio spu in
theorem all_tracks_nodup (consistent : this.Consistent) (there : this.tsData = some tsData) :
    (allTracks tsData audioCount spuCount).Nodup := by
  rw [allTracks, List.nodup_append, List.nodup_append]
  refine ⟨⟨?_, Slots.handled_nodup (distinct_audio consistent there) 0 _, ?_⟩,
    Slots.handled_nodup (distinct_spu consistent there) 0 _, ?_⟩
  · cases tsData.video <;> simp
  · intro number video other member same
    subst same
    obtain ⟨index, holds⟩ := audio.mem.mp member
    cases one_track consistent there .video (.audio index) (Option.mem_toList.mp video) holds
  · intro number member other late same
    subst same
    obtain ⟨index, holds⟩ := spu.mem.mp late
    rcases List.mem_append.mp member with video | early
    · cases one_track consistent there .video (.spu index) (Option.mem_toList.mp video) holds
    · obtain ⟨earlier, before⟩ := audio.mem.mp early
      cases one_track consistent there (.audio earlier) (.spu index) before holds

include audio spu in
theorem reset_run (audioRoom : audioCount < tsMaxTracks) (spuRoom : spuCount < tsMaxTracks) :
    tsData.ts2esReset =
      some ({ tsData with video := none, audio := fun _ => none, spu := fun _ => none },
        allTracks tsData audioCount spuCount) := by
  simp only [TsData.ts2esReset, audio.walk audioRoom, spu.walk spuRoom, audio.swept, spu.swept,
    Option.bind_eq_bind, Option.bind_some]
  rfl

include audio spu in
theorem flush_run (audioRoom : audioCount < tsMaxTracks) (spuRoom : spuCount < tsMaxTracks) :
    tsData.flush = some (allTracks tsData audioCount spuCount) := by
  simp only [TsData.flush, audio.walk audioRoom, spu.walk spuRoom, Option.bind_eq_bind,
    Option.bind_some]
  rfl

include audio spu in
theorem reset_housed (consistent : this.Consistent) (there : this.tsData = some tsData) :
    Housed (fun _ => none) this.homes (this.disposed ++ allTracks tsData audioCount spuCount) := by
  apply consistent.release (all_tracks_nodup audio spu consistent there)
  · exact nofun
  · intro place number holds
    rw [held_tracks there] at holds
    exact ⟨fun _ => nofun, fun _ => (all_tracks_mem audio spu).mpr ⟨place, holds⟩⟩
  · intro number member
    rw [held_tracks there]
    exact (all_tracks_mem audio spu).mp member

end Walks

/-! ## What the walks need -/

theorem terminated_of_flush (consistent : this.Consistent)
    (flushes : ∃ flushed, this.tsDataFlush = some flushed ∧
      ∀ number, this.Live number → number ∈ flushed) : this.Terminated := by
  intro tsData there
  obtain ⟨flushed, ran, all⟩ := flushes
  rw [tsDataFlush, there, Option.elim_some, TsData.flush] at ran
  obtain ⟨⟨audio, audioFlushed⟩, audioRan, ran⟩ := Option.bind_eq_some_iff.mp ran
  obtain ⟨⟨spu, spuFlushed⟩, spuRan, ran⟩ := Option.bind_eq_some_iff.mp ran
  dsimp only at audioRan spuRan ran
  have reached : ∀ place number,
      heldTracks tsData.video tsData.audio tsData.spu place = some number →
        (tsData.video = some number ∨ number ∈ audioFlushed) ∨ number ∈ spuFlushed := by
    intro place number holds
    rw [← held_tracks there] at holds
    have member := all number (held_live consistent holds)
    rw [← Option.some.inj ran, List.mem_append, List.mem_append, Option.mem_toList] at member
    exact member
  constructor
  · apply Slots.filled_of_walk audioRan _ (distinct_audio consistent there)
    intro index number holds
    rcases reached (.audio index) number holds with (video | found) | spu
    · cases one_track consistent there .video (.audio index) video holds
    · exact found
    · obtain ⟨other, elsewhere⟩ := Slots.walk_visited spuRan spu
      cases one_track consistent there (.spu other) (.audio index) elsewhere holds
  · apply Slots.filled_of_walk spuRan _ (distinct_spu consistent there)
    intro index number holds
    rcases reached (.spu index) number holds with (video | audio) | found
    · cases one_track consistent there .video (.spu index) video holds
    · obtain ⟨other, elsewhere⟩ := Slots.walk_visited audioRan audio
      cases one_track consistent there (.audio other) (.spu index) elsewhere holds
    · exact found

theorem flush_reaches (consistent : this.Consistent) (terminated : this.Terminated) :
    ∃ flushed, this.tsDataFlush = some flushed ∧ ∀ number, this.Live number → number ∈ flushed := by
  cases there : this.tsData with
  | none =>
      refine ⟨[], by rw [tsDataFlush, there]; rfl, ?_⟩
      intro number live
      obtain ⟨place, holds⟩ := live_held consistent live
      rw [held, there] at holds
      cases holds
  | some tsData =>
      obtain ⟨⟨audioCount, audioRoom, audio⟩, ⟨spuCount, spuRoom, spu⟩⟩ := terminated tsData there
      refine ⟨allTracks tsData audioCount spuCount, ?_, ?_⟩
      · rw [tsDataFlush, there, Option.elim_some, flush_run audio spu audioRoom spuRoom]
      · intro number live
        obtain ⟨place, holds⟩ := live_held consistent live
        rw [held_tracks there] at holds
        exact (all_tracks_mem audio spu).mpr ⟨place, holds⟩

theorem dispose_run (consistent : this.Consistent) (terminated : this.Terminated) :
    ∃ next, this.tsDataDispose = some next ∧ next.tsData = none ∧ next.Consistent := by
  cases there : this.tsData with
  | none => exact ⟨this, by rw [tsDataDispose, there], there, consistent⟩
  | some tsData =>
      obtain ⟨⟨audioCount, audioRoom, audio⟩, ⟨spuCount, spuRoom, spu⟩⟩ := terminated tsData there
      refine ⟨{ this with
        tsData := none
        disposed := this.disposed ++ allTracks tsData audioCount spuCount }, ?_, rfl, ?_⟩
      · rw [tsDataDispose, there]
        dsimp only
        rw [reset_run audio spu audioRoom spuRoom]
        rfl
      · exact reset_housed audio spu consistent there

theorem sound_iff_terminated (consistent : this.Consistent) : this.Sound ↔ this.Terminated := by
  constructor
  · intro sound
    exact terminated_of_flush consistent sound.flushes
  · intro terminated
    refine ⟨flush_reaches consistent terminated, ?_⟩
    obtain ⟨next, ran, gone, housed⟩ := dispose_run consistent terminated
    refine ⟨next, ran, housed.once, ?_⟩
    intro number created
    apply housed.all_disposed
    · intro place
      rw [held, gone]
      rfl
    · rw [homes_length]
      exact created

/-! ## Creating the converters -/

theorem audio_types_bounded (tsData : TsData) : tsData.audioTypes.length ≤ tsMaxTracks := by
  rw [TsData.audioTypes, List.length_map]
  exact tsData.pmt.audioTracks.bounded

theorem spu_types_bounded (tsData : TsData) : tsData.spuTypes.length ≤ tsMaxTracks := by
  rw [TsData.spuTypes, List.length_map]
  exact tsData.pmt.spuTracks.bounded

theorem filled_of_fresh {types : List Nat} {before after : TrackSlots}
    (empty : ∀ index, before index = none)
    (filled : FilledSlots false 0 types.length before after) : after.Filled types.length := by
  intro index
  constructor
  · intro holds
    by_contra beyond
    rw [filled.others index (.inr (by omega)), empty] at holds
    cases holds
  · intro short
    exact filled.made index (Nat.zero_le _) (by omega)

variable {disposed : List Nat} {created : List Converter}

def audioGiven (tsData : TsData) (audioFifo : FifoGiven) : List Nat :=
  if audioFifo then tsData.audioTypes else []

def spuGiven (tsData : TsData) (videoFifo : FifoGiven) : List Nat :=
  if videoFifo then tsData.spuTypes else []

theorem audio_given_bounded (tsData : TsData) (audioFifo : FifoGiven) :
    (audioGiven tsData audioFifo).length ≤ tsMaxTracks := by
  rw [audioGiven]
  split
  · exact audio_types_bounded tsData
  · exact Nat.zero_le _

theorem spu_given_bounded (tsData : TsData) (videoFifo : FifoGiven) :
    (spuGiven tsData videoFifo).length ≤ tsMaxTracks := by
  rw [spuGiven]
  split
  · exact spu_types_bounded tsData
  · exact Nat.zero_le _

theorem create_tracks_run (videoFifo audioFifo : FifoGiven) (video : tsData.video = none)
    (audio : tsData.audio = fun _ => none) (spu : tsData.spu = fun _ => none)
    (housed : Housed (fun _ => none) (created.map Converter.place) disposed) :
    ∃ after more, tsData.createTracks videoFifo audioFifo created = some (after, more) ∧
      after.audio.Filled (audioGiven tsData audioFifo).length ∧
      after.spu.Filled (spuGiven tsData videoFifo).length ∧
      Housed (heldTracks after.video after.audio after.spu) (more.map Converter.place)
        disposed := by
  have nothing : heldTracks none (fun _ => none) (fun _ => none) = fun _ => none := by
    funext place
    cases place <;> rfl
  rw [← nothing] at housed
  let hasVideo : Bool := videoFifo && tsData.pmt.videoPid != invalidPid
  let first : Option Nat := if hasVideo then some created.length else tsData.video
  let made : List Converter :=
    if hasVideo then created ++ [⟨.video, tsData.pmt.videoType⟩] else created
  have started : Housed (heldTracks first tsData.audio tsData.spu) (made.map Converter.place)
      disposed := by
    rw [audio, spu]
    dsimp only [first, made]
    cases hasVideo with
    | false =>
        rw [if_neg Bool.false_ne_true, if_neg Bool.false_ne_true, video]
        exact housed
    | true =>
        rw [if_pos rfl, if_pos rfl, List.map_append, held_update_video none]
        have vacant : heldTracks none (fun _ => none) (fun _ => none) .video = none := rfl
        have grown := housed.create vacant
        rw [List.length_map] at grown
        exact grown
  obtain ⟨spuAfter, spuMade, spuRan, spuFilled, spuHoused⟩ :=
    fill_slots_run false (fun slots => heldTracks first tsData.audio slots)
      (fun slots index number => held_update_spu first tsData.audio slots index number)
      (fun _ _ => rfl) (spuGiven tsData videoFifo) 0 tsData.spu made
      (by rw [Nat.zero_add]; exact spu_given_bounded tsData videoFifo)
      (fun _ index _ => congrFun spu index) started
  obtain ⟨audioAfter, audioMade, audioRan, audioFilled, audioHoused⟩ :=
    fill_slots_run false (fun slots => heldTracks first slots spuAfter)
      (fun slots index number => held_update_audio first slots spuAfter index number)
      (fun _ _ => rfl) (audioGiven tsData audioFifo) 0 tsData.audio spuMade
      (by rw [Nat.zero_add]; exact audio_given_bounded tsData audioFifo)
      (fun _ index _ => congrFun audio index) spuHoused
  refine ⟨{ tsData with video := first, audio := audioAfter, spu := spuAfter }, audioMade, ?_,
    filled_of_fresh (congrFun audio) audioFilled, filled_of_fresh (congrFun spu) spuFilled,
    audioHoused⟩
  rw [TsData.createTracks]
  dsimp only [first, made, hasVideo, spuGiven, audioGiven] at spuRan audioRan ⊢
  rw [spuRan, Option.bind_eq_bind, Option.bind_some]
  dsimp only
  rw [audioRan, Option.bind_some]

/-! ## The calls -/

theorem reset_all_run (consistent : this.Consistent) (terminated : this.Terminated) :
    ∃ cleared gone,
      this.tsData.elim (some (.zeroed, [])) TsData.ts2esReset = some (cleared, gone) ∧
        cleared.pmt = (this.tsData.getD .zeroed).pmt ∧ cleared.video = none ∧
        (cleared.audio = fun _ => none) ∧ (cleared.spu = fun _ => none) ∧
        Housed (fun _ => none) this.homes (this.disposed ++ gone) := by
  cases there : this.tsData with
  | none =>
      refine ⟨.zeroed, [], rfl, rfl, rfl, rfl, rfl, ?_⟩
      have housed := consistent
      rw [Consistent, held, there] at housed
      rw [List.append_nil]
      exact housed
  | some tsData =>
      obtain ⟨⟨audioCount, audioRoom, audio⟩, ⟨spuCount, spuRoom, spu⟩⟩ := terminated tsData there
      exact ⟨_, _, reset_run audio spu audioRoom spuRoom, rfl, rfl, rfl, rfl,
        reset_housed audio spu consistent there⟩

/-- All slots are made anew, and one of each array stays empty where the map leaves one. -/
theorem init_run (consistent : this.Consistent) (terminated : this.Terminated)
    (videoFifo audioFifo : FifoGiven) :
    ∃ next, this.tsDataTs2esInit videoFifo audioFifo = some next ∧ next.Consistent ∧
      (next.Terminated ↔
        (audioGiven (this.tsData.getD .zeroed) audioFifo).length < tsMaxTracks ∧
          (spuGiven (this.tsData.getD .zeroed) videoFifo).length < tsMaxTracks) := by
  obtain ⟨cleared, gone, reset, map, video, audio, spu, housed⟩ :=
    reset_all_run consistent terminated
  obtain ⟨after, more, ran, audioFilled, spuFilled, placed⟩ :=
    create_tracks_run videoFifo audioFifo video audio spu housed
  have audioSame : audioGiven cleared audioFifo =
      audioGiven (this.tsData.getD .zeroed) audioFifo := by
    rw [audioGiven, audioGiven, TsData.audioTypes, TsData.audioTypes, map]
  have spuSame : spuGiven cleared videoFifo = spuGiven (this.tsData.getD .zeroed) videoFifo := by
    rw [spuGiven, spuGiven, TsData.spuTypes, TsData.spuTypes, map]
  refine ⟨{ tsData := some after, created := more, disposed := this.disposed ++ gone },
    ?_, placed, ?_⟩
  · rw [tsDataTs2esInit, reset, Option.bind_eq_bind, Option.bind_some]
    dsimp only
    rw [ran, Option.bind_eq_bind, Option.bind_some]
  · rw [← audioSame, ← spuSame,
      ← audioFilled.room_iff (audio_given_bounded cleared audioFifo),
      ← spuFilled.room_iff (spu_given_bounded cleared videoFifo)]
    constructor
    · intro terminated
      exact terminated after rfl
    · intro room tsData there
      cases there
      exact room

def keepOne (audio : TrackSlots) (keepChannel : Int) : TrackSlots :=
  fun index => if (index.val : Int) = keepChannel then audio index else none

theorem swept_keep_one {audio : TrackSlots} {count : Nat} (filled : audio.Filled count)
    (keepChannel : Int) :
    Slots.swept (fun i => (i : Int) != keepChannel) true audio 0 count =
      keepOne audio keepChannel := by
  funext index
  rw [Slots.swept, keepOne]
  by_cases kept : (index.val : Int) = keepChannel
  · rw [if_pos kept, if_neg]
    intro emptied
    exact bne_iff_ne.mp emptied.2.2.1 kept
  · rw [if_neg kept]
    split
    · rfl
    · next beyond =>
        rw [← Option.not_isSome_iff_eq_none, filled]
        intro short
        exact beyond ⟨Nat.zero_le _, short, bne_iff_ne.mpr kept, rfl⟩

/-- What the first loop of `ts_data_reset_audio` leaves. -/
theorem keep_housed (consistent : this.Consistent) (there : this.tsData = some tsData)
    {count : Nat} (filled : tsData.audio.Filled count) (keepChannel : Int) :
    Housed (heldTracks tsData.video (keepOne tsData.audio keepChannel) tsData.spu) this.homes
      (this.disposed ++
        Slots.handled (fun i => (i : Int) != keepChannel) tsData.audio 0 count) := by
  have housed := consistent
  rw [Consistent, held_tracks there] at housed
  apply housed.release (Slots.handled_nodup (distinct_audio consistent there) 0 count)
  · intro place number holds
    cases place with
    | video | spu index => exact holds
    | audio index =>
        simp only [heldTracks, keepOne] at holds
        split at holds
        · exact holds
        · cases holds
  · intro place number holds
    rw [Slots.handled_mem]
    constructor
    · intro gone
      obtain ⟨index, _, _, other, there'⟩ := gone
      obtain rfl := one_track consistent there place (.audio index) holds there'
      simp only [heldTracks, keepOne, if_neg (bne_iff_ne.mp other)]
      intro absent
      cases absent
    · intro lost
      cases place with
      | video | spu index => exact absurd holds lost
      | audio index =>
          have other : (index.val : Int) ≠ keepChannel := by
            intro kept
            apply lost
            simp only [heldTracks, keepOne, if_pos kept]
            exact holds
          have short := (filled index).mp (Option.isSome_iff_exists.mpr ⟨number, holds⟩)
          exact ⟨index, Nat.zero_le _, by omega, bne_iff_ne.mpr other, holds⟩
  · intro number gone
    obtain ⟨index, _, _, _, holds⟩ := Slots.handled_mem.mp gone
    exact ⟨.audio index, holds⟩

theorem isSome_refilled {types : List Nat} {before after : TrackSlots}
    (filled : FilledSlots true 0 types.length before after) (index : Fin tsMaxTracks) :
    (after index).isSome = true ↔ index.val < types.length ∨ (before index).isSome = true := by
  by_cases short : index.val < types.length
  · have made := filled.made index (Nat.zero_le _) (by omega)
    exact ⟨fun _ => .inl short, fun _ => made⟩
  · rw [filled.others index (.inr (by omega))]
    constructor
    · exact .inr
    · intro either
      exact either.resolve_left short

theorem isSome_kept (audio : TrackSlots) (keepChannel : Int) (index : Fin tsMaxTracks) :
    (keepOne audio keepChannel index).isSome = true ↔
      (index.val : Int) = keepChannel ∧ (audio index).isSome = true := by
  rw [keepOne]
  split
  · next kept => simp [kept]
  · next other => simp [other]

theorem refilled_room_iff {types : List Nat} {audio after : TrackSlots} {keepChannel : Int}
    {count : Nat} (audioFilled : audio.Filled count) (room : count < tsMaxTracks)
    (bounded : types.length ≤ tsMaxTracks)
    (filled : FilledSlots true 0 types.length (keepOne audio keepChannel) after) :
    (∃ count < tsMaxTracks, after.Filled count) ↔
      types.length < tsMaxTracks ∧ ∀ index : Fin tsMaxTracks, (index.val : Int) = keepChannel →
        (audio index).isSome = true → index.val ≤ types.length := by
  have present : ∀ index, (after index).isSome = true ↔ index.val < types.length ∨
      ((index.val : Int) = keepChannel ∧ (audio index).isSome = true) := by
    intro index
    rw [isSome_refilled filled, isSome_kept]
  constructor
  · intro found
    obtain ⟨total, short, front⟩ := found
    have below : types.length ≤ total := by
      by_contra beyond
      have last := (front ⟨total, short⟩).mp ((present ⟨total, short⟩).mpr (.inl (by simp; omega)))
      exact Nat.lt_irrefl total last
    refine ⟨by omega, ?_⟩
    intro index kept there
    by_contra beyond
    have inside : types.length < tsMaxTracks := by omega
    have reached := (front index).mp ((present index).mpr (.inr ⟨kept, there⟩))
    have gap : types.length < total := by omega
    rcases (present ⟨types.length, inside⟩).mp ((front ⟨types.length, inside⟩).mpr gap) with
      short | other
    · exact Nat.lt_irrefl _ short
    · have same := other.1
      dsimp only at same
      omega
  · intro both
    obtain ⟨inside, low⟩ := both
    by_cases next : (types.length : Int) = keepChannel ∧
        (audio ⟨types.length, inside⟩).isSome = true
    · have more := (audioFilled ⟨types.length, inside⟩).mp next.2
      dsimp only at more
      refine ⟨types.length + 1, by omega, ?_⟩
      intro index
      rw [present]
      constructor
      · intro either
        rcases either with short | kept
        · omega
        · have atMost := low index kept.1 kept.2
          omega
      · intro short
        by_cases last : index.val = types.length
        · have here : index = ⟨types.length, inside⟩ := Fin.ext last
          rw [here]
          exact .inr next
        · exact .inl (by omega)
    · refine ⟨types.length, inside, ?_⟩
      intro index
      rw [present]
      constructor
      · intro either
        rcases either with short | kept
        · exact short
        · have atMost := low index kept.1 kept.2
          by_contra beyond
          have last : index.val = types.length := by omega
          apply next
          have here : index = ⟨types.length, inside⟩ := Fin.ext last
          rw [← here, ← last]
          exact kept
      · exact .inl

/-- The slots that `ts_data_reset_audio` must not leave a gap below. -/
def KeepsFront (tsData : TsData) (audioFifo : FifoGiven) (keepChannel : Int) : Prop :=
  (audioGiven tsData audioFifo).length < tsMaxTracks ∧
    ∀ index : Fin tsMaxTracks, (index.val : Int) = keepChannel →
      (tsData.audio index).isSome = true → index.val ≤ (audioGiven tsData audioFifo).length

theorem reset_audio_steps (consistent : this.Consistent) (there : this.tsData = some tsData)
    {count : Nat} (audio : tsData.audio.Filled count) (room : count < tsMaxTracks)
    (audioFifo : FifoGiven) (keepChannel : Int) :
    ∃ next after, this.tsDataResetAudio audioFifo keepChannel = some next ∧
      next.tsData = some { tsData with audio := after } ∧
      FilledSlots true 0 (audioGiven tsData audioFifo).length
        (keepOne tsData.audio keepChannel) after ∧ next.Consistent := by
  have housed := keep_housed consistent there audio keepChannel
  obtain ⟨after, more, ran, filled, placed⟩ :=
    fill_slots_run true (fun slots => heldTracks tsData.video slots tsData.spu)
      (fun slots index number => held_update_audio tsData.video slots tsData.spu index number)
      (fun _ _ => rfl) (audioGiven tsData audioFifo) 0 (keepOne tsData.audio keepChannel)
      this.created (by rw [Nat.zero_add]; exact audio_given_bounded tsData audioFifo)
      (fun clears => nomatch clears) housed
  refine ⟨{
    tsData := some { tsData with audio := after }
    created := more
    disposed := this.disposed ++
      Slots.handled (fun i => (i : Int) != keepChannel) tsData.audio 0 count }, after, ?_, rfl,
    filled, placed⟩
  rw [tsDataResetAudio, there]
  dsimp only
  rw [audio.walk room, swept_keep_one audio, Option.bind_eq_bind, Option.bind_some]
  dsimp only
  rw [audioGiven] at ran
  rw [ran, Option.bind_eq_bind, Option.bind_some]

theorem audio_reset_of_filled {next : TrackDemux} (consistent : next.Consistent)
    (there : this.tsData = some tsData) {after : TrackSlots} {keepChannel : Int}
    (nextThere : next.tsData = some { tsData with audio := after })
    (filled : FilledSlots true 0 tsData.audioTypes.length (keepOne tsData.audio keepChannel) after) :
    AudioReset this next keepChannel where
  one := by
    intro current current' index short
    rw [nextThere] at current'
    cases current'
    obtain ⟨number, holds⟩ :=
      Option.isSome_iff_exists.mp ((isSome_refilled filled index).mpr (.inl short))
    have place : next.held (.audio index) = some number := by
      rw [held_tracks nextThere]
      exact holds
    refine ⟨number, ⟨held_live consistent place, consistent.home _ number place⟩, ?_⟩
    intro other both
    have again := consistent.owned _ other both.2 both.1.2
    rw [place] at again
    exact (Option.some.inj again).symm
  kept := by
    intro index number same holds
    rw [held_tracks there] at holds
    have keeps : keepOne tsData.audio keepChannel index = some number := by
      rw [keepOne, if_pos same]
      exact holds
    have place : next.held (.audio index) = some number := by
      rw [held_tracks nextThere]
      simp only [heldTracks]
      rw [filled.kept rfl index (by rw [keeps]; rfl), keeps]
    exact ⟨place, held_live consistent place⟩

theorem reset_audio_run (consistent : this.Consistent) (terminated : this.Terminated)
    (audioFifo : FifoGiven) (keepChannel : Int) :
    ∃ next, this.tsDataResetAudio audioFifo keepChannel = some next ∧ next.Consistent ∧
      (next.Terminated ↔
        ∀ tsData, this.tsData = some tsData → KeepsFront tsData audioFifo keepChannel) ∧
      (audioFifo = true → AudioReset this next keepChannel) := by
  cases there : this.tsData with
  | none =>
      refine ⟨this, by rw [tsDataResetAudio, there], consistent, ?_, ?_⟩
      · exact ⟨fun _ _ => nofun, fun _ => terminated⟩
      · intro _
        constructor
        · intro tsData there'
          rw [there] at there'
          cases there'
        · intro index number _ holds
          rw [held, there] at holds
          cases holds
  | some tsData =>
      obtain ⟨⟨audioCount, audioRoom, audio⟩, spu⟩ := terminated tsData there
      obtain ⟨next, after, ran, nextThere, filled, kept⟩ :=
        reset_audio_steps consistent there audio audioRoom audioFifo keepChannel
      refine ⟨next, ran, kept, ?_, ?_⟩
      · have room := refilled_room_iff audio audioRoom (audio_given_bounded tsData audioFifo) filled
        constructor
        · intro terminated current there'
          cases there'
          exact room.mp (terminated _ nextThere).1
        · intro fits current there'
          rw [nextThere] at there'
          cases there'
          exact ⟨room.mpr (fits tsData rfl), spu⟩
      · intro given
        subst given
        exact audio_reset_of_filled kept there nextThere filled

/-! ## Runs -/

/-- A call that leaves an empty slot behind the filled ones. -/
def CallFits (this : TrackDemux) : TrackCall → Prop
  | .init videoFifo audioFifo =>
      (audioGiven (this.tsData.getD .zeroed) audioFifo).length < tsMaxTracks ∧
        (spuGiven (this.tsData.getD .zeroed) videoFifo).length < tsMaxTracks
  | .resetAudio audioFifo keepChannel =>
      ∀ tsData, this.tsData = some tsData → KeepsFront tsData audioFifo keepChannel
  | .pmt _ | .flush | .dispose => True

/-- What the next call gives, where it is `ts_data_reset_audio` with a fifo. -/
def ResetsAudio (this : TrackDemux) : TrackCall → Prop
  | .resetAudio true keepChannel =>
      ∀ next, this.perform (.resetAudio true keepChannel) = some next →
        AudioReset this next keepChannel
  | _ => True

theorem new_pmt_consistent (consistent : this.Consistent) (tables : PmtTables) :
    (this.newPmt tables).Consistent := by
  have same : (this.newPmt tables).held = this.held := by
    cases there : this.tsData with
    | none =>
        simp only [held, newPmt, there]
        funext place
        cases place <;> rfl
    | some tsData =>
        simp only [held, newPmt, there]
        rfl
  rw [Consistent, same]
  exact consistent

theorem new_pmt_terminated (terminated : this.Terminated) (tables : PmtTables) :
    (this.newPmt tables).Terminated := by
  intro tsData there
  cases there
  cases here : this.tsData with
  | none =>
      exact ⟨⟨0, by decide, Slots.filled_nothing⟩, ⟨0, by decide, Slots.filled_nothing⟩⟩
  | some tsData => exact terminated tsData here

/-- Each call goes through, and keeps what the next ones need exactly when it fits. -/
theorem perform_run (consistent : this.Consistent) (terminated : this.Terminated)
    (call : TrackCall) :
    ∃ next, this.perform call = some next ∧ next.Consistent ∧
      (next.Terminated ↔ this.CallFits call) ∧ this.ResetsAudio call := by
  cases call with
  | pmt tables =>
      refine ⟨_, rfl, new_pmt_consistent consistent tables, ?_, trivial⟩
      exact ⟨fun _ => trivial, fun _ => new_pmt_terminated terminated tables⟩
  | init videoFifo audioFifo =>
      obtain ⟨next, ran, kept, fits⟩ := init_run consistent terminated videoFifo audioFifo
      exact ⟨next, ran, kept, fits, trivial⟩
  | resetAudio audioFifo keepChannel =>
      obtain ⟨next, ran, kept, fits, resets⟩ :=
        reset_audio_run consistent terminated audioFifo keepChannel
      refine ⟨next, ran, kept, fits, ?_⟩
      cases audioFifo with
      | false => trivial
      | true =>
          intro after again
          obtain rfl : next = after := Option.some.inj (ran.symm.trans again)
          exact resets rfl
  | flush =>
      obtain ⟨flushed, ran, _⟩ := flush_reaches consistent terminated
      refine ⟨this, ?_, consistent, ⟨fun _ => trivial, fun _ => terminated⟩, trivial⟩
      rw [perform, ran]
      rfl
  | dispose =>
      obtain ⟨next, ran, gone, kept⟩ := dispose_run consistent terminated
      refine ⟨next, ran, kept, ⟨fun _ => trivial, ?_⟩, trivial⟩
      intro _ tsData there
      rw [gone] at there
      cases there

/-- The state in which every walk finds what it looks for. -/
structure Ordered (this : TrackDemux) : Prop where
  consistent : this.Consistent
  terminated : this.Terminated

theorem fresh_ordered : TrackDemux.fresh.Ordered := ⟨Housed.nothing, nofun⟩

theorem Ordered.sound (ordered : this.Ordered) : this.Sound :=
  (sound_iff_terminated ordered.consistent).mpr ordered.terminated

theorem Ordered.progress (ordered : this.Ordered) (call : TrackCall) :
    ∃ next, this.perform call = some next := by
  obtain ⟨next, ran, _⟩ := perform_run ordered.consistent ordered.terminated call
  exact ⟨next, ran⟩

theorem Ordered.step_iff (ordered : this.Ordered) {call : TrackCall}
    (performed : this.perform call = some next) : next.Ordered ↔ this.CallFits call := by
  obtain ⟨after, ran, consistent, fits, _⟩ :=
    perform_run ordered.consistent ordered.terminated call
  obtain rfl : after = next := Option.some.inj (ran.symm.trans performed)
  exact ⟨fun holds => fits.mp holds.terminated, fun proper => ⟨consistent, fits.mpr proper⟩⟩

/-- In a run in which every call goes through and every state is sound, nothing is misplaced. -/
theorem run_ordered (calls : List TrackCall)
    (sound : ∀ count ≤ calls.length, ∃ state,
      follow perform fresh (calls.take count) = some state ∧ state.Sound) :
    ∀ count ≤ calls.length, ∃ state,
      follow perform fresh (calls.take count) = some state ∧ state.Ordered := by
  intro count
  induction count with
  | zero =>
      intro _
      exact ⟨fresh, rfl, fresh_ordered⟩
  | succ count ih =>
      intro within
      obtain ⟨state, reached, ordered⟩ := ih (Nat.le_of_lt within)
      obtain ⟨next, onward, fine⟩ := sound (count + 1) within
      refine ⟨next, onward, ?_⟩
      rw [follow_take_succ perform calls fresh within, reached, Option.bind_some] at onward
      obtain ⟨after, performed, kept, _⟩ :=
        perform_run ordered.consistent ordered.terminated calls[count]
      obtain rfl : after = next := Option.some.inj (performed.symm.trans onward)
      exact ⟨kept, (sound_iff_terminated kept).mp fine⟩

/-- In every run, the walks stay inside the arrays and miss no converter, and the audio tracks
are set up as asked, exactly as long as each call leaves both arrays filled from the front with
an empty slot behind. -/
theorem tracks_sound_iff_fit (calls : List TrackCall) :
    (∀ count ≤ calls.length, ∃ state, follow perform fresh (calls.take count) = some state ∧
      state.Sound ∧ ∀ call, calls[count]? = some call → state.ResetsAudio call) ↔
    ∀ (count : Nat) (within : count < calls.length) (state : TrackDemux),
      follow perform fresh (calls.take count) = some state → state.CallFits calls[count] := by
  have runs := follow_progress_iff fresh_ordered
    (fun state call ordered => Ordered.progress ordered call)
    (fun state call next ordered performed => Ordered.step_iff ordered performed) calls
  rw [← runs]
  constructor
  · intro sound
    apply run_ordered
    intro count within
    obtain ⟨state, reached, fine, _⟩ := sound count within
    exact ⟨state, reached, fine⟩
  · intro ordered count within
    obtain ⟨state, reached, ordered⟩ := ordered count within
    refine ⟨state, reached, ordered.sound, ?_⟩
    intro call _
    obtain ⟨_, _, _, _, resets⟩ := perform_run ordered.consistent ordered.terminated call
    exact resets

def fullMap : PmtTables where
  pcrPid := 0x100
  videoPid := invalidPid
  videoType := 0
  audioTracks := ⟨(List.range tsMaxTracks).map fun i => ⟨0x101 + i, 3⟩, by decide⟩
  spuTracks := .none

def pairMap : PmtTables where
  pcrPid := 0x100
  videoPid := invalidPid
  videoType := 0
  audioTracks := ⟨[⟨0x101, 3⟩, ⟨0x102, 3⟩], by decide⟩
  spuTracks := .none

/-- With all slots filled a flush and a disposal look behind the array; with the second channel
kept and no fifo they do not find it. -/
theorem walks_miss_the_end :
    (follow perform fresh [.pmt fullMap, .init true true]).map
        (fun state => (state.tsDataFlush, (state.tsDataDispose).map TrackDemux.disposed)) =
      some (none, none) ∧
    (follow perform fresh [.pmt pairMap, .init true true, .resetAudio false 1]).map
        (fun state => (state.created.length, state.tsDataFlush,
          (state.tsDataDispose).map TrackDemux.disposed)) =
      some (2, some [], some [0]) := by
  decide

end TrackDemux
end Xineliboutput.Ts
