import Mathlib.Algebra.Ring.Int.Defs
import Xineliboutput.Foundation.Machine
import Xineliboutput.Foundation.ObjectHomes
import Xineliboutput.Foundation.TerminatedSlots
import Xineliboutput.Ts.PmtSection

/-!
# The converters of the demuxer

The track table of `demux_xvdr_tsdata.c`. Converters are numbered in the order in which
`ts2es_init` makes them; which of them were disposed is recorded. A call is `none` where it
looks at an array behind its end.
-/

namespace Xineliboutput.Ts

open Xineliboutput.Foundation

set_option autoImplicit false

/-- Where a converter is kept: for its fifo and its stream index. -/
inductive TrackPlace where
  | video
  | audio (index : Fin tsMaxTracks)
  | spu (index : Fin tsMaxTracks)
  deriving DecidableEq

structure Converter where
  place : TrackPlace
  streamType : Nat
  deriving DecidableEq

abbrev TrackSlots := Slots Nat tsMaxTracks

/-- What `ts_data_t` has of the program map and the converters. -/
structure TsData where
  pmt : PmtTables
  video : Option Nat
  audio : TrackSlots
  spu : TrackSlots

/-- `calloc` -/
def TsData.zeroed : TsData where
  pmt := ⟨0, 0, 0, .none, .none⟩
  video := none
  audio _ := none
  spu _ := none

structure TrackDemux where
  tsData : Option TsData
  created : List Converter
  disposed : List Nat

abbrev FifoGiven := Bool

def streamDvbsub : Nat := 0x5906

/-- `ts2es_init` for one slot after the other; with `keeps` only for empty slots. -/
def fillSlots (place : Fin tsMaxTracks → TrackPlace) (keeps : Bool) :
    List Nat → Nat → TrackSlots → List Converter → Option (TrackSlots × List Converter)
  | [], _, slots, created => some (slots, created)
  | streamType :: types, i, slots, created =>
      if inside : i < tsMaxTracks then
        if keeps && (slots ⟨i, inside⟩).isSome then fillSlots place keeps types (i + 1) slots created
        else
          fillSlots place keeps types (i + 1)
            (Function.update slots ⟨i, inside⟩ (some created.length))
            (created ++ [⟨place ⟨i, inside⟩, streamType⟩])
      else none

namespace TsData

variable (tsData : TsData)

def audioTypes : List Nat := tsData.pmt.audioTracks.entries.map AudioTrack.type

/-- All subtitles are made `STREAM_DVBSUB`. -/
def spuTypes : List Nat := tsData.pmt.spuTracks.entries.map fun _ => streamDvbsub

/-- `ts_data_ts2es_reset`, with the converters disposed. -/
def ts2esReset : Option (TsData × List Nat) := do
  let (audio, audioGone) ← tsData.audio.walk (fun _ => true) true
  let (spu, spuGone) ← tsData.spu.walk (fun _ => true) true
  some ({ tsData with video := none, audio, spu }, tsData.video.toList ++ audioGone ++ spuGone)

/-- `ts_data_flush`: the converters that `ts2es_flush` is called for. -/
def flush : Option (List Nat) := do
  let (_, audioFlushed) ← tsData.audio.walk (fun _ => true) false
  let (_, spuFlushed) ← tsData.spu.walk (fun _ => true) false
  some (tsData.video.toList ++ audioFlushed ++ spuFlushed)

/-- The second half of `ts_data_ts2es_init`. -/
def createTracks (videoFifo audioFifo : FifoGiven) (created : List Converter) :
    Option (TsData × List Converter) := do
  let hasVideo : Bool := videoFifo && tsData.pmt.videoPid != invalidPid
  let video := if hasVideo then some created.length else tsData.video
  let created := if hasVideo then created ++ [⟨.video, tsData.pmt.videoType⟩] else created
  let (spu, created) ←
    fillSlots .spu false (if videoFifo then tsData.spuTypes else []) 0 tsData.spu created
  let (audio, created) ←
    fillSlots .audio false (if audioFifo then tsData.audioTypes else []) 0 tsData.audio created
  some ({ tsData with video, audio, spu }, created)

end TsData

namespace TrackDemux

variable (this : TrackDemux)

/-- `ts_data_ts2es_init` -/
def tsDataTs2esInit (videoFifo audioFifo : FifoGiven) : Option TrackDemux := do
  let (tsData, gone) ← this.tsData.elim (some (.zeroed, [])) TsData.ts2esReset
  let (tsData, created) ← tsData.createTracks videoFifo audioFifo this.created
  some { tsData := some tsData, created, disposed := this.disposed ++ gone }

/-- `ts_data_reset_audio` -/
def tsDataResetAudio (audioFifo : FifoGiven) (keepChannel : Int) : Option TrackDemux :=
  match this.tsData with
  | none => some this
  | some tsData => do
      let (audio, gone) ← tsData.audio.walk (fun i => (i : Int) != keepChannel) true
      let (audio, created) ←
        fillSlots .audio true (if audioFifo then tsData.audioTypes else []) 0 audio this.created
      some { tsData := some { tsData with audio }, created, disposed := this.disposed ++ gone }

/-- `ts_data_flush` -/
def tsDataFlush : Option (List Nat) := this.tsData.elim (some []) TsData.flush

/-- `ts_data_dispose` -/
def tsDataDispose : Option TrackDemux :=
  match this.tsData with
  | none => some this
  | some tsData => do
      let (_, gone) ← tsData.ts2esReset
      some { this with tsData := none, disposed := this.disposed ++ gone }

/-- A program map, in a `ts_data_t` that is there or is made for it. -/
def newPmt (pmt : PmtTables) : TrackDemux :=
  { this with tsData := some { this.tsData.getD .zeroed with pmt } }

end TrackDemux

inductive TrackCall where
  | pmt (tables : PmtTables)
  | init (videoFifo audioFifo : FifoGiven)
  | resetAudio (audioFifo : FifoGiven) (keepChannel : Int)
  | flush
  | dispose
  deriving DecidableEq

def TrackDemux.perform (this : TrackDemux) : TrackCall → Option TrackDemux
  | .pmt tables => some (this.newPmt tables)
  | .init videoFifo audioFifo => this.tsDataTs2esInit videoFifo audioFifo
  | .resetAudio audioFifo keepChannel => this.tsDataResetAudio audioFifo keepChannel
  | .flush => this.tsDataFlush.map fun _ => this
  | .dispose => this.tsDataDispose

def TrackDemux.fresh : TrackDemux where
  tsData := none
  created := []
  disposed := []

/-! ## Who holds a converter -/

def heldTracks (video : Option Nat) (audio spu : TrackSlots) : TrackPlace → Option Nat
  | .video => video
  | .audio index => audio index
  | .spu index => spu index

theorem held_update_audio (video : Option Nat) (audio spu : TrackSlots)
    (index : Fin tsMaxTracks) (number : Option Nat) :
    heldTracks video (Function.update audio index number) spu =
      Function.update (heldTracks video audio spu) (.audio index) number := by
  funext place
  cases place with
  | video | spu other => rfl
  | audio other =>
      by_cases same : other = index
      · subst same
        simp [heldTracks]
      · simp [heldTracks, same]

theorem held_update_spu (video : Option Nat) (audio spu : TrackSlots)
    (index : Fin tsMaxTracks) (number : Option Nat) :
    heldTracks video audio (Function.update spu index number) =
      Function.update (heldTracks video audio spu) (.spu index) number := by
  funext place
  cases place with
  | video | audio other => rfl
  | spu other =>
      by_cases same : other = index
      · subst same
        simp [heldTracks]
      · simp [heldTracks, same]

theorem held_update_video (video : Option Nat) (audio spu : TrackSlots) (number : Option Nat) :
    heldTracks number audio spu = Function.update (heldTracks video audio spu) .video number := by
  funext place
  cases place with
  | video => simp [heldTracks]
  | audio other | spu other => simp [heldTracks]

namespace TrackDemux

variable (this : TrackDemux)

def held : TrackPlace → Option Nat :=
  this.tsData.elim (fun _ => none) fun tsData => heldTracks tsData.video tsData.audio tsData.spu

def homes : List TrackPlace := this.created.map Converter.place

def Live (number : Nat) : Prop := number < this.created.length ∧ number ∉ this.disposed

def Consistent : Prop := Housed this.held this.homes this.disposed

end TrackDemux

/-! ## Making converters -/

/-- What the loops that make converters leave. -/
structure FilledSlots (keeps : Bool) (start count : Nat) (before after : TrackSlots) : Prop where
  made : ∀ index : Fin tsMaxTracks, start ≤ index.val → index.val < start + count →
    (after index).isSome = true
  others : ∀ index : Fin tsMaxTracks, index.val < start ∨ start + count ≤ index.val →
    after index = before index
  kept : keeps = true → ∀ index, (before index).isSome = true → after index = before index

theorem fill_slots_run {place : Fin tsMaxTracks → TrackPlace} (keeps : Bool) {disposed : List Nat}
    (held : TrackSlots → TrackPlace → Option Nat)
    (update : ∀ slots index number, held (Function.update slots index number) =
      Function.update (held slots) (place index) number)
    (at' : ∀ slots index, held slots (place index) = slots index)
    (types : List Nat) (start : Nat) (before : TrackSlots) (created : List Converter)
    (fits : start + types.length ≤ tsMaxTracks)
    (empty : keeps = false → ∀ index : Fin tsMaxTracks, start ≤ index.val → before index = none)
    (housed : Housed (held before) (created.map Converter.place) disposed) :
    ∃ after more, fillSlots place keeps types start before created = some (after, more) ∧
      FilledSlots keeps start types.length before after ∧
      Housed (held after) (more.map Converter.place) disposed := by
  induction types generalizing start before created with
  | nil =>
      refine ⟨before, created, rfl, ⟨?_, fun _ _ => rfl, fun _ _ _ => rfl⟩, housed⟩
      intro index lower upper
      simp only [List.length_nil] at upper
      omega
  | cons streamType types ih =>
      rw [List.length_cons] at fits
      have inside : start < tsMaxTracks := by omega
      rw [fillSlots, dif_pos inside]
      by_cases taken : (keeps && (before ⟨start, inside⟩).isSome) = true
      · rw [if_pos taken]
        obtain ⟨keeps', there⟩ := Bool.and_eq_true_iff.mp taken
        obtain ⟨after, more, ran, filled, housed⟩ := ih (start + 1) before created (by omega)
          (fun clears => by rw [keeps'] at clears; cases clears) housed
        refine ⟨after, more, ran, ⟨?_, ?_, filled.kept⟩, housed⟩
        · intro index lower upper
          by_cases first : index = ⟨start, inside⟩
          · rw [first, filled.kept keeps' _ there]
            exact there
          · have apart : index.val ≠ start := fun same => first (Fin.ext same)
            rw [List.length_cons] at upper
            exact filled.made index (by omega) (by omega)
        · intro index outside
          rw [List.length_cons] at outside
          exact filled.others index (by omega)
      · rw [if_neg taken]
        have vacant : before ⟨start, inside⟩ = none := by
          cases keeps with
          | false => exact empty rfl ⟨start, inside⟩ (Nat.le_refl start)
          | true =>
              rw [Bool.true_and] at taken
              exact Option.not_isSome_iff_eq_none.mp taken
        have grown := housed.create ((at' before ⟨start, inside⟩).trans vacant)
        rw [← update, List.length_map] at grown
        obtain ⟨after, more, ran, filled, housed⟩ := ih (start + 1)
          (Function.update before ⟨start, inside⟩ (some created.length))
          (created ++ [⟨place ⟨start, inside⟩, streamType⟩]) (by omega)
          (fun clears index lower => by
            rw [Function.update_of_ne]
            · exact empty clears index (by omega)
            · intro same
              rw [same] at lower
              exact Nat.not_succ_le_self start lower)
          (by rw [List.map_append]; exact grown)
        refine ⟨after, more, ran, ⟨?_, ?_, ?_⟩, housed⟩
        · intro index lower upper
          by_cases first : index = ⟨start, inside⟩
          · rw [first, filled.others _ (.inl (Nat.lt_succ_self start)), Function.update_self]
            rfl
          · have apart : index.val ≠ start := fun same => first (Fin.ext same)
            rw [List.length_cons] at upper
            exact filled.made index (by omega) (by omega)
        · intro index outside
          rw [List.length_cons] at outside
          rw [filled.others index (by omega), Function.update_of_ne]
          intro same
          rw [same] at outside
          rcases outside with lower | upper
          · exact Nat.lt_irrefl start lower
          · exact absurd upper (by simp)
        · intro keeps' index there
          have apart : index ≠ ⟨start, inside⟩ := by
            intro same
            rw [same, vacant] at there
            cases there
          have same := Function.update_of_ne apart (some created.length) before
          rw [filled.kept keeps' index (by rw [same]; exact there), same]

end Xineliboutput.Ts
