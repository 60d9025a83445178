import Mathlib.Data.List.Infix
import Xineliboutput.Ts.Accumulator

/-!
# Video size from transport stream packets

`ts_get_video_size` skips the header of the first PES packet when nine bytes of it have
come, and looks for the video size in what follows. If the header is not complete at that
moment, the rest of it is taken for elementary stream.
-/

namespace Xineliboutput.Ts

open Xineliboutput.Foundation

set_option autoImplicit false

/-- `video_size_t` with its `pixel_aspect`. -/
structure VideoSize where
  width : Nat
  height : Nat
  num : Int
  den : Int
  deriving DecidableEq

/-- `mpeg2_aspect` -/
def mpeg2Aspect : List (Int × Int) :=
  [(0, 1), (1, 1), (4, 3), (16, 9), (221, 100)] ++ List.replicate 11 (0, 1)

def sequenceSize (byte4 byte5 byte6 byte7 : UInt8) : VideoSize :=
  let d := byte4.toNat * 65536 + byte5.toNat * 256 + byte6.toNat
  let aspect := mpeg2Aspect.getD (byte7.toNat / 16) (0, 1)
  { width := d / 4096
    height := d % 4096
    num := aspect.1 * (d % 4096 : Nat)
    den := aspect.2 * (d / 4096 : Nat) }

/-- `mpeg2_get_video_size`: `i < len-6` while seven bytes are left. The byte behind them
may lie outside; then there is no result. -/
def mpeg2GetVideoSize : List UInt8 → Option (Option VideoSize)
  | byte0 :: byte1 :: byte2 :: byte3 :: byte4 :: byte5 :: byte6 :: rest =>
      if byte0 = 0 ∧ byte1 = 0 ∧ byte2 = 1 ∧ byte3 = 0xb3 then
        rest.head?.map fun byte7 => some (sequenceSize byte4 byte5 byte6 byte7)
      else mpeg2GetVideoSize (byte1 :: byte2 :: byte3 :: byte4 :: byte5 :: byte6 :: rest)
  | _ => some none

/-- What the branches of `ts_get_video_size` for the types of video differ in. -/
structure SizeDetector where
  isHeader : List UInt8 → Bool
  getVideoSize : List UInt8 → Option (Option VideoSize)

/-- `IS_SC_SEQUENCE` and `mpeg2_get_video_size` -/
def mpeg2Detector : SizeDetector where
  isHeader := [0, 0, 1, 0xb3].isPrefixOf
  getVideoSize := mpeg2GetVideoSize

namespace TsState

/-- The loop over start codes. A round drops four bytes at least, so with as many rounds
as there are bytes the last one finds the queue short. -/
def searchSize (detector : SizeDetector) : Nat → TsState → Option (TsState × Option VideoSize)
  | 0, ts => some (ts, none)
  | rounds + 1, ts =>
      if ts.queued.length ≤ 9 then some (ts, none)
      else if detector.isHeader ts.queued then
        (detector.getVideoSize ts.queued).bind fun found =>
          match found with
          | some size => some (ts.reset, some size)
          | none =>
              if ts.queued.length < ts.bufSize - tsSize then some (ts, none)
              else searchSize detector rounds (ts.skipPayload 4).scan
      else searchSize detector rounds (ts.skipPayload 4).scan

def openPes (ts : TsState) : Option TsState :=
  if ts.insidePes then some ts
  else ts.queued[8]?.map fun headerDataLength =>
    { ts.skipPayload (8 + headerDataLength.toNat + 1) with insidePes := true }.scan

/-- `ts_get_video_size`; where it returns 1, with the size. -/
def getVideoSize (detector : SizeDetector) (ts : TsState) (data : TsPacket) :
    Option (TsState × Option VideoSize) :=
  (ts.getPes data).bind fun (got, count) =>
    if count < 9 then some (got, none)
    else got.openPes.bind fun opened => opened.searchSize detector opened.queued.length

end TsState

/-! ## A PES packet and its packets -/

/-- A PES packet of MPEG-2 video whose elementary data begin with a sequence header. -/
structure VideoPes where
  header : List UInt8
  elementary : List UInt8
  headerDataLength : UInt8
  start : startCode <+: header
  streamId : isVideoPacket (header.getD 3 0) = true
  lengthField : header[8]? = some headerDataLength
  headerSized : header.length = 9 + headerDataLength.toNat
  sequence : [0, 0, 1, 0xb3] <+: elementary
  long : 10 ≤ elementary.length

/-- The packets carry the PES packet and nothing else, and only the first begins a
payload unit. -/
structure VideoPes.CutInto (pes : VideoPes) (packets : List TsPacket) : Prop where
  starts : ∀ place (within : place < packets.length),
    packets[place].payloadStart = true ↔ place = 0
  nonempty : ∀ data ∈ packets, 0 < data.payloadSize
  whole : packets.flatMap TsPacket.payload = pes.header ++ pes.elementary

def arrived (packets : List TsPacket) (count : Nat) : List UInt8 :=
  (packets.take count).flatMap TsPacket.payload

/-- Exactly one packet gives a size, that of the elementary data, and no byte of the
header is taken for elementary stream: while the elementary stream is scanned, the
whole header and what is queued have been received. -/
structure VideoPes.Detected (pes : VideoPes) (bufferSize : Nat) (packets : List TsPacket) :
    Prop where
  once : ∃ final labels size,
    Machine.drive (TsState.getVideoSize mpeg2Detector) (tsStateInit bufferSize) packets =
      some (final, labels) ∧
    mpeg2GetVideoSize pes.elementary = some (some size) ∧
    labels.filterMap Prod.snd = [size]
  headerSkipped : ∀ count ≤ packets.length, ∀ ts labels,
    Machine.drive (TsState.getVideoSize mpeg2Detector) (tsStateInit bufferSize)
      (packets.take count) = some (ts, labels) →
    ts.insidePes = true →
    pes.header.length + ts.queued.length ≤ (arrived packets count).length

/-! ## One packet -/

theorem scan_startcode_begun {stream text : List UInt8} (starts : startCode <+: stream)
    (begun : text <+: stream) : scanStartcode text = text := by
  match text with
  | [] | [_] | [_, _] => rfl
  | byte0 :: byte1 :: byte2 :: rest =>
      obtain ⟨after, rfl⟩ := starts
      simp only [startCode, List.cons_append, List.cons_prefix_cons] at begun
      obtain ⟨rfl, rfl, rfl, -⟩ := begun
      rfl

theorem VideoPes.sequence_starts (pes : VideoPes) : startCode <+: pes.elementary :=
  List.IsPrefix.trans (by decide) pes.sequence

theorem VideoPes.stream_starts (pes : VideoPes) : startCode <+: pes.header ++ pes.elementary :=
  pes.start.trans (List.prefix_append _ _)

def VideoPes.Gives (pes : VideoPes) (size : VideoSize) : Prop :=
  ∀ text, text <+: pes.elementary → 8 ≤ text.length →
    mpeg2Detector.isHeader text = true ∧ mpeg2Detector.getVideoSize text = some (some size)

theorem VideoPes.size_given (pes : VideoPes) : ∃ size, pes.Gives size := by
  obtain ⟨data, whole⟩ := pes.sequence
  have long := pes.long
  rw [← whole] at long
  simp only [Gives, ← whole]
  match data with
  | byte4 :: byte5 :: byte6 :: byte7 :: _ =>
      refine ⟨sequenceSize byte4 byte5 byte6 byte7, ?_⟩
      intro text begun enough
      match text with
      | _ :: _ :: _ :: _ :: _ :: _ :: _ :: _ :: rest =>
          simp only [List.cons_append, List.nil_append, List.cons_prefix_cons] at begun
          obtain ⟨rfl, rfl, rfl, rfl, rfl, rfl, rfl, rfl, -⟩ := begun
          refine ⟨rfl, ?_⟩
          simp [mpeg2Detector, mpeg2GetVideoSize]

namespace TsState

theorem search_few {detector : SizeDetector} {ts : TsState} (few : ts.queued.length ≤ 9)
    (rounds : Nat) : ts.searchSize detector rounds = some (ts, none) := by
  cases rounds with
  | zero => rw [searchSize]
  | succ rounds => rw [searchSize, if_pos few]

theorem search_found {detector : SizeDetector} {ts : TsState} {size : VideoSize}
    (many : 9 < ts.queued.length) (starts : detector.isHeader ts.queued = true)
    (found : detector.getVideoSize ts.queued = some (some size)) :
    ts.searchSize detector ts.queued.length = some (ts.reset, some size) := by
  obtain ⟨rounds, counted⟩ : ∃ rounds, ts.queued.length = rounds + 1 :=
    ⟨ts.queued.length - 1, by omega⟩
  have searched : ¬ ts.queued.length ≤ 9 := by omega
  rw [counted, searchSize, if_neg searched, if_pos starts, found, Option.bind_some]

theorem get_pes_roomy (ts : TsState) (data : TsPacket) (size : 8 * tsSize ≤ ts.bufSize)
    (few : ts.queued.length ≤ 9) (fresh : ts.pusiSeen = false → ts.queued = [])
    (taking : ts.Taking data) {text : List UInt8}
    (scanned : scanStartcode (ts.queued ++ data.payload) = text) :
    ts.getPes data = some ({ ts with pusiSeen := true, queued := text }, text.length) := by
  simp only [tsSize] at size
  have sound : ts.Sound := ⟨size, by omega, fresh⟩
  have room : ts.makeRoom = ts := by
    rw [makeRoom, if_neg]
    simp only [tsSize]
    omega
  rw [get_pes_taking sound taking, taken, room, scanned]

end TsState

namespace VideoPes

def collecting (bufferSize : Nat) (text : List UInt8) : TsState :=
  { tsStateInit bufferSize with pusiSeen := !text.isEmpty, queued := text }

def opened (bufferSize : Nat) (data : List UInt8) : TsState :=
  { tsStateInit bufferSize with pusiSeen := true, insidePes := true, queued := data }

def stateAfter (pes : VideoPes) (bufferSize : Nat) (text : List UInt8) : TsState :=
  if text.length < 9 then collecting bufferSize text
  else if text.length ≤ pes.header.length + 9 then
    opened bufferSize (text.drop pes.header.length)
  else tsStateInit bufferSize

variable {pes : VideoPes} {bufferSize : Nat} {text : List UInt8}

theorem state_after_short (short : text.length < 9) :
    pes.stateAfter bufferSize text = collecting bufferSize text := by
  rw [stateAfter, if_pos short]

theorem state_after_inside (enough : 9 ≤ text.length)
    (inside : text.length ≤ pes.header.length + 9) :
    pes.stateAfter bufferSize text = opened bufferSize (text.drop pes.header.length) := by
  rw [stateAfter, if_neg (by omega), if_pos inside]

theorem state_after_done (done : pes.header.length + 9 < text.length) :
    pes.stateAfter bufferSize text = tsStateInit bufferSize := by
  rw [stateAfter, if_neg (by omega), if_neg (by omega)]

theorem behind_header (begun : text <+: pes.header ++ pes.elementary) :
    text.drop pes.header.length <+: pes.elementary := by
  have dropped := begun.drop pes.header.length
  rwa [List.drop_left] at dropped

theorem search_opened {size : VideoSize} (gives : pes.Gives size)
    (begun : text <+: pes.header ++ pes.elementary) (enough : 9 ≤ text.length)
    (complete : pes.header.length ≤ text.length) :
    (opened bufferSize (text.drop pes.header.length)).searchSize mpeg2Detector
        (text.drop pes.header.length).length =
      some (pes.stateAfter bufferSize text,
        if pes.header.length + 9 < text.length then some size else none) := by
  have length := List.length_drop (l := text) (i := pes.header.length)
  by_cases done : pes.header.length + 9 < text.length
  · rw [if_pos done, state_after_done done]
    obtain ⟨starts, found⟩ := gives _ (behind_header begun) (by omega)
    have many : 9 < (opened bufferSize (text.drop pes.header.length)).queued.length := by
      simp only [opened]
      omega
    exact TsState.search_found many starts found
  · rw [if_neg done, state_after_inside enough (by omega)]
    apply TsState.search_few
    simp only [opened]
    omega

theorem header_length (pes : VideoPes) : 9 ≤ pes.header.length := by
  have sized := pes.headerSized
  omega

theorem get_pes_collecting {data : TsPacket}
    (begun : text ++ data.payload <+: pes.header ++ pes.elementary) (short : text.length < 9)
    (taking : text = [] → data.payloadStart = true) (nonempty : data.payload ≠ []) :
    (collecting bufferSize text).getPes data =
      some (collecting bufferSize (text ++ data.payload), (text ++ data.payload).length) := by
  have got := TsState.get_pes_roomy (collecting bufferSize text) data
    (TsState.init_sound bufferSize).size (Nat.le_of_lt short)
    (by simp [collecting]) ?_ (scan_startcode_begun pes.stream_starts begun)
  · rw [got]
    simp [collecting, nonempty]
  · cases text with
    | nil => exact .inr (taking rfl)
    | cons byte rest => exact .inl rfl

theorem open_collecting (begun : text <+: pes.header ++ pes.elementary)
    (enough : 9 ≤ text.length) :
    (collecting bufferSize text).openPes =
      some (opened bufferSize (scanStartcode (text.drop pes.header.length))) := by
  have length := pes.header_length
  have lengthByte : text[8]? = some pes.headerDataLength := by
    rw [← pes.lengthField, List.getElem?_eq_getElem (by omega), begun.getElem,
      List.getElem_append_left (by omega), List.getElem?_eq_getElem]
  have skipped : 8 + pes.headerDataLength.toNat + 1 = pes.header.length := by
    rw [pes.headerSized]
    omega
  have present : text ≠ [] := by
    rintro rfl
    simp at enough
  simp [TsState.openPes, collecting, tsStateInit, lengthByte, skipped, TsState.skipPayload,
    TsState.scan, opened, present]

theorem get_pes_opened {data : TsPacket}
    (begun : text ++ data.payload <+: pes.header ++ pes.elementary)
    (complete : pes.header.length ≤ text.length)
    (inside : text.length ≤ pes.header.length + 9) :
    (opened bufferSize (text.drop pes.header.length)).getPes data =
      some (opened bufferSize ((text ++ data.payload).drop pes.header.length),
        ((text ++ data.payload).drop pes.header.length).length) := by
  have length := List.length_drop (l := text) (i := pes.header.length)
  have behind := behind_header begun
  have joined : text.drop pes.header.length ++ data.payload =
      (text ++ data.payload).drop pes.header.length :=
    (List.drop_append_of_le_length complete).symm
  apply TsState.get_pes_roomy (opened bufferSize (text.drop pes.header.length)) data
    (TsState.init_sound bufferSize).size
  · simp only [opened]
    omega
  · intro unseen
    cases unseen
  · exact .inl rfl
  · simp only [opened, joined]
    exact scan_startcode_begun pes.sequence_starts behind

/-- No packet ends inside the header at or behind its ninth byte. -/
def Skippable (pes : VideoPes) (text : List UInt8) : Prop :=
  9 ≤ text.length → pes.header.length ≤ text.length

theorem step_collecting {size : VideoSize} (gives : pes.Gives size) {data : TsPacket}
    (begun : text ++ data.payload <+: pes.header ++ pes.elementary) (short : text.length < 9)
    (taking : text = [] → data.payloadStart = true) (nonempty : data.payload ≠ [])
    (skippable : pes.Skippable (text ++ data.payload)) :
    (pes.stateAfter bufferSize text).getVideoSize mpeg2Detector data =
      some (pes.stateAfter bufferSize (text ++ data.payload),
        if pes.header.length + 9 < (text ++ data.payload).length then some size else none) := by
  rw [state_after_short short, TsState.getVideoSize,
    get_pes_collecting begun short taking nonempty, Option.bind_some]
  by_cases enough : 9 ≤ (text ++ data.payload).length
  · have unscanned := scan_startcode_begun pes.sequence_starts (behind_header begun)
    simp only [if_neg (Nat.not_lt.mpr enough)]
    rw [open_collecting begun enough, unscanned, Option.bind_some]
    exact search_opened gives begun enough (skippable enough)
  · have length := pes.header_length
    simp only [if_pos (Nat.lt_of_not_le enough)]
    rw [state_after_short (Nat.lt_of_not_le enough), if_neg (by omega)]

theorem step_opened {size : VideoSize} (gives : pes.Gives size) {data : TsPacket}
    (begun : text ++ data.payload <+: pes.header ++ pes.elementary) (enough : 9 ≤ text.length)
    (complete : pes.header.length ≤ text.length)
    (inside : text.length ≤ pes.header.length + 9) :
    (pes.stateAfter bufferSize text).getVideoSize mpeg2Detector data =
      some (pes.stateAfter bufferSize (text ++ data.payload),
        if pes.header.length + 9 < (text ++ data.payload).length then some size else none) := by
  have longer : text.length ≤ (text ++ data.payload).length := by simp
  have length := List.length_drop (l := text ++ data.payload) (i := pes.header.length)
  rw [state_after_inside enough inside, TsState.getVideoSize,
    get_pes_opened begun complete inside, Option.bind_some]
  by_cases few : ((text ++ data.payload).drop pes.header.length).length < 9
  · simp only [if_pos few]
    rw [state_after_inside (by omega) (by omega), if_neg (by omega)]
  · simp only [if_neg few]
    exact search_opened gives begun (by omega) (by omega)

/-- One packet of the PES packet: the size is found when ten bytes of the elementary data
have come. -/
theorem step (bufferSize : Nat) {size : VideoSize} (gives : pes.Gives size) {data : TsPacket}
    (begun : text ++ data.payload <+: pes.header ++ pes.elementary)
    (starts : data.payloadStart = true ↔ text = []) (nonempty : data.payload ≠ [])
    (before : pes.Skippable text) (after : pes.Skippable (text ++ data.payload)) :
    (pes.stateAfter bufferSize text).getVideoSize mpeg2Detector data =
      some (pes.stateAfter bufferSize (text ++ data.payload),
        if text.length ≤ pes.header.length + 9 ∧
          pes.header.length + 9 < (text ++ data.payload).length then some size else none) := by
  have length := pes.header_length
  by_cases short : text.length < 9
  · rw [step_collecting gives begun short starts.mpr nonempty after]
    simp only [show text.length ≤ pes.header.length + 9 by omega, true_and]
  by_cases inside : text.length ≤ pes.header.length + 9
  · have enough : 9 ≤ text.length := Nat.le_of_not_lt short
    rw [step_opened gives begun enough (before enough) inside]
    simp only [inside, true_and]
  · have waiting : ¬ (tsStateInit bufferSize).Taking data := by
      have present : text ≠ [] := by
        rintro rfl
        simp at inside
      simp [TsState.Taking, tsStateInit, starts, present]
    rw [state_after_done (by omega), state_after_done (by simp; omega), if_neg (by omega),
      TsState.getVideoSize, TsState.get_pes_waiting waiting]
    rfl

theorem step_cut_short (bufferSize : Nat) {data : TsPacket}
    (begun : text ++ data.payload <+: pes.header ++ pes.elementary) (short : text.length < 9)
    (taking : text = [] → data.payloadStart = true) (nonempty : data.payload ≠ [])
    (unskippable : ¬ pes.Skippable (text ++ data.payload)) :
    (pes.stateAfter bufferSize text).getVideoSize mpeg2Detector data =
      some (opened bufferSize [], none) := by
  obtain ⟨enough, cutShort⟩ : 9 ≤ (text ++ data.payload).length ∧
      (text ++ data.payload).length < pes.header.length := by
    simpa [Skippable] using unskippable
  rw [state_after_short short, TsState.getVideoSize,
    get_pes_collecting begun short taking nonempty, Option.bind_some]
  simp only [if_neg (Nat.not_lt.mpr enough)]
  rw [open_collecting begun enough, Option.bind_some,
    List.drop_eq_nil_of_le (Nat.le_of_lt cutShort)]
  apply TsState.search_few
  exact Nat.zero_le 9

end VideoPes

/-! ## Whole runs -/

theorem arrived_succ {packets : List TsPacket} {count : Nat} (within : count < packets.length) :
    arrived packets (count + 1) = arrived packets count ++ packets[count].payload := by
  rw [arrived, arrived, List.take_succ_eq_append_getElem within, List.flatMap_append,
    List.flatMap_singleton]

theorem arrived_le (packets : List TsPacket) {count later : Nat} (order : count ≤ later) :
    (arrived packets count).length ≤ (arrived packets later).length := by
  have taken := List.take_prefix count (packets.take later)
  rw [List.take_take, Nat.min_eq_left order] at taken
  obtain ⟨rest, same⟩ := taken
  rw [arrived, arrived, ← same, List.flatMap_append, List.length_append]
  omega

namespace VideoPes.CutInto

variable {pes : VideoPes} {packets : List TsPacket}

theorem begun (cut : pes.CutInto packets) (count : Nat) :
    arrived packets count <+: pes.header ++ pes.elementary := by
  rw [← cut.whole, ← List.take_append_drop count packets, List.flatMap_append,
    List.take_append_drop]
  exact List.prefix_append _ _

theorem payload_nonempty (cut : pes.CutInto packets) {data : TsPacket} (member : data ∈ packets) :
    data.payload ≠ [] := by
  have size := cut.nonempty data member
  have length := data.payload_length
  simp only [TsPacket.payloadSize, tsSize] at size length
  intro empty
  rw [empty, List.length_nil] at length
  omega

theorem starts_arrived (cut : pes.CutInto packets) {count : Nat}
    (within : count < packets.length) :
    packets[count].payloadStart = true ↔ arrived packets count = [] := by
  rw [cut.starts count within]
  constructor
  · rintro rfl
    rfl
  · intro empty
    cases count with
    | zero => rfl
    | succ count =>
        rw [arrived_succ (by omega), List.append_eq_nil_iff] at empty
        exact absurd empty.2 (cut.payload_nonempty (List.getElem_mem _))

end VideoPes.CutInto

namespace VideoPes

variable {pes : VideoPes} {packets : List TsPacket}

theorem run {size : VideoSize} (gives : pes.Gives size) (bufferSize : Nat)
    (cut : pes.CutInto packets) {count : Nat} (within : count ≤ packets.length)
    (skippable : ∀ earlier ≤ count, pes.Skippable (arrived packets earlier)) :
    ∃ labels, Machine.drive (TsState.getVideoSize mpeg2Detector) (tsStateInit bufferSize)
        (packets.take count) = some (pes.stateAfter bufferSize (arrived packets count), labels) ∧
      labels.filterMap Prod.snd =
        if pes.header.length + 9 < (arrived packets count).length then [size] else [] := by
  induction count with
  | zero => exact ⟨[], rfl, rfl⟩
  | succ count ih =>
      obtain ⟨labels, driven, found⟩ := ih (by omega)
        (fun earlier order => skippable earlier (by omega))
      have begun := cut.begun (count + 1)
      have next := skippable (count + 1) (Nat.le_refl _)
      have longer := arrived_le packets (Nat.le_succ count)
      rw [arrived_succ within] at begun next longer ⊢
      have stepped := step bufferSize gives begun (cut.starts_arrived within)
        (cut.payload_nonempty (List.getElem_mem within)) (skippable count (Nat.le_succ count)) next
      have onward := Machine.drive_snoc.mpr ⟨_, _, _, driven, stepped, rfl⟩
      rw [← List.take_succ_eq_append_getElem within] at onward
      refine ⟨_, onward, ?_⟩
      rw [List.filterMap_append, found]
      by_cases done : pes.header.length + 9 < (arrived packets count).length
      · rw [if_pos done, if_neg (by omega), if_pos (by omega)]
        rfl
      · rw [if_neg done]
        by_cases now :
            pes.header.length + 9 < (arrived packets count ++ packets[count].payload).length
        · rw [if_pos ⟨by omega, now⟩, if_pos now]
          rfl
        · rw [if_neg (by omega), if_neg now]
          rfl

/-- The first packet that ends inside the header behind its eighth byte has the elementary
stream opened too early. -/
theorem opened_early {size : VideoSize} (gives : pes.Gives size) (bufferSize : Nat)
    (cut : pes.CutInto packets) {count : Nat} (within : count < packets.length)
    (skippable : ∀ earlier ≤ count, pes.Skippable (arrived packets earlier))
    (unskippable : ¬ pes.Skippable (arrived packets (count + 1))) :
    ∃ labels, Machine.drive (TsState.getVideoSize mpeg2Detector) (tsStateInit bufferSize)
      (packets.take (count + 1)) = some (opened bufferSize [], labels) := by
  obtain ⟨labels, driven, -⟩ := run gives bufferSize cut (Nat.le_of_lt within) skippable
  have short : (arrived packets count).length < 9 := by
    by_contra enough
    have before := skippable count (Nat.le_refl _) (Nat.le_of_not_lt enough)
    have longer := arrived_le packets (Nat.le_succ count)
    exact unskippable fun _ => before.trans longer
  have begun := cut.begun (count + 1)
  rw [arrived_succ within] at begun unskippable
  have stepped := step_cut_short bufferSize begun short
    (cut.starts_arrived within).mpr (cut.payload_nonempty (List.getElem_mem within)) unskippable
  have onward := Machine.drive_snoc.mpr ⟨_, _, _, driven, stepped, rfl⟩
  rw [← List.take_succ_eq_append_getElem within] at onward
  exact ⟨_, onward⟩

/-- The size is found and the header skipped exactly when no packet ends inside the header
at or behind its ninth byte. -/
theorem detected_iff (bufferSize : Nat) (cut : pes.CutInto packets) :
    pes.Detected bufferSize packets ↔
      ∀ count ≤ packets.length, pes.Skippable (arrived packets count) := by
  obtain ⟨size, gives⟩ := pes.size_given
  constructor
  · intro detected
    suffices upTo : ∀ count ≤ packets.length, ∀ earlier ≤ count,
        pes.Skippable (arrived packets earlier) from
      fun count within => upTo count within count (Nat.le_refl _)
    intro count
    induction count with
    | zero =>
        intro _ earlier order enough
        rw [Nat.le_zero.mp order] at enough
        cases enough
    | succ count ih =>
        intro within earlier order
        have skippable := ih (by omega)
        rcases Nat.lt_or_eq_of_le order with before | rfl
        · exact skippable earlier (by omega)
        by_contra unskippable
        obtain ⟨labels, driven⟩ := opened_early gives bufferSize cut within skippable unskippable
        have complete := detected.headerSkipped _ within _ labels driven rfl
        exact unskippable fun _ => complete
  · intro skippable
    constructor
    case once =>
      obtain ⟨labels, driven, found⟩ := run gives bufferSize cut (Nat.le_refl _) skippable
      have all : (arrived packets packets.length).length =
          pes.header.length + pes.elementary.length := by
        rw [arrived, List.take_length, cut.whole, List.length_append]
      have long := pes.long
      rw [if_pos (by omega)] at found
      rw [List.take_length] at driven
      have known := gives pes.elementary (List.prefix_refl _) (by omega)
      exact ⟨_, labels, size, driven, known.2, found⟩
    case headerSkipped =>
      intro count within ts labels driven inside
      obtain ⟨_, reached, -⟩ := run gives bufferSize cut within
        (fun earlier order => skippable earlier (by omega))
      rw [reached, Option.some.injEq, Prod.mk.injEq] at driven
      obtain ⟨rfl, -⟩ := driven
      by_cases short : (arrived packets count).length < 9
      · rw [state_after_short short] at inside
        cases inside
      by_cases open_ : (arrived packets count).length ≤ pes.header.length + 9
      · have complete := skippable count within (Nat.le_of_not_lt short)
        rw [state_after_inside (Nat.le_of_not_lt short) open_, opened, List.length_drop]
        omega
      · rw [state_after_done (by omega)] at inside
        cases inside

/-- Private data in the header look like a sequence header of 352 by 288 pixels; the
picture has 720 by 576. -/
def lookalike : VideoPes where
  header := [0, 0, 1, 0xe0, 0, 0, 0x80, 0x01, 17, 0x80] ++
    [0, 0, 1, 0xb3, 0x16, 0x01, 0x20, 0x13] ++ List.replicate 8 0xff
  elementary := [0, 0, 1, 0xb3, 0x2d, 0x02, 0x40, 0x33] ++ List.replicate 100 0xff
  headerDataLength := 17
  start := by decide
  streamId := by decide
  lengthField := by decide
  headerSized := by decide
  sequence := by decide
  long := by decide

def stuffed (flags : UInt8) (payload : List UInt8) : TsPacket :=
  .startingWith ([0x47, flags, 0, 0x30, .ofNat (183 - payload.length)] ++
    List.replicate (183 - payload.length) 0xff ++ payload) 0xff

/-- The packet in two pieces, the first with this many bytes. -/
def lookalikeCut (first : Nat) : List TsPacket :=
  let stream := lookalike.header ++ lookalike.elementary
  [stuffed 0x40 (stream.take first), stuffed 0 (stream.drop first)]

theorem detected_iff_header_in_one_packet : lookalike.Detected 0 (lookalikeCut 26) := by
  have cut : lookalike.CutInto (lookalikeCut 26) :=
    ⟨by decide +kernel, by decide +kernel, by decide +kernel⟩
  have skippable : ∀ count ≤ 2, 9 ≤ (arrived (lookalikeCut 26) count).length →
      lookalike.header.length ≤ (arrived (lookalikeCut 26) count).length := by
    decide +kernel
  exact (detected_iff 0 cut).mpr skippable

/-- With the header cut behind its ninth byte, the size found is the one in the header. -/
theorem header_taken_for_sequence :
    lookalike.CutInto (lookalikeCut 9) ∧
    (lookalike.header ++ lookalike.elementary).length < (tsStateInit 0).bufSize ∧
    (∃ final labels, Machine.drive (TsState.getVideoSize mpeg2Detector) (tsStateInit 0)
        (lookalikeCut 9) = some (final, labels) ∧
      labels.filterMap Prod.snd = [⟨352, 288, 288, 352⟩]) ∧
    ¬ lookalike.Detected 0 (lookalikeCut 9) := by
  have ran : (Machine.drive (TsState.getVideoSize mpeg2Detector) (tsStateInit 0)
      (lookalikeCut 9)).map (fun result => result.2.filterMap Prod.snd) =
        some [⟨352, 288, 288, 352⟩] := by
    decide +kernel
  obtain ⟨⟨final, labels⟩, driven, found⟩ := Option.map_eq_some_iff.mp ran
  refine ⟨⟨by decide +kernel, by decide +kernel, by decide +kernel⟩, by decide +kernel,
    ⟨final, labels, driven, found⟩, ?_⟩
  rintro ⟨⟨final', labels', size, driven', given, found'⟩, -⟩
  rw [driven, Option.some.injEq, Prod.mk.injEq] at driven'
  obtain ⟨rfl, rfl⟩ := driven'
  have wide : mpeg2GetVideoSize lookalike.elementary = some (some ⟨720, 576, 9216, 6480⟩) := by
    decide +kernel
  rw [found, List.cons.injEq] at found'
  rw [wide, ← found'.1] at given
  exact absurd given (by decide)

end VideoPes

end Xineliboutput.Ts
