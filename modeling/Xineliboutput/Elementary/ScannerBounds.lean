import Xineliboutput.Elementary.ScannerReads

/-!
# Scanners inside their buffers

When a scanner reads inside the bytes that it is given, and writes inside `nal_data`. Most of
the conditions are about the end of the buffer: start codes too close to it, and parameter sets
that end in zeros or in nothing.
-/

namespace Xineliboutput.Elementary

open Xineliboutput.Foundation
open Xineliboutput.Ts (VideoSize)

set_option autoImplicit false

/-! ## Elementary streams -/

/-- A sequence header whose eighth byte is missing is not the first one. -/
def Mpeg2Fits (buf : List UInt8) : Prop :=
  ∀ i, i + 7 = buf.length → scSequence <+: buf.drop i → ∃ j < i, scSequence <+: buf.drop j

/-- The set is a whole one for the scanner, which finds no size in it and goes on. -/
def H264Incomplete (set : List UInt8) : Prop :=
  ∃ nalData, withoutEscapes set = some nalData ∧ h264SizeOf nalData = some none

/-- Behind an I-frame delimiter, each parameter set that the scanner comes to divides into
groups. -/
def H264Fits (buf : List UInt8) : Prop :=
  IntraDelimited buf → ∀ i, 5 ≤ i → i + 4 < buf.length → UnitAt isH264Sps buf i →
    (∀ j, 5 ≤ j → j < i → UnitAt isH264Sps buf j → H264Incomplete (buf.drop (j + 4))) →
    (withoutEscapes (buf.drop (i + 4))).isSome = true

def H265Incomplete (set : List UInt8) : Prop :=
  3 ≤ set.length ∧ h265SizeOf (withoutEnd set) = some none

/-- Each parameter set that the scanner comes to has three bytes at least. -/
def H265Fits (buf : List UInt8) : Prop :=
  ∀ i, 5 ≤ i → i + 5 < buf.length → UnitAt isH265Sps buf i →
    (∀ j, 5 ≤ j → j < i → UnitAt isH265Sps buf j → H265Incomplete (buf.drop (j + 5))) →
    i + 8 ≤ buf.length

section Streams

variable (arch : Architecture) (buf : List UInt8)

theorem mpeg2_get_video_size_isSome_iff :
    (mpeg2GetVideoSize arch buf buf.length).isSome = true ↔ Mpeg2Fits buf := by
  rw [mpeg2GetVideoSize]
  split
  · next long =>
      rw [search_isSome_iff]
      constructor
      · intro reads i last starts
        by_contra first
        have before : ∀ j, 0 ≤ j → j < i → mpeg2SizeAt arch buf j = some none := by
          intro j _ lower
          apply mpeg2_size_at_other (by omega)
          intro other
          exact first ⟨j, lower, other⟩
        have inside := (mpeg2_size_at_isSome_iff (by omega)).mp
          (reads i (Nat.zero_le i) (by omega) before) starts
        omega
      · intro fits i _ below before
        rw [mpeg2_size_at_isSome_iff (by omega)]
        intro starts
        by_contra close
        obtain ⟨j, lower, other⟩ := fits i (by omega) starts
        exact (mpeg2_size_at_none_iff (by omega)).mp (before j (Nat.zero_le j) lower) other
  · next short =>
      constructor
      · intro _ i last
        omega
      · intro _
        rfl

theorem h264_size_at_none_iff {i : Nat} (inside : i + 4 < buf.length) :
    h264SizeAt buf buf.length i = some none ↔
      (UnitAt isH264Sps buf i → H264Incomplete (buf.drop (i + 4))) := by
  obtain ⟨other, unit⟩ := h264_size_at_eq inside
  by_cases typed : UnitAt isH264Sps buf i
  · rw [unit typed, Option.bind_eq_some_iff, H264Incomplete]
    simp only [typed, forall_const]
  · simp only [other typed, typed, false_implies]

theorem h264_size_at_isSome_iff {i : Nat} (inside : i + 4 < buf.length) :
    (h264SizeAt buf buf.length i).isSome = true ↔
      (UnitAt isH264Sps buf i → (withoutEscapes (buf.drop (i + 4))).isSome = true) := by
  obtain ⟨other, unit⟩ := h264_size_at_eq inside
  by_cases typed : UnitAt isH264Sps buf i
  · rw [unit typed]
    cases withoutEscapes (buf.drop (i + 4)) with
    | none => simp [typed]
    | some nalData =>
        rw [Option.bind_some]
        exact iff_of_true (h264_size_of_isSome nalData) fun _ => rfl
  · rw [other typed]
    simp [typed]

theorem h264_search_isSome_iff :
    (searchRange (h264SizeAt buf buf.length) (buf.length - 4 - 5) 5).isSome = true ↔
      ∀ i, 5 ≤ i → i + 4 < buf.length → UnitAt isH264Sps buf i →
        (∀ j, 5 ≤ j → j < i → UnitAt isH264Sps buf j → H264Incomplete (buf.drop (j + 4))) →
        (withoutEscapes (buf.drop (i + 4))).isSome = true := by
  rw [search_units_isSome_iff (fun i above below => h264_size_at_none_iff buf (by omega))
    fun i above below => h264_size_at_isSome_iff buf (by omega)]
  have range : ∀ i, 5 ≤ i → (i < 5 + (buf.length - 4 - 5) ↔ i + 4 < buf.length) := by
    intro i above
    omega
  simp +contextual only [range]

theorem h264_get_video_size_isSome_iff :
    (h264GetVideoSize arch buf buf.length).isSome = true ↔ H264Fits buf := by
  obtain ⟨type, said⟩ := Option.isSome_iff_exists.mp
    (h264_get_picture_type_isSome arch (Nat.le_refl _))
  have intra : type = iFrame ↔ IntraDelimited buf := by
    rw [← h264_get_picture_type_iff arch, said, Option.some_inj]
  rw [h264GetVideoSize, said, Option.bind_eq_bind, Option.bind_some, H264Fits, ← intra]
  by_cases same : type = iFrame
  · rw [if_neg (not_not_intro same), ← h264_search_isSome_iff]
    split
    · simp [same]
    · next short =>
        have none : buf.length - 4 - 5 = 0 := by omega
        rw [none]
        simp [searchRange]
  · rw [if_pos same]
    simp [same]

/-- Whatever the sets are, two bytes behind the buffer are the last that are read, and `nal_data`
holds what is written. -/
theorem h264_get_video_size_larger {len : Nat} (more : len + 2 ≤ buf.length) :
    (h264GetVideoSize arch buf len).isSome = true := by
  obtain ⟨type, said⟩ := Option.isSome_iff_exists.mp
    (h264_get_picture_type_isSome arch (Nat.le_of_add_right_le more))
  rw [h264GetVideoSize, said, Option.bind_eq_bind, Option.bind_some]
  split
  · rfl
  split
  · apply search_isSome
    intro i above below
    obtain ⟨found, tested, _⟩ := unit_at_within isH264Sps (show i + 4 ≤ buf.length by omega)
    rw [h264_size_at_tested tested]
    split
    · have inside : (h264NalUnescape (buf.drop (i + 4)) (len - i - 4) len).isSome = true := by
        apply h264_writes_inside
        · rw [List.length_drop]
          omega
        · omega
      obtain ⟨nalData, unescaped⟩ := Option.isSome_iff_exists.mp inside
      rw [unescaped, Option.bind_some]
      exact h264_size_of_isSome nalData
    · rfl
  · rfl

theorem cut_set_scanned :
    (h264GetVideoSize .other [0, 0, 1, 9, 0x10, 0, 0, 1, 0x67, 0, 0, 0] 10).isSome = true :=
  h264_get_video_size_larger .other _ (by decide)

theorem h265_size_at_none_iff {i : Nat} (inside : i + 5 < buf.length) :
    h265SizeAt buf buf.length i = some none ↔
      (UnitAt isH265Sps buf i → H265Incomplete (buf.drop (i + 5))) := by
  obtain ⟨other, unit⟩ := h265_size_at_eq inside
  have many : 3 ≤ (buf.drop (i + 5)).length ↔ i + 8 ≤ buf.length := by
    rw [List.length_drop]
    omega
  rw [H265Incomplete, many]
  by_cases typed : UnitAt isH265Sps buf i
  · rw [unit typed]
    split
    · next enough => simp [typed, enough]
    · next few => simp [typed, few]
  · exact ⟨fun _ typed' => absurd typed' typed, fun _ => other typed⟩

theorem h265_size_at_isSome_iff {i : Nat} (inside : i + 5 < buf.length) :
    (h265SizeAt buf buf.length i).isSome = true ↔
      (UnitAt isH265Sps buf i → i + 8 ≤ buf.length) := by
  obtain ⟨other, unit⟩ := h265_size_at_eq inside
  by_cases typed : UnitAt isH265Sps buf i
  · rw [unit typed]
    split
    · next enough => simp [h265_size_of_isSome, enough]
    · next few => simp [typed, few]
  · rw [other typed]
    simp [typed]

theorem h265_get_video_size_isSome_iff :
    (h265GetVideoSize buf buf.length).isSome = true ↔ H265Fits buf := by
  rw [h265GetVideoSize]
  split
  · rw [search_units_isSome_iff (fun i above below => h265_size_at_none_iff buf (by omega))
      fun i above below => h265_size_at_isSome_iff buf (by omega), H265Fits]
    have range : ∀ i, 5 ≤ i → (i < 5 + (buf.length - 5 - 5) ↔ i + 5 < buf.length) := by
      intro i above
      omega
    simp +contextual only [range]
  · next short =>
      constructor
      · intro _ i above inside
        omega
      · intro _
        rfl

end Streams

/-! ## PES packets -/

/-- `pes_is_frame_h264`: behind the header of an MPEG-2 packet a delimiter can be tested. -/
def IsFrameH264Fits (arch : Architecture) (buf : List UInt8) : Prop :=
  ∀ headerLen, pesHeaderLen buf = some headerLen → headerLen ≤ buf.length →
    (∃ flags, buf[6]? = some flags ∧ flags &&& 0xC0 = 0x80) →
    Comparable arch nalAud (buf.drop headerLen)

/-- `pes_get_video_size`: the header is inside, a delimiter can be tested where it is not known
that the stream is H.264, and what follows fits. -/
def PesVideoSizeFits (arch : Architecture) (h264 : Bool) (buf : List UInt8) : Prop :=
  ∀ headerLen, pesHeaderLen buf = some headerLen →
    headerLen ≤ buf.length ∧
      (h264 = false → Comparable arch nalAud (buf.drop headerLen)) ∧
      if h264 = true ∨ nalAud <+: buf.drop headerLen then H264Fits (buf.drop headerLen)
      else Mpeg2Fits (buf.drop headerLen)

section Packets

variable (arch : Architecture) (buf : List UInt8)

theorem pes_header_len_some (long : 9 ≤ buf.length) :
    ∃ headerLen, pesHeaderLen buf = some headerLen := by
  obtain ⟨byte, read⟩ := read_inside (Nat.lt_of_succ_le long)
  exact ⟨8 + byte.toNat + 1, by rw [pesHeaderLen, read, Option.map_some]⟩

theorem pes_header_len_le {headerLen : Nat} (header : pesHeaderLen buf = some headerLen) :
    9 ≤ buf.length ∧ headerLen ≤ 264 := by
  obtain ⟨byte, read, rfl⟩ := Option.map_eq_some_iff.mp header
  have octet := byte.toNat_lt
  obtain ⟨inside, _⟩ := List.getElem?_eq_some_iff.mp read
  omega

theorem pes_is_frame_h264_isSome_iff :
    (pesIsFrameH264 arch buf buf.length).isSome = true ↔ IsFrameH264Fits arch buf := by
  rw [pesIsFrameH264]
  split
  · next short =>
      constructor
      · intro _ headerLen header
        have long := (pes_header_len_le buf header).1
        omega
      · intro _
        rfl
  · next long =>
      obtain ⟨headerLen, header⟩ := pes_header_len_some buf (Nat.not_lt.mp long)
      obtain ⟨flags, read⟩ := read_inside (show 6 < buf.length by omega)
      simp only [IsFrameH264Fits, header, read, Option.bind_eq_bind, Option.bind_some,
        Option.some.injEq, forall_eq', exists_eq_left']
      split
      · next past =>
          constructor
          · intro _ within
            omega
          · intro _
            rfl
      · next within =>
          split
          · next other => simp [other]
          · next mpeg2 =>
              rw [is_start_code_isSome rfl, List.drop_zero]
              exact ⟨fun comparable _ _ => comparable,
                fun fits => fits (Nat.not_lt.mp within) (not_not.mp mpeg2)⟩

theorem started_picture_type_isSome (long : 4 ≤ buf.length) :
    (startedPictureType arch buf buf.length).isSome = true := by
  obtain ⟨unit, read⟩ := read_inside (show 3 < buf.length by omega)
  rw [startedPictureType, bytes_at_within (by simp; omega), Option.bind_eq_bind,
    Option.bind_some]
  split
  · rw [read, Option.bind_eq_bind, Option.bind_some]
    split
    · exact h264_get_picture_type_isSome arch (Nat.le_refl _)
    · exact mpeg2_get_picture_type_isSome arch buf
  · rfl

theorem pes_get_picture_type_isSome_iff :
    (pesGetPictureType arch buf buf.length).isSome = true ↔ buf.length ≠ 8 := by
  rw [pesGetPictureType]
  split
  · next short => simp [Nat.ne_of_lt short]
  · next long =>
      by_cases exact' : buf.length = 8
      · have outside : pesHeaderLen buf = none := by
          rw [pesHeaderLen, List.getElem?_eq_none (Nat.le_of_eq exact')]
          rfl
        rw [outside]
        simp [exact']
      · obtain ⟨headerLen, header⟩ := pes_header_len_some buf (by omega)
        rw [header, Option.bind_eq_bind, Option.bind_some]
        simp only [ne_eq, exact', not_false_eq_true, iff_true]
        split
        · rfl
        split
        · rfl
        · next enough =>
            have rest : (buf.drop headerLen).length = buf.length - headerLen := List.length_drop
            have less : ((buf.drop headerLen).drop 1).length = buf.length - headerLen - 1 := by
              rw [List.length_drop, rest]
            rw [bytes_at_within (by rw [rest]; simp; omega), Option.bind_eq_bind,
              Option.bind_some]
            split
            · rw [← less]
              exact started_picture_type_isSome arch _ (by omega)
            · rw [← rest]
              exact started_picture_type_isSome arch _ (by omega)

theorem size_sub_within {len headerLen : Nat} (within : headerLen ≤ len) :
    sizeSub len headerLen = len - headerLen := if_pos within

/-- A header longer than the packet: nothing is there, and the length is huge. -/
theorem pes_get_video_size_past {h264 : Bool} {headerLen : Nat}
    (header : pesHeaderLen buf = some headerLen) (past : buf.length < headerLen) :
    pesGetVideoSize arch buf buf.length h264 = none := by
  have few := (pes_header_len_le buf header).2
  have nothing : buf.drop headerLen = [] := List.drop_eq_nil_of_le (Nat.le_of_lt past)
  have huge : 5 < sizeSub buf.length headerLen := by
    rw [sizeSub, if_neg (Nat.not_le.mpr past)]
    omega
  rw [pesGetVideoSize, header, Option.bind_eq_bind, Option.bind_some, nothing]
  cases h264 with
  | true =>
      rw [if_pos rfl, Option.bind_eq_bind, Option.bind_some]
      dsimp only
      rw [if_pos rfl, h264GetVideoSize, h264_get_picture_type_nil huge]
      rfl
  | false =>
      rw [if_neg Bool.false_ne_true, is_start_code_nil rfl]
      rfl

theorem pes_get_video_size_isSome_iff (h264 : Bool) (long : 9 ≤ buf.length) :
    (pesGetVideoSize arch buf buf.length h264).isSome = true ↔
      PesVideoSizeFits arch h264 buf := by
  obtain ⟨headerLen, header⟩ := pes_header_len_some buf long
  simp only [PesVideoSizeFits, header, Option.some.injEq, forall_eq']
  by_cases within : headerLen ≤ buf.length
  · have rest : sizeSub buf.length headerLen = (buf.drop headerLen).length := by
      rw [size_sub_within within, List.length_drop]
    rw [pesGetVideoSize, header, Option.bind_eq_bind, Option.bind_some, rest]
    simp only [within, true_and]
    cases h264 with
    | true =>
        rw [if_pos rfl, Option.bind_eq_bind, Option.bind_some, if_pos rfl, if_pos (.inl rfl),
          h264_get_video_size_isSome_iff]
        simp
    | false =>
        rw [if_neg Bool.false_ne_true, is_start_code_eq rfl, List.drop_zero]
        by_cases comparable : Comparable arch nalAud (buf.drop headerLen)
        · rw [if_pos comparable, Option.bind_eq_bind, Option.bind_some]
          simp only [comparable, forall_const, true_and, Bool.false_eq_true, false_or,
            List.isPrefixOf_iff_prefix]
          split
          · exact h264_get_video_size_isSome_iff arch _
          · exact mpeg2_get_video_size_isSome_iff arch _
        · rw [if_neg comparable]
          simp [comparable]
  · rw [pes_get_video_size_past arch buf header (Nat.not_le.mp within)]
    simp [within]

end Packets

/-! ## All of them -/

inductive Scanner where
  | pesIsFrameH264
  | pesGetPictureType
  | pesGetVideoSize (h264 : Bool)
  | mpeg2GetPictureType
  | mpeg2GetVideoSize
  | h264GetPictureType
  | h264GetVideoSize
  | h265GetVideoSize

namespace Scanner

/-- The call on a buffer, where the memory ends with it: all reads are below `len`, and all
writes inside `nal_data`. -/
def staysInside (arch : Architecture) (buf : List UInt8) : Scanner → Bool
  | pesIsFrameH264 => (Elementary.pesIsFrameH264 arch buf buf.length).isSome
  | pesGetPictureType => (Elementary.pesGetPictureType arch buf buf.length).isSome
  | pesGetVideoSize h264 => (Elementary.pesGetVideoSize arch buf buf.length h264).isSome
  | mpeg2GetPictureType => (Elementary.mpeg2GetPictureType arch buf buf.length).isSome
  | mpeg2GetVideoSize => (Elementary.mpeg2GetVideoSize arch buf buf.length).isSome
  | h264GetPictureType => (Elementary.h264GetPictureType arch buf buf.length).isSome
  | h264GetVideoSize => (Elementary.h264GetVideoSize arch buf buf.length).isSome
  | h265GetVideoSize => (Elementary.h265GetVideoSize buf buf.length).isSome

def MayPass (buf : List UInt8) : Scanner → Prop
  | pesGetVideoSize _ => 9 ≤ buf.length
  | _ => True

def Fits (arch : Architecture) (buf : List UInt8) : Scanner → Prop
  | pesIsFrameH264 => IsFrameH264Fits arch buf
  | pesGetPictureType => buf.length ≠ 8
  | pesGetVideoSize h264 => PesVideoSizeFits arch h264 buf
  | mpeg2GetVideoSize => Mpeg2Fits buf
  | h264GetVideoSize => H264Fits buf
  | h265GetVideoSize => H265Fits buf
  | mpeg2GetPictureType | h264GetPictureType => True

/-- A scanner stays inside exactly where the buffer fits. -/
theorem stays_inside_iff (arch : Architecture) (buf : List UInt8) (scanner : Scanner)
    (may : scanner.MayPass buf) :
    scanner.staysInside arch buf = true ↔ scanner.Fits arch buf := by
  cases scanner with
  | pesIsFrameH264 => exact pes_is_frame_h264_isSome_iff arch buf
  | pesGetPictureType => exact pes_get_picture_type_isSome_iff arch buf
  | pesGetVideoSize h264 => exact pes_get_video_size_isSome_iff arch buf h264 may
  | mpeg2GetPictureType => exact iff_of_true (mpeg2_get_picture_type_isSome arch buf) trivial
  | mpeg2GetVideoSize => exact mpeg2_get_video_size_isSome_iff arch buf
  | h264GetPictureType =>
      exact iff_of_true (h264_get_picture_type_isSome arch (Nat.le_refl _)) trivial
  | h264GetVideoSize => exact h264_get_video_size_isSome_iff arch buf
  | h265GetVideoSize => exact h265_get_video_size_isSome_iff buf

def sequencePacket : List UInt8 :=
  [0, 0, 1, 0xe0, 0, 0, 0x80, 0, 0] ++ [0, 0, 1, 0xb3, 0x2d, 0x02, 0x40, 0x33]

theorem sequence_packet_fits : (pesGetVideoSize false).Fits .x86 sequencePacket :=
  (stays_inside_iff .x86 sequencePacket (pesGetVideoSize false)
    (show 9 ≤ sequencePacket.length by decide)).mp (by decide)

/-- A packet of eight bytes, one that is a header only, one with a header longer than itself, a
sequence header of seven bytes, and parameter sets of one byte. On a larger memory the last of
them is written over the end of `nal_data`. -/
theorem short_buffers_left :
    pesGetPictureType.staysInside .x86 [0, 0, 1, 0xe0, 0, 0, 0x80, 0] = false ∧
      pesIsFrameH264.staysInside .x86 [0, 0, 1, 0xe0, 0, 0, 0x80, 0, 0] = false ∧
      (pesGetVideoSize true).staysInside .x86 [0, 0, 1, 0xe0, 0, 0, 0x80, 0, 1] = false ∧
      mpeg2GetVideoSize.staysInside .x86 [0, 0, 1, 0xb3, 0x2d, 0x02, 0x40] = false ∧
      h264GetVideoSize.staysInside .x86 [0, 0, 1, 9, 0x10, 0, 0, 1, 0x67, 0] = false ∧
      h265GetVideoSize.staysInside .x86 [1, 1, 1, 1, 1, 0, 0, 1, 0x42, 1, 1] = false ∧
      Elementary.h265GetVideoSize ([1, 1, 1, 1, 1, 0, 0, 1, 0x42, 1, 1] ++ List.replicate 20 1)
        11 = none := by
  decide

end Scanner
end Xineliboutput.Elementary
