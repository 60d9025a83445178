import Xineliboutput.Elementary.CachedReader
import Xineliboutput.Elementary.ParseSps
import Xineliboutput.Foundation.CodeReading

/-!
# The parsers stay inside

The reader under `NOCACHE` reads inside its buffer wherever it stands, so that parsers made of
its calls return for every buffer.
-/

namespace Xineliboutput.Elementary

open Xineliboutput.Foundation

set_option autoImplicit false

def Stands (br : UncachedBr) : Prop := ∃ data position, UncachedBr.At data br position

namespace SpsReader

/-! ## The calls -/

theorem total_bit : Total Stands getBit := by
  intro br stands
  obtain ⟨data, position, there⟩ := stands
  obtain ⟨next, ran, after⟩ := UncachedBr.get_bit_run there
  exact ⟨_, next, ran, data, _, after⟩

theorem total_bits {count : Nat} (few : count ≤ 32) : Total Stands (getBits count) := by
  intro br stands
  obtain ⟨data, position, there⟩ := stands
  obtain ⟨number, next, ran, after, _⟩ :=
    (UncachedBr.reader_follows data).getBits br position count few there
  exact ⟨number, next, ran, data, _, after⟩

theorem total_ue : Total Stands getUeGolomb := by
  intro br stands
  obtain ⟨data, position, there⟩ := stands
  obtain ⟨number, next, ran, after, _⟩ := ue_golomb_run (UncachedBr.reader_follows data) there
  exact ⟨number, next, ran, data, _, after⟩

theorem total_se : Total Stands getSeGolomb := by
  intro br stands
  obtain ⟨data, position, there⟩ := stands
  obtain ⟨number, next, ran, after, _⟩ := se_golomb_run (UncachedBr.reader_follows data) there
  exact ⟨number, next, ran, data, _, after⟩

theorem total_skip {skips : UncachedBr → Option UncachedBr}
    (runs : ∀ data br position, UncachedBr.At data br position →
      ∃ next position', skips br = some next ∧ UncachedBr.At data next position') :
    Total Stands (skip skips) := by
  intro br stands
  obtain ⟨data, position, there⟩ := stands
  obtain ⟨next, position', ran, after⟩ := runs data br position there
  refine ⟨(), next, ?_, data, position', after⟩
  simp only [skip, StateT.run, ran, Option.map_some]

theorem total_skip_bits (count : Nat) : Total Stands (skipBits count) := by
  apply total_skip
  intro data br position there
  obtain ⟨next, ran, after⟩ := UncachedBr.skip_bits_run count there
  exact ⟨next, _, ran, after⟩

theorem total_skip_bit : Total Stands skipBit := total_skip_bits 1

theorem total_skip_golomb : Total Stands skipGolomb := by
  apply total_skip
  intro data br position there
  obtain ⟨next, ran, after⟩ := skip_golomb_run (UncachedBr.reader_follows data) there
  exact ⟨next, _, ran, after⟩

theorem total_u8 : Total Stands getU8 := total_bits (by decide)

theorem total_u16 : Total Stands getU16 :=
  total_u8.bind fun _ => total_u8.bind fun _ => Total.pure _

/-! ## H.264 -/

theorem total_next_scale (last next : Int) : Total Stands (nextScale last next) :=
  Total.ite (total_se.bind fun _ => Total.pure _) (Total.pure _)

theorem total_scaling_list (rounds : Nat) (last next : Int) :
    Total Stands (scalingList rounds last next) := by
  induction rounds generalizing last next with
  | zero => exact Total.pure ()
  | succ rounds ih => exact (total_next_scale last next).bind fun next => ih _ next

theorem total_scaling_list_present (i present : Nat) :
    Total Stands (scalingListPresent i present) :=
  Total.ite (total_scaling_list _ 8 8) (Total.pure ())

theorem total_scaling_lists (rounds i : Nat) : Total Stands (scalingLists rounds i) := by
  induction rounds generalizing i with
  | zero => exact Total.pure ()
  | succ rounds ih =>
      apply total_bit.bind
      intro present
      exact (total_scaling_list_present i present).bind fun _ => ih (i + 1)

theorem total_scaling_matrix (present : Nat) : Total Stands (scalingMatrix present) :=
  Total.ite (total_scaling_lists 8 0) (Total.pure ())

theorem total_residual_colour (chromaFormatIdc : Nat) :
    Total Stands (residualColour chromaFormatIdc) :=
  Total.ite total_skip_bit (Total.pure ())

theorem total_high_profile (profileIdc : Nat) : Total Stands (highProfile profileIdc) := by
  apply Total.ite _ (Total.pure ())
  apply total_ue.bind
  intro chromaFormatIdc
  apply (total_residual_colour chromaFormatIdc).bind
  intro _
  exact total_skip_golomb.bind fun _ => total_skip_golomb.bind fun _ =>
    total_skip_bit.bind fun _ => total_bit.bind total_scaling_matrix

theorem total_skip_golombs (rounds : Nat) : Total Stands (skipGolombs rounds) := by
  induction rounds with
  | zero => exact Total.pure ()
  | succ rounds ih => exact total_skip_golomb.bind fun _ => ih

theorem total_pic_order_cnt (picOrderCntType : Nat) :
    Total Stands (picOrderCnt picOrderCntType) := by
  apply Total.ite total_skip_golomb
  apply Total.ite _ (Total.pure ())
  exact total_skip_bit.bind fun _ => total_skip_golomb.bind fun _ =>
    total_skip_golomb.bind fun _ => total_ue.bind fun _ => total_skip_golombs _

theorem total_field_coding (frameMbsOnly : Nat) : Total Stands (fieldCoding frameMbsOnly) :=
  Total.ite (total_bit.bind fun _ => Total.pure ()) (Total.pure ())

theorem total_frame_cropping (frameMbsOnly width height cropping : Nat) :
    Total Stands (frameCropping frameMbsOnly width height cropping) := by
  apply Total.ite _ (Total.pure _)
  exact total_ue.bind fun _ => total_ue.bind fun _ => total_ue.bind fun _ =>
    total_ue.bind fun _ => Total.pure _

theorem total_aspect_of (aspectRatioIdc : Nat) (aspect : MpegRational) :
    Total Stands (aspectOf aspectRatioIdc aspect) :=
  Total.ite (total_u16.bind fun _ => total_u16.bind fun _ => Total.pure _) (Total.pure _)

theorem total_aspect_info (present : Nat) (aspect : MpegRational) :
    Total Stands (aspectInfo present aspect) :=
  Total.ite (total_u8.bind fun aspectRatioIdc => total_aspect_of aspectRatioIdc aspect)
    (Total.pure aspect)

theorem total_vui_parameters (present : Nat) (aspect : MpegRational) :
    Total Stands (vuiParameters present aspect) :=
  Total.ite (total_bit.bind fun present => total_aspect_info present aspect) (Total.pure aspect)

theorem total_before_size : Total Stands beforeSize := by
  apply total_u8.bind
  intro profileIdc
  apply (total_skip_bits 16).bind
  intro _
  apply total_skip_golomb.bind
  intro _
  apply (total_high_profile profileIdc).bind
  intro _
  apply total_skip_golomb.bind
  intro _
  apply total_ue.bind
  intro picOrderCntType
  apply (total_pic_order_cnt picOrderCntType).bind
  intro _
  exact total_skip_golomb.bind fun _ => total_skip_bit

theorem total_picture_size : Total Stands pictureSize := by
  apply total_ue.bind
  intro width
  apply total_ue.bind
  intro height
  apply total_bit.bind
  intro frameMbsOnly
  apply (total_field_coding frameMbsOnly).bind
  intro _
  exact total_skip_bit.bind fun _ => total_bit.bind (total_frame_cropping frameMbsOnly _ _)

theorem total_sequence_parameter_set (sps : H264SpsData) :
    Total Stands (sequenceParameterSet sps) := by
  apply total_before_size.bind
  intro _
  apply total_picture_size.bind
  intro size
  apply total_bit.bind
  intro present
  exact (total_vui_parameters present _).bind fun _ => Total.pure _

/-! ## H.265 -/

theorem total_sub_layer_flags (rounds : Nat) : Total Stands (subLayerFlags rounds) := by
  induction rounds with
  | zero => exact Total.pure []
  | succ rounds ih =>
      exact total_bit.bind fun _ => total_bit.bind fun _ => ih.bind fun _ => Total.pure _

theorem total_skip_pairs (rounds : Nat) : Total Stands (skipPairs rounds) := by
  induction rounds with
  | zero => exact Total.pure ()
  | succ rounds ih => exact (total_skip_bits 2).bind fun _ => ih

theorem total_skip_reserved (maxSubLayersMinus1 : Nat) :
    Total Stands (skipReserved maxSubLayersMinus1) :=
  Total.ite (total_skip_pairs _) (Total.pure ())

theorem total_skip_if (present bits : Nat) : Total Stands (skipIf present bits) :=
  Total.ite (total_skip_bits bits) (Total.pure ())

theorem total_skip_sub_layers (layers : List SubLayer) : Total Stands (skipSubLayers layers) := by
  induction layers with
  | nil => exact Total.pure ()
  | cons layer layers ih =>
      apply (total_skip_if layer.1 _).bind
      intro _
      exact (total_skip_if layer.2 8).bind fun _ => ih

theorem total_h265_parameter_set : Total Stands h265ParameterSet := by
  apply (total_skip_bits 4).bind
  intro _
  apply (total_bits (by decide)).bind
  intro maxSubLayersMinus1
  apply (total_skip_bits _).bind
  intro _
  apply (total_sub_layer_flags maxSubLayersMinus1).bind
  intro layers
  apply (total_skip_reserved maxSubLayersMinus1).bind
  intro _
  apply (total_skip_sub_layers layers).bind
  intro _
  apply total_skip_golomb.bind
  intro _
  apply total_ue.bind
  intro chromaFormatIdc
  apply (total_residual_colour chromaFormatIdc).bind
  intro _
  exact total_ue.bind fun _ => total_ue.bind fun _ => Total.pure _

end SpsReader

theorem stands_init (data : List UInt8) : Stands (.brInit data) :=
  ⟨data, 0, UncachedBr.init_at data⟩

theorem h264_parse_sps_isSome (buf : List UInt8) (sps : H264SpsData) :
    (h264ParseSps buf sps).isSome = true := by
  obtain ⟨after, next, ran, _⟩ :=
    SpsReader.total_sequence_parameter_set sps (.brInit buf) (stands_init buf)
  rw [h264ParseSps, ran]
  rfl

theorem h265_parse_sps_isSome (buf : List UInt8) : (h265ParseSps buf).isSome = true := by
  obtain ⟨after, next, ran, _⟩ := SpsReader.total_h265_parameter_set (.brInit buf) (stands_init buf)
  rw [h265ParseSps, ran]
  rfl

end Xineliboutput.Elementary
