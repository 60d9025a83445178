import Xineliboutput.Elementary.CachedReader
import Xineliboutput.Elementary.ParseSps
import Xineliboutput.Elementary.SpsSyntax
import Xineliboutput.Foundation.CodeReading

/-!
# Decoding of sequence parameter sets

Each part of `h264_parse_sps` reads the code of its part of the syntax, so that the parts in
their order read the whole.
-/

namespace Xineliboutput.Elementary

open Xineliboutput.Foundation

set_option autoImplicit false

def Ahead (br : UncachedBr) (code : List Bool) : Prop :=
  ∃ data position, UncachedBr.At data br position ∧
    position + code.length ≤ 8 * data.length ∧ (Bits.ofBytes data).Carries position code

theorem ahead_step {data : List UInt8} {next : UncachedBr} {position : Nat} (code : List Bool)
    {rest : List Bool} (there : UncachedBr.At data next (position + code.length))
    (within : position + (code ++ rest).length ≤ 8 * data.length)
    (carries : (Bits.ofBytes data).Carries position (code ++ rest)) : Ahead next rest := by
  refine ⟨data, position + code.length, there, ?_, (Bits.carries_append.mp carries).2⟩
  rw [List.length_append] at within
  omega

theorem ahead_not_eof {br : UncachedBr} {code : List Bool} (ahead : Ahead br code)
    (some : code ≠ []) : br.brEof = false := by
  obtain ⟨data, position, there, within, _⟩ := ahead
  have positive := List.length_pos_of_ne_nil some
  have bits := there.bits
  have inside := there.inside (by omega)
  rw [UncachedBr.brEof, inside, decide_eq_false]
  omega

namespace SpsReader

/-! ## The readers of the header -/

theorem reads_bit (bit : Bool) : Reads Ahead getBit [bit] bit.toNat := by
  intro br rest ahead
  obtain ⟨data, position, there, within, carries⟩ := ahead
  obtain ⟨next, ran, after⟩ := UncachedBr.get_bit_run there
  have here := (Bits.carries_cons.mp carries).1
  rw [here] at ran
  exact ⟨next, ran, ahead_step [bit] after within carries⟩

theorem reads_bits {count n : Nat} (few : count ≤ 32) (small : n < 2 ^ count) :
    Reads Ahead (getBits count) (Bits.number count n) n := by
  intro br rest ahead
  obtain ⟨data, position, there, within, carries⟩ := ahead
  obtain ⟨number, next, ran, after, _, right⟩ :=
    (UncachedBr.reader_follows data).getBits br position count few there
  have value := Bits.value_number (Bits.carries_append.mp carries).1
  rw [Nat.mod_eq_of_lt small] at value
  rw [right.mpr trivial, value] at ran
  refine ⟨next, ran, ahead_step (Bits.number count n) ?_ within carries⟩
  rw [Bits.number_length]
  exact after

theorem reads_skip_bits (code : List Bool) : Reads Ahead (skipBits code.length) code () := by
  intro br rest ahead
  obtain ⟨data, position, there, within, carries⟩ := ahead
  obtain ⟨next, ran, after⟩ := UncachedBr.skip_bits_run code.length there
  refine ⟨next, ?_, ahead_step _ after within carries⟩
  simp only [skipBits, skip, StateT.run, ran, Option.map_some]

theorem reads_skip_bit (bit : Bool) : Reads Ahead skipBit [bit] () := reads_skip_bits [bit]

section Golomb

variable {bits : Bits} {position n : Nat} {rest : List Bool}

theorem zeros_of_ue_code (small : n + 1 < 2 ^ 32)
    (carries : bits.Carries position (Bits.ueCode n ++ rest)) :
    zerosAt bits position = (n + 1).log2 := by
  have few : (n + 1).log2 ≤ 31 := Bits.log2_le_of_lt small
  exact Bits.zeros_of_carries (Bits.carries_append.mp carries).1 (by omega)

theorem ue_at_of_code (small : n + 1 < 2 ^ 32)
    (carries : bits.Carries position (Bits.ueCode n ++ rest)) : ueAt bits position = n := by
  have value := Bits.ue_code_value (Bits.carries_append.mp carries).1
  rw [ueAt, zeros_of_ue_code small carries, value, Nat.mod_eq_of_lt (by omega)]
  split
  · next none =>
      rw [none] at value
      rw [← value]
      rfl
  · rfl

theorem ue_code_width (small : n + 1 < 2 ^ 32)
    (carries : bits.Carries position (Bits.ueCode n ++ rest)) :
    zerosAt bits position + 1 + zerosAt bits position = (Bits.ueCode n).length := by
  rw [zeros_of_ue_code small carries, Bits.ue_code_length]
  omega

end Golomb

theorem reads_ue (n : UeNumber) : Reads Ahead getUeGolomb (Bits.ueCode n.val) n.val := by
  intro br rest ahead
  obtain ⟨data, position, there, within, carries⟩ := ahead
  obtain ⟨number, next, ran, after, _, right⟩ :=
    ue_golomb_run (UncachedBr.reader_follows data) there
  rw [right.mpr trivial, ue_at_of_code n.property carries] at ran
  rw [ue_code_width n.property carries] at after
  exact ⟨next, ran, ahead_step _ after within carries⟩

theorem reads_skip_golomb {n : Nat} (small : n + 1 < 2 ^ 32) :
    Reads Ahead skipGolomb (Bits.ueCode n) () := by
  intro br rest ahead
  obtain ⟨data, position, there, within, carries⟩ := ahead
  obtain ⟨next, ran, after⟩ := skip_golomb_run (UncachedBr.reader_follows data) there
  rw [ue_code_width small carries] at after
  refine ⟨next, ?_, ahead_step _ after within carries⟩
  simp only [skipGolomb, skip, StateT.run, ran, Option.map_some]

theorem reads_skip_ue (n : UeNumber) : Reads Ahead skipGolomb (Bits.ueCode n.val) () :=
  reads_skip_golomb n.property

theorem se_number_small (n : SeNumber) :
    (if 0 < n.val then (2 * n.val - 1).toNat else (-2 * n.val).toNat) + 1 < 2 ^ 32 := by
  have lower := n.property.1
  have upper := n.property.2
  split <;> omega

theorem signed_of_code (n : SeNumber) :
    BitReader.signedGolomb
        (((if 0 < n.val then (2 * n.val - 1).toNat else (-2 * n.val).toNat) + 1) % 2 ^ 32) =
      n.val := by
  rw [Nat.mod_eq_of_lt (se_number_small n), signed_golomb_eq]
  by_cases positive : 0 < n.val
  · rw [if_pos positive]
    split <;> omega
  · rw [if_neg positive]
    split <;> omega

theorem reads_se (n : SeNumber) : Reads Ahead getSeGolomb (Bits.seCode n.val) n.val := by
  intro br rest ahead
  obtain ⟨data, position, there, within, carries⟩ := ahead
  obtain ⟨number, next, ran, after, right⟩ :=
    se_golomb_run (UncachedBr.reader_follows data) there
  rw [right.mpr trivial, seAt, ue_at_of_code (se_number_small n) carries, signed_of_code] at ran
  rw [ue_code_width (se_number_small n) carries] at after
  exact ⟨next, ran, ahead_step _ after within carries⟩

theorem reads_skip_se (n : SeNumber) : Reads Ahead skipGolomb (Bits.seCode n.val) () :=
  reads_skip_golomb (se_number_small n)

theorem reads_u8 {n : Nat} (small : n < 256) : Reads Ahead getU8 (Bits.number 8 n) n :=
  reads_bits (by decide) small

theorem reads_two_bytes {high low : Nat} (first : high < 256) (second : low < 256) :
    Reads Ahead getU16 (Bits.number 8 high ++ Bits.number 8 low) ((high <<< 8) ||| low) := by
  rw [← List.append_nil (Bits.number 8 low)]
  exact (reads_u8 first).bind ((reads_u8 second).bind (Reads.pure _))

theorem reads_u16 (n : Fin 65536) : Reads Ahead getU16 (Bits.number 16 n) n := by
  have value : ((n.val / 256) <<< 8) ||| (n.val % 256) = n.val := by
    rw [← Nat.shiftLeft_add_eq_or_of_lt (Nat.mod_lt _ (by decide)), Nat.shiftLeft_eq]
    omega
  have first : n.val / 256 < 256 := by omega
  have reads := reads_two_bytes first (Nat.mod_lt n.val (by decide))
  rw [value] at reads
  rw [Bits.number_append 8 8]
  exact reads

/-! ## Scaling lists -/

theorem reads_next_scale (delta : SeNumber) {last next : Int} (some : next ≠ 0) :
    Reads Ahead (nextScale last next) (Bits.seCode delta.val)
      ((last + delta.val + 256) % 256) := by
  rw [nextScale, if_pos some, Int.add_emod_right]
  rw [← List.append_nil (Bits.seCode delta.val)]
  exact (reads_se delta).bind (Reads.pure _)

theorem reads_scaling_list (delta : ScalingListSyntax) (rounds j : Nat) (last next : Int) :
    Reads Ahead (scalingList rounds last next) (scalingListCode delta rounds j last next) () := by
  induction rounds generalizing j last next with
  | zero => exact Reads.pure ()
  | succ rounds ih =>
      rw [scalingList, scalingListCode]
      by_cases done : next = 0
      · subst done
        rw [if_pos rfl, nextScale, if_neg (not_not_intro rfl), pure_bind]
        rw [if_neg (not_not_intro rfl)]
        exact ih (j + 1) last 0
      · rw [if_neg done]
        apply (reads_next_scale (delta j) done).bind
        have same : ∀ scale : Int, (if scale ≠ 0 then scale else last) =
            if scale = 0 then last else scale := by
          intro scale
          split <;> simp_all
        rw [same]
        exact ih (j + 1) _ _

theorem reads_scaling_list_present (list : Option ScalingListSyntax) (i : Nat) :
    Reads Ahead (scalingListPresent i list.isSome.toNat)
      (list.elim [] fun delta => scalingListCode delta (if i < 6 then 16 else 64) 0 8 8) () := by
  cases list with
  | none => exact Reads.pure ()
  | some delta => exact reads_scaling_list delta _ 0 8 8

theorem reads_scaling_lists (lists : Nat → Option ScalingListSyntax) (rounds i : Nat) :
    Reads Ahead (scalingLists rounds i) (scalingListsCode lists rounds i) () := by
  induction rounds generalizing i with
  | zero => exact Reads.pure ()
  | succ rounds ih =>
      exact (reads_bit (lists i).isSome).cons
        ((reads_scaling_list_present (lists i) i).cons (ih (i + 1)).single)

theorem reads_scaling_matrix (matrix : Option (Nat → Option ScalingListSyntax)) :
    Reads Ahead (scalingMatrix matrix.isSome.toNat)
      (matrix.elim [] fun lists => scalingListsCode lists 8 0) () := by
  cases matrix with
  | none => exact Reads.pure ()
  | some lists => exact reads_scaling_lists lists 8 0

/-! ## The profile -/

theorem reads_high (fields : HighSyntax) (profileIdc : Nat) (high : profileIdc ≥ 100) :
    Reads Ahead (highProfile profileIdc) fields.code () := by
  rw [highProfile, if_pos high]
  exact (reads_ue ⟨1, by decide⟩).cons ((Reads.pure ()).bind
    ((reads_skip_ue fields.bitDepthLuma).cons ((reads_skip_ue fields.bitDepthChroma).cons
      ((reads_skip_bit fields.transformBypass).cons
        ((reads_bit fields.scalingMatrix.isSome).cons
          (reads_scaling_matrix fields.scalingMatrix).single)))))

theorem high_idc (profile : HighProfile) : 100 ≤ profile.idc ∧ profile.idc < 256 := by
  cases profile <;> decide

theorem plain_idc (profile : PlainProfile) : profile.idc < 100 := by
  cases profile <;> decide

theorem reads_profile (profile : ProfileSyntax) :
    Reads Ahead (highProfile profile.idc) profile.code () := by
  cases profile with
  | plain profile =>
      cases profile <;> exact Reads.pure ()
  | high profile fields =>
      exact reads_high fields profile.idc (high_idc profile).1

/-! ## The picture order count -/

theorem reads_offsets (offsets : List SeNumber) :
    Reads Ahead (skipGolombs offsets.length) (offsetsCode offsets) () := by
  induction offsets with
  | nil => exact Reads.pure ()
  | cons offset offsets ih => exact (reads_skip_se offset).cons ih.single

theorem reads_ref_frame_offsets (offsets : List SeNumber) (short : offsets.length < 256) :
    Reads Ahead (refFrameOffsets offsets.length) (offsetsCode offsets) () := by
  rw [refFrameOffsets, if_pos (Nat.lt_trans short (by decide))]
  exact reads_offsets offsets

theorem reads_pic_order_cnt (count : PicOrderCntSyntax) :
    Reads Ahead (picOrderCnt count.type) count.code () := by
  cases count with
  | lsb log2MaxLsb => exact reads_skip_ue log2MaxLsb
  | cycle deltaAlwaysZero forNonRefPic forTopToBottomField forRefFrame short =>
      have small : forRefFrame.length + 1 < 2 ^ 32 := by omega
      exact (reads_skip_bit deltaAlwaysZero).cons ((reads_skip_se forNonRefPic).cons
        ((reads_skip_se forTopToBottomField).cons ((reads_ue ⟨forRefFrame.length, small⟩).cons
          (reads_ref_frame_offsets forRefFrame short).single)))
  | output => exact Reads.pure ()

theorem profile_idc_small (profile : ProfileSyntax) : profile.idc < 256 := by
  cases profile with
  | plain profile => exact Nat.lt_trans (plain_idc profile) (by decide)
  | high profile fields => exact (high_idc profile).2

theorem type_small (count : PicOrderCntSyntax) : count.type < 3 := by
  cases count with
  | lsb _ => exact Nat.zero_lt_succ 2
  | cycle => exact Nat.succ_lt_succ (Nat.zero_lt_succ 1)
  | output => exact Nat.lt_succ_self 2

theorem reads_before_size (sps : SpsSyntax) : Reads Ahead beforeSize sps.codeToPicture () := by
  have small := type_small sps.picOrderCnt
  have type : sps.picOrderCnt.type + 1 < 2 ^ 32 := by omega
  have skipped := reads_skip_bits (Bits.number 8 sps.constraints ++ Bits.number 8 sps.level)
  rw [List.length_append, Bits.number_length, Bits.number_length] at skipped
  exact (reads_u8 (profile_idc_small sps.profile)).cons (skipped.cons
    ((reads_skip_ue sps.id).cons ((reads_profile sps.profile).cons
      ((reads_skip_ue sps.log2MaxFrameNum).cons ((reads_ue ⟨sps.picOrderCnt.type, type⟩).cons
        ((reads_pic_order_cnt sps.picOrderCnt).cons ((reads_skip_ue sps.refFrames).cons
          (reads_skip_bit sps.gapsInFrameNum).single)))))))

/-! ## The size of the picture -/

theorem reads_field_coding (adaptive : Option Bool) :
    Reads Ahead (fieldCoding adaptive.isNone.toNat) adaptive.toList () := by
  cases adaptive with
  | none => exact Reads.pure ()
  | some flag => exact (reads_bit flag).ends (Reads.pure ())

theorem reads_cropping (cropping : Option CroppingSyntax) (frameMbsOnly width height : Nat) :
    Reads Ahead (frameCropping frameMbsOnly width height cropping.isSome.toNat)
      (cropping.elim [] CroppingSyntax.code)
      (cropping.elim (width, height) fun crop =>
        (uint16 (width - 2 * (crop.left.val + crop.right.val : Nat)),
          uint16 (height -
            (if frameMbsOnly ≠ 0 then 2 else 4) * (crop.top.val + crop.bottom.val : Nat)))) := by
  cases cropping with
  | none => exact Reads.pure _
  | some crop =>
      exact (reads_ue crop.left).cons ((reads_ue crop.right).cons ((reads_ue crop.top).cons
        ((reads_ue crop.bottom).ends (Reads.pure _))))

theorem uint16_of_lt {n : Nat} (small : n < 65536) : uint16 n = n := by
  rw [uint16]
  omega

theorem uint16_sub {n cropped : Nat} (less : cropped ≤ n) (small : n < 65536) :
    uint16 ((n : Int) - cropped) = n - cropped := by
  rw [uint16]
  omega

theorem uint16_mul (blocks : Nat) {size : Nat} (positive : 0 < size) (small : blocks * size < 65536) :
    uint16 ((uint16 (blocks : Nat) : Int) * size) = blocks * size := by
  have less : blocks ≤ blocks * size := Nat.le_mul_of_pos_right blocks positive
  rw [uint16_of_lt (Nat.lt_of_le_of_lt less small), ← Nat.cast_mul, uint16_of_lt small]

theorem coded_size (picture : PictureSyntax) (proper : picture.Proper) :
    uint16 (uint16 ((picture.widthInMbsMinus1.val : Int) + 1) * 16) = picture.codedWidth ∧
      uint16 (uint16 ((picture.heightInMapUnitsMinus1.val : Int) + 1) *
        (16 * (2 - (picture.mbAdaptiveFrameField.isNone.toNat : Int)))) = picture.codedHeight := by
  have width := proper.width
  have height := proper.height
  rw [PictureSyntax.codedWidth] at width ⊢
  rw [PictureSyntax.codedHeight] at height ⊢
  have fields : 16 * (2 - (picture.mbAdaptiveFrameField.isNone.toNat : Int)) =
      (16 * picture.fieldsOfFrame : Nat) := by
    rw [PictureSyntax.fieldsOfFrame]
    cases picture.mbAdaptiveFrameField <;> rfl
  have positive : 0 < 16 * picture.fieldsOfFrame := by
    rw [PictureSyntax.fieldsOfFrame]
    split <;> decide
  constructor
  · have product := uint16_mul (picture.widthInMbsMinus1.val + 1) (show 0 < 16 by decide)
      (by omega)
    rw [Nat.mul_comm]
    exact product
  · have order : 16 * (picture.fieldsOfFrame * (picture.heightInMapUnitsMinus1.val + 1)) =
        (picture.heightInMapUnitsMinus1.val + 1) * (16 * picture.fieldsOfFrame) := by
      ring
    rw [order] at height ⊢
    rw [fields]
    exact uint16_mul _ positive height

theorem cropped_size (picture : PictureSyntax) (proper : picture.Proper) :
    picture.cropping.elim (picture.codedWidth, picture.codedHeight) (fun crop =>
      (uint16 (picture.codedWidth - 2 * (crop.left.val + crop.right.val : Nat)),
        uint16 (picture.codedHeight -
          (if picture.mbAdaptiveFrameField.isNone.toNat ≠ 0 then 2 else 4) *
            (crop.top.val + crop.bottom.val : Nat)))) =
      (picture.lumaWidth, picture.lumaHeight) := by
  have columns := proper.columns
  have rows := proper.rows
  have width := proper.width
  have height := proper.height
  rw [PictureSyntax.lumaWidth, PictureSyntax.lumaHeight]
  rw [PictureSyntax.croppedColumns] at columns ⊢
  rw [PictureSyntax.croppedRows] at rows ⊢
  cases crops : picture.cropping with
  | none => rfl
  | some crop =>
      rw [crops, Option.elim_some] at columns rows
      have unit : (if picture.mbAdaptiveFrameField.isNone.toNat ≠ 0 then (2 : Int) else 4) =
          (2 * picture.fieldsOfFrame : Nat) := by
        rw [PictureSyntax.fieldsOfFrame]
        cases picture.mbAdaptiveFrameField <;> rfl
      have across := uint16_sub (Nat.le_of_lt columns) width
      have down := uint16_sub (Nat.le_of_lt rows) height
      rw [Nat.cast_mul] at across
      rw [Nat.cast_mul] at down
      dsimp only [Option.elim_some]
      rw [unit]
      exact Prod.ext across down

theorem reads_picture_size (picture : PictureSyntax) (proper : picture.Proper) :
    Reads Ahead pictureSize picture.code (picture.lumaWidth, picture.lumaHeight) := by
  obtain ⟨width, height⟩ := coded_size picture proper
  have cropped := reads_cropping picture.cropping picture.mbAdaptiveFrameField.isNone.toNat
    picture.codedWidth picture.codedHeight
  rw [cropped_size picture proper] at cropped
  rw [← width, ← height] at cropped
  exact (reads_ue picture.widthInMbsMinus1).cons ((reads_ue picture.heightInMapUnitsMinus1).cons
    ((reads_bit picture.mbAdaptiveFrameField.isNone).cons
      ((reads_field_coding picture.mbAdaptiveFrameField).cons
        ((reads_skip_bit picture.direct8x8Inference).cons
          ((reads_bit picture.cropping.isSome).cons cropped.single)))))

/-! ## The shape of the samples -/

/-- The shape that is stored for a code, over the one that was there. -/
def storedAspect (aspect : MpegRational) : AspectSyntax → MpegRational
  | .indicated idc _ => aspectRatios.getD idc aspect
  | .extendedSar width height => ⟨width, height⟩

def storedShape (vui : Option VuiSyntax) (aspect : MpegRational) : MpegRational :=
  vui.elim aspect fun vui => vui.aspect.elim aspect (storedAspect aspect)

theorem reads_aspect_info (info : Option AspectSyntax) (aspect : MpegRational) :
    Reads Ahead (aspectInfo info.isSome.toNat aspect) (info.elim [] AspectSyntax.code)
      (info.elim aspect (storedAspect aspect)) := by
  cases info with
  | none => exact Reads.pure aspect
  | some code =>
      cases code with
      | indicated idc short =>
          have reads : Reads Ahead (aspectOf idc aspect) [] (aspectRatios.getD idc aspect) := by
            rw [aspectOf, if_neg (Nat.ne_of_lt short)]
            exact Reads.pure _
          have both : Reads Ahead (aspectInfo 1 aspect) [Bits.number 8 idc].flatten
              (aspectRatios.getD idc aspect) :=
            (reads_u8 (Nat.lt_trans short (by decide))).ends reads
          rw [List.flatten_singleton] at both
          exact both
      | extendedSar width height =>
          exact (reads_u8 (n := 255) (by decide)).cons
            ((reads_u16 width).cons ((reads_u16 height).ends (Reads.pure _)))

theorem reads_vui (vui : Option VuiSyntax) (aspect : MpegRational) :
    Reads Ahead (vuiParameters vui.isSome.toNat aspect) (vui.elim [] VuiSyntax.aspectCode)
      (storedShape vui aspect) := by
  cases vui with
  | none => exact Reads.pure aspect
  | some vui => exact (reads_bit vui.aspect.isSome).cons (reads_aspect_info vui.aspect aspect).single

theorem reads_sequence_parameter_set (sps : SpsSyntax) (before : H264SpsData) :
    Reads Ahead (sequenceParameterSet before) sps.codeToAspect
      ⟨sps.picture.lumaWidth, sps.picture.lumaHeight,
        storedShape sps.vui { before.pixelAspect with num := 0 }⟩ :=
  (reads_before_size sps).cons ((reads_picture_size sps.picture sps.proper).cons
    ((reads_bit sps.vui.isSome).cons ((reads_vui sps.vui _).ends (Reads.pure _))))

end SpsReader
def ShapeIs (sar : Option (Nat × Nat)) (aspect : MpegRational) : Prop :=
  sar.elim (aspect.num = 0) fun shape => aspect = ⟨shape.1, shape.2⟩

theorem table_shape (idc den : Nat) :
    ShapeIs (indicatedSar idc) (SpsReader.aspectRatios.getD idc ⟨0, den⟩) :=
  match idc with
  | 0 | 1 | 2 | 3 | 4 | 5 | 6 | 7 | 8 | 9 | 10 | 11 | 12 | 13 | 14 | 15 | 16 => rfl
  | _ + 17 => rfl

theorem stored_shape (vui : Option VuiSyntax) (den : Nat) :
    ShapeIs (vui.bind fun vui => vui.aspect.bind AspectSyntax.sar)
      (SpsReader.storedShape vui ⟨0, den⟩) := by
  rcases vui with _ | ⟨_ | code, others⟩
  · rfl
  · rfl
  · cases code with
    | indicated idc short => exact table_shape idc den
    | extendedSar width height => rfl

theorem encoded_ahead (sps : SpsSyntax) :
    Ahead (.brInit sps.encode) (sps.code ++ trailingBits sps.code.length) := by
  have whole : (sps.code ++ trailingBits sps.code.length).length % 8 = 0 := by
    rw [List.length_append, trailingBits, List.length_cons, List.length_replicate]
    omega
  refine ⟨sps.encode, 0, UncachedBr.init_at _, ?_, Bits.carries_pack whole⟩
  rw [SpsSyntax.encode, Bits.pack_length]
  omega

/-- Every set is decoded, to the cropped size and the signalled shape. -/
theorem sps_decoded (sps : SpsSyntax) (before : H264SpsData) :
    ∃ after, h264ParseSps sps.encode before = some (true, after) ∧
      after.width = sps.picture.lumaWidth ∧ after.height = sps.picture.lumaHeight ∧
      ShapeIs sps.sar after.pixelAspect := by
  have ahead := encoded_ahead sps
  rw [SpsSyntax.code, List.append_assoc] at ahead
  obtain ⟨next, ran, left⟩ :=
    SpsReader.reads_sequence_parameter_set sps before _ _ ahead
  have more := ahead_not_eof left (by simp [trailingBits])
  have decoded : h264ParseSps sps.encode before =
      some (true, ⟨sps.picture.lumaWidth, sps.picture.lumaHeight,
        SpsReader.storedShape sps.vui { before.pixelAspect with num := 0 }⟩) := by
    rw [h264ParseSps, ran, Option.bind_eq_bind, Option.bind_some]
    dsimp only
    rw [more]
    rfl
  exact ⟨_, decoded, rfl, rfl, stored_shape sps.vui before.pixelAspect.den⟩

end Xineliboutput.Elementary
