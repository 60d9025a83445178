import Xineliboutput.Foundation.Bits

/-!
# Sequence parameter sets

The syntax of H.264 for the profiles without other chroma formats than 4:2:0, with what the
standard says of the size of the picture and of its samples. The parser has no part in it.
-/

namespace Xineliboutput.Elementary

open Xineliboutput.Foundation

set_option autoImplicit false

/-- ue(v) -/
abbrev UeNumber := {n : Nat // n + 1 < 2 ^ 32}

/-- se(v) -/
abbrev SeNumber := {n : Int // -2 ^ 31 < n ∧ n < 2 ^ 31}

inductive PlainProfile where
  | baseline
  | main
  | extended
  deriving DecidableEq

def PlainProfile.idc : PlainProfile → Nat
  | .baseline => 66
  | .main => 77
  | .extended => 88

inductive HighProfile where
  | high
  | high10
  | high422
  deriving DecidableEq

def HighProfile.idc : HighProfile → Nat
  | .high => 100
  | .high10 => 110
  | .high422 => 122

/-- A delta_scale for each place of a list; those behind a scale of zero are not coded. -/
abbrev ScalingListSyntax := Nat → SeNumber

structure HighSyntax where
  bitDepthLuma : UeNumber
  bitDepthChroma : UeNumber
  transformBypass : Bool
  scalingMatrix : Option (Nat → Option ScalingListSyntax)

inductive ProfileSyntax where
  | plain (profile : PlainProfile)
  | high (profile : HighProfile) (fields : HighSyntax)

inductive PicOrderCntSyntax where
  | lsb (log2MaxLsb : UeNumber)
  | cycle (deltaAlwaysZero : Bool) (forNonRefPic forTopToBottomField : SeNumber)
      (forRefFrame : List SeNumber) (short : forRefFrame.length < 256)
  | output

structure CroppingSyntax where
  left : UeNumber
  right : UeNumber
  top : UeNumber
  bottom : UeNumber

structure PictureSyntax where
  widthInMbsMinus1 : UeNumber
  heightInMapUnitsMinus1 : UeNumber
  /-- Without it the pictures are frames only. -/
  mbAdaptiveFrameField : Option Bool
  direct8x8Inference : Bool
  cropping : Option CroppingSyntax

inductive AspectSyntax where
  | indicated (idc : Nat) (short : idc < 255)
  | extendedSar (width height : Fin 65536)

/-- The fields behind the aspect ratio are kept as bits. -/
structure VuiSyntax where
  aspect : Option AspectSyntax
  others : List Bool

/-! ## Sizes -/

namespace PictureSyntax

variable (picture : PictureSyntax)

/-- `2 - frame_mbs_only_flag` -/
def fieldsOfFrame : Nat := if picture.mbAdaptiveFrameField.isSome then 2 else 1

def codedWidth : Nat := 16 * (picture.widthInMbsMinus1.val + 1)

def codedHeight : Nat :=
  16 * (picture.fieldsOfFrame * (picture.heightInMapUnitsMinus1.val + 1))

/-- CropUnitX times the columns that are cropped, with the units for 4:2:0. -/
def croppedColumns : Nat :=
  picture.cropping.elim 0 fun crop => 2 * (crop.left.val + crop.right.val)

def croppedRows : Nat :=
  picture.cropping.elim 0 fun crop =>
    2 * picture.fieldsOfFrame * (crop.top.val + crop.bottom.val)

def lumaWidth : Nat := picture.codedWidth - picture.croppedColumns

def lumaHeight : Nat := picture.codedHeight - picture.croppedRows

/-- The coded size fits 16 bits, and something is left of it. -/
structure Proper : Prop where
  width : picture.codedWidth < 2 ^ 16
  height : picture.codedHeight < 2 ^ 16
  columns : picture.croppedColumns < picture.codedWidth
  rows : picture.croppedRows < picture.codedHeight

end PictureSyntax

structure SpsSyntax where
  profile : ProfileSyntax
  constraints : Fin 256
  level : Fin 256
  id : UeNumber
  log2MaxFrameNum : UeNumber
  picOrderCnt : PicOrderCntSyntax
  refFrames : UeNumber
  gapsInFrameNum : Bool
  picture : PictureSyntax
  vui : Option VuiSyntax
  proper : picture.Proper

def indicatedSar : Nat → Option (Nat × Nat)
  | 1 => some (1, 1)
  | 2 => some (12, 11)
  | 3 => some (10, 11)
  | 4 => some (16, 11)
  | 5 => some (40, 33)
  | 6 => some (24, 11)
  | 7 => some (20, 11)
  | 8 => some (32, 11)
  | 9 => some (80, 33)
  | 10 => some (18, 11)
  | 11 => some (15, 11)
  | 12 => some (64, 33)
  | 13 => some (160, 99)
  | 14 => some (4, 3)
  | 15 => some (3, 2)
  | 16 => some (2, 1)
  | _ => none

def AspectSyntax.sar : AspectSyntax → Option (Nat × Nat)
  | .indicated idc _ => indicatedSar idc
  | .extendedSar width height => some (width, height)

def SpsSyntax.sar (sps : SpsSyntax) : Option (Nat × Nat) :=
  sps.vui.bind fun vui => vui.aspect.bind AspectSyntax.sar

/-! ## Coding -/

open Bits

def scalingListCode (delta : ScalingListSyntax) : Nat → Nat → Int → Int → List Bool
  | 0, _, _, _ => []
  | rounds + 1, j, lastScale, nextScale =>
      if nextScale = 0 then scalingListCode delta rounds (j + 1) lastScale nextScale
      else
        let nextScale := (lastScale + (delta j).val + 256) % 256
        seCode (delta j).val ++ scalingListCode delta rounds (j + 1)
          (if nextScale = 0 then lastScale else nextScale) nextScale

def scalingListsCode (lists : Nat → Option ScalingListSyntax) : Nat → Nat → List Bool
  | 0, _ => []
  | rounds + 1, i =>
      [[(lists i).isSome],
        (lists i).elim [] fun delta => scalingListCode delta (if i < 6 then 16 else 64) 0 8 8,
        scalingListsCode lists rounds (i + 1)].flatten

def HighSyntax.code (fields : HighSyntax) : List Bool :=
  [ueCode 1, ueCode fields.bitDepthLuma.val, ueCode fields.bitDepthChroma.val,
    [fields.transformBypass], [fields.scalingMatrix.isSome],
    fields.scalingMatrix.elim [] fun lists => scalingListsCode lists 8 0].flatten

def ProfileSyntax.idc : ProfileSyntax → Nat
  | .plain profile => profile.idc
  | .high profile _ => profile.idc

def ProfileSyntax.code : ProfileSyntax → List Bool
  | .plain _ => []
  | .high _ fields => fields.code

def offsetsCode : List SeNumber → List Bool
  | [] => []
  | offset :: offsets => [seCode offset.val, offsetsCode offsets].flatten

def PicOrderCntSyntax.type : PicOrderCntSyntax → Nat
  | .lsb _ => 0
  | .cycle .. => 1
  | .output => 2

def PicOrderCntSyntax.code : PicOrderCntSyntax → List Bool
  | .lsb log2MaxLsb => ueCode log2MaxLsb.val
  | .cycle deltaAlwaysZero forNonRefPic forTopToBottomField forRefFrame _ =>
      [[deltaAlwaysZero], seCode forNonRefPic.val, seCode forTopToBottomField.val,
        ueCode forRefFrame.length, offsetsCode forRefFrame].flatten
  | .output => []

def CroppingSyntax.code (crop : CroppingSyntax) : List Bool :=
  [ueCode crop.left.val, ueCode crop.right.val, ueCode crop.top.val,
    ueCode crop.bottom.val].flatten

def PictureSyntax.code (picture : PictureSyntax) : List Bool :=
  [ueCode picture.widthInMbsMinus1.val, ueCode picture.heightInMapUnitsMinus1.val,
    [picture.mbAdaptiveFrameField.isNone], picture.mbAdaptiveFrameField.toList,
    [picture.direct8x8Inference], [picture.cropping.isSome],
    picture.cropping.elim [] CroppingSyntax.code].flatten

def AspectSyntax.code : AspectSyntax → List Bool
  | .indicated idc _ => number 8 idc
  | .extendedSar width height => [number 8 255, number 16 width, number 16 height].flatten

def VuiSyntax.aspectCode (vui : VuiSyntax) : List Bool :=
  [[vui.aspect.isSome], vui.aspect.elim [] AspectSyntax.code].flatten

def SpsSyntax.codeToPicture (sps : SpsSyntax) : List Bool :=
  [number 8 sps.profile.idc, number 8 sps.constraints ++ number 8 sps.level, ueCode sps.id.val,
    sps.profile.code, ueCode sps.log2MaxFrameNum.val, ueCode sps.picOrderCnt.type,
    sps.picOrderCnt.code, ueCode sps.refFrames.val, [sps.gapsInFrameNum]].flatten

def SpsSyntax.codeToAspect (sps : SpsSyntax) : List Bool :=
  [sps.codeToPicture, sps.picture.code, [sps.vui.isSome],
    sps.vui.elim [] VuiSyntax.aspectCode].flatten

def SpsSyntax.code (sps : SpsSyntax) : List Bool :=
  sps.codeToAspect ++ sps.vui.elim [] VuiSyntax.others

def trailingBits (length : Nat) : List Bool := true :: List.replicate (7 - length % 8) false

def SpsSyntax.encode (sps : SpsSyntax) : List UInt8 :=
  pack (sps.code ++ trailingBits sps.code.length)

end Xineliboutput.Elementary
