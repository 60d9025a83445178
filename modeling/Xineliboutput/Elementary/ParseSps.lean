import Xineliboutput.Elementary.BitReaders

/-!
# The parser of sequence parameter sets

`h264_parse_sps` with the reader under `NOCACHE`. An `if` that only reads further is a
definition of its own, and `br_get_u16` reads the high byte first.
-/

namespace Xineliboutput.Elementary

set_option autoImplicit false

/-- `mpeg_rational_t` -/
structure MpegRational where
  num : Nat
  den : Nat
  deriving DecidableEq

structure H264SpsData where
  width : Nat
  height : Nat
  pixelAspect : MpegRational
  deriving DecidableEq

/-- What is stored in a `uint16_t`. -/
def uint16 (number : Int) : Nat := (number % 65536).toNat

abbrev SpsReader := StateT UncachedBr Option

namespace SpsReader

def getBit : SpsReader Nat := UncachedBr.brGetBit
def getBits (n : Nat) : SpsReader Nat := UncachedBr.brGetBits n
def getU8 : SpsReader Nat := getBits 8
def getUeGolomb : SpsReader Nat := UncachedBr.reader.brGetUeGolomb
def getSeGolomb : SpsReader Int := UncachedBr.reader.brGetSeGolomb

def skip (skips : UncachedBr → Option UncachedBr) : SpsReader Unit :=
  fun br => (skips br).map fun br => ((), br)

def skipBit : SpsReader Unit := skip UncachedBr.brSkipBit
def skipBits (n : Nat) : SpsReader Unit := skip (UncachedBr.brSkipBits n)

/-- `br_skip_ue_golomb` and `br_skip_se_golomb` -/
def skipGolomb : SpsReader Unit := skip UncachedBr.reader.brSkipGolomb

def getU16 : SpsReader Nat := do
  let high ← getBits 8
  let low ← getBits 8
  pure ((high <<< 8) ||| low)

/-! ## The parts -/

def nextScale (last next : Int) : SpsReader Int :=
  if next ≠ 0 then do
    let delta ← getSeGolomb
    pure ((last + delta) % 256)
  else pure next

/-- The loop over a scaling list, with the rounds that are left. -/
def scalingList : Nat → Int → Int → SpsReader Unit
  | 0, _, _ => pure ()
  | rounds + 1, last, next => do
      let next ← nextScale last next
      scalingList rounds (if next ≠ 0 then next else last) next

def scalingListPresent (i present : Nat) : SpsReader Unit :=
  if present ≠ 0 then scalingList (if i < 6 then 16 else 64) 8 8 else pure ()

/-- The loop over the scaling lists, from `i` on. -/
def scalingLists : Nat → Nat → SpsReader Unit
  | 0, _ => pure ()
  | rounds + 1, i => do
      let present ← getBit
      scalingListPresent i present
      scalingLists rounds (i + 1)

def scalingMatrix (present : Nat) : SpsReader Unit :=
  if present ≠ 0 then scalingLists 8 0 else pure ()

def residualColour (chromaFormatIdc : Nat) : SpsReader Unit :=
  if chromaFormatIdc = 3 then skipBit else pure ()

def highProfile (profileIdc : Nat) : SpsReader Unit :=
  if profileIdc ≥ 100 then do
    let chromaFormatIdc ← getUeGolomb
    residualColour chromaFormatIdc
    skipGolomb
    skipGolomb
    skipBit
    let present ← getBit
    scalingMatrix present
  else pure ()

def skipGolombs : Nat → SpsReader Unit
  | 0 => pure ()
  | rounds + 1 => do
      skipGolomb
      skipGolombs rounds

/-- `j` is an `int`, so that the loop has no rounds for numbers from 2^31 on. -/
def refFrameOffsets (j : Nat) : SpsReader Unit := skipGolombs (if j < 2 ^ 31 then j else 0)

def picOrderCnt (picOrderCntType : Nat) : SpsReader Unit :=
  if picOrderCntType = 0 then skipGolomb
  else if picOrderCntType = 1 then do
    skipBit
    skipGolomb
    skipGolomb
    let j ← getUeGolomb
    refFrameOffsets j
  else pure ()

def fieldCoding (frameMbsOnly : Nat) : SpsReader Unit :=
  if frameMbsOnly = 0 then do
    let _ ← getBit
    pure ()
  else pure ()

def frameCropping (frameMbsOnly width height cropping : Nat) : SpsReader (Nat × Nat) :=
  if cropping ≠ 0 then do
    let cropLeft ← getUeGolomb
    let cropRight ← getUeGolomb
    let cropTop ← getUeGolomb
    let cropBottom ← getUeGolomb
    pure (uint16 (width - 2 * (cropLeft + cropRight)),
      uint16 (height - (if frameMbsOnly ≠ 0 then 2 else 4) * (cropTop + cropBottom)))
  else pure (width, height)

def aspectRatios : List MpegRational :=
  [⟨0, 1⟩, ⟨1, 1⟩, ⟨12, 11⟩, ⟨10, 11⟩, ⟨16, 11⟩, ⟨40, 33⟩, ⟨24, 11⟩, ⟨20, 11⟩, ⟨32, 11⟩, ⟨80, 33⟩,
    ⟨18, 11⟩, ⟨15, 11⟩, ⟨64, 33⟩, ⟨160, 99⟩, ⟨4, 3⟩, ⟨3, 2⟩, ⟨2, 1⟩]

def aspectOf (aspectRatioIdc : Nat) (aspect : MpegRational) : SpsReader MpegRational :=
  if aspectRatioIdc = 255 then do
    let num ← getU16
    let den ← getU16
    pure ⟨num, den⟩
  else pure (aspectRatios.getD aspectRatioIdc aspect)

def aspectInfo (present : Nat) (aspect : MpegRational) : SpsReader MpegRational :=
  if present ≠ 0 then do
    let aspectRatioIdc ← getU8
    aspectOf aspectRatioIdc aspect
  else pure aspect

def vuiParameters (present : Nat) (aspect : MpegRational) : SpsReader MpegRational :=
  if present ≠ 0 then do
    let present ← getBit
    aspectInfo present aspect
  else pure aspect

/-! ## The whole -/

def beforeSize : SpsReader Unit := do
  let profileIdc ← getU8
  skipBits 16
  skipGolomb
  highProfile profileIdc
  skipGolomb
  let picOrderCntType ← getUeGolomb
  picOrderCnt picOrderCntType
  skipGolomb
  skipBit

def pictureSize : SpsReader (Nat × Nat) := do
  let width ← getUeGolomb
  let height ← getUeGolomb
  let frameMbsOnly ← getBit
  let width := uint16 (uint16 (width + 1) * 16)
  let height := uint16 (uint16 (height + 1) * (16 * (2 - frameMbsOnly)))
  fieldCoding frameMbsOnly
  skipBit
  let cropping ← getBit
  frameCropping frameMbsOnly width height cropping

def sequenceParameterSet (sps : H264SpsData) : SpsReader H264SpsData := do
  beforeSize
  let (width, height) ← pictureSize
  let present ← getBit
  let pixelAspect ← vuiParameters present { sps.pixelAspect with num := 0 }
  pure { width, height, pixelAspect }

end SpsReader

def h264ParseSps (buf : List UInt8) (sps : H264SpsData) : Option (Bool × H264SpsData) := do
  let (sps, br) ← (SpsReader.sequenceParameterSet sps).run (.brInit buf)
  some (!br.brEof, sps)

end Xineliboutput.Elementary

/-!
# The parser of H.265 sequence parameter sets

`h265_parse_sps`, with the reader under `NOCACHE`.
-/

namespace Xineliboutput.Elementary

set_option autoImplicit false

structure H265SpsData where
  width : Nat
  height : Nat
  deriving DecidableEq

namespace SpsReader

abbrev SubLayer := Nat × Nat

def subLayerFlags : Nat → SpsReader (List SubLayer)
  | 0 => pure []
  | rounds + 1 => do
      let profilePresent ← getBit
      let levelPresent ← getBit
      let others ← subLayerFlags rounds
      pure ((profilePresent, levelPresent) :: others)

def skipPairs : Nat → SpsReader Unit
  | 0 => pure ()
  | rounds + 1 => do
      skipBits 2
      skipPairs rounds

/-- `for (i = sps_max_sub_layers_minus1; i < 8; i++)` -/
def skipReserved (maxSubLayersMinus1 : Nat) : SpsReader Unit :=
  if maxSubLayersMinus1 > 0 then skipPairs (8 - maxSubLayersMinus1) else pure ()

def skipIf (present bits : Nat) : SpsReader Unit :=
  if present ≠ 0 then skipBits bits else pure ()

def skipSubLayers : List SubLayer → SpsReader Unit
  | [] => pure ()
  | layer :: layers => do
      skipIf layer.1 (8 + 32 + 4 + 43 + 1)
      skipIf layer.2 8
      skipSubLayers layers

def h265ParameterSet : SpsReader H265SpsData := do
  skipBits 4
  let maxSubLayersMinus1 ← getBits 3
  skipBits (1 + 8 + 32 + 4 + 43 + 1 + 8)
  let layers ← subLayerFlags maxSubLayersMinus1
  skipReserved maxSubLayersMinus1
  skipSubLayers layers
  skipGolomb
  let chromaFormatIdc ← getUeGolomb
  residualColour chromaFormatIdc
  let width ← getUeGolomb
  let height ← getUeGolomb
  pure { width := uint16 width, height := uint16 height }

end SpsReader

def h265ParseSps (buf : List UInt8) : Option (Bool × H265SpsData) := do
  let (sps, br) ← SpsReader.h265ParameterSet.run (.brInit buf)
  some (!br.brEof, sps)

end Xineliboutput.Elementary
