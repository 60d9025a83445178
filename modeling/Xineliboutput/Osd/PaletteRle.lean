import Xineliboutput.Osd.ArgbRle

/-!
# Palette overlays

A palette overlay is painted from elements of one length and one colour each.
Locally `rle_compress` of `tools/rle.c` makes them from the bitmap; for a remote
client `rle_compress_hdmv` writes bytes, from which `rle_uncompress_hdmv` makes
elements again. `rle_uncompress_lut8` paints either.
-/

namespace Xineliboutput.Osd

open Xineliboutput.Foundation

set_option autoImplicit false

/-- `osd_rle_elem_t`: two unsigned 16-bit numbers. -/
structure RleElem where
  len : Nat
  color : Nat
  deriving DecidableEq, Repr

/-! ## The local path -/

def compressRuns (rle : RleElem) : List UInt8 → List RleElem
  | [] => [rle]
  | pixel :: rest =>
      if rle.color ≠ pixel.toNat then
        (if rle.len ≠ 0 then [rle] else []) ++ compressRuns ⟨1, pixel.toNat⟩ rest
      else compressRuns { rle with len := (rle.len + 1) % 2 ^ 16 } rest

/-- `rle_compress`. The offset of a line is a 32-bit product. -/
def rleCompress (data : List UInt8) (w h : Nat) : List RleElem :=
  (List.range h).flatMap fun y => compressRuns ⟨0, 0⟩ ((data.drop (y * w % 2 ^ 32)).take w)

/-! ## The remote path -/

def writeRleHdmv (color : UInt8) (len : Nat) : List UInt8 :=
  -- short non-transparent sequences are uncompressed
  if color ≠ 0 ∧ len < 4 then List.replicate len color
  else if color = 0 then 0 :: writeLength 0 len
  else 0 :: (writeLength 0x80 len ++ [color])

/-- The rest of a line behind `len` pixels of one run, with its elements counted. -/
def compressHdmvPixels (color : UInt8) (len : Nat) : List UInt8 → List UInt8 × Nat
  | [] =>
      if len ≠ 0 then (writeRleHdmv color len ++ writeRleHdmv 0 0, 2) else (writeRleHdmv 0 0, 1)
  | pixel :: rest =>
      if pixel = color then compressHdmvPixels color (len + 1) rest
      else
        let (bytes, count) := compressHdmvPixels pixel 1 rest
        (writeRleHdmv color len ++ bytes, count + 1)

def compressHdmvLine : List UInt8 → List UInt8 × Nat
  | [] => ([], 0)
  | color :: rest => compressHdmvPixels color 1 rest

/-- The next element of the input. `none` is a byte read behind its end. -/
def decodeHdmv : List UInt8 → Option (RleElem × List UInt8)
  | [] => none
  | 0 :: rest =>
      match rest with
      | [] => none
      | code :: _ =>
          match decodeLen rest with
          | none => none
          | some (len, rest) =>
              if code &&& 0x80 = 0 then some (⟨len, 0⟩, rest)
              else
                match rest with
                | [] => none
                | color :: rest => some (⟨len, color.toNat⟩, rest)
  | byte :: rest => some (⟨1, byte.toNat⟩, rest)

/-- The decoder between two elements: column, row, the elements in front of `rlep`,
the latest first, and what `rlep` points to. -/
structure HdmvState where
  x : Nat
  y : Nat
  emitted : List RleElem
  slot : RleElem

/-- A single pixel is added to the element before it, if that is of the same line and
colour. -/
def HdmvState.emit (state : HdmvState) (rle : RleElem) : HdmvState :=
  match state.emitted with
  | last :: others =>
      if rle.len = 1 ∧ state.x ≠ 0 ∧ last.color = rle.color then
        ⟨(state.x + 1) % 2 ^ 32, state.y, { last with len := (last.len + 1) % 2 ^ 16 } :: others, rle⟩
      else ⟨(state.x + rle.len) % 2 ^ 32, state.y, rle :: state.emitted, ⟨0, 0⟩⟩
  | [] => ⟨(state.x + rle.len) % 2 ^ 32, state.y, [rle], ⟨0, 0⟩⟩

/-- The end-of-line marker. A short line is filled up, but for a single pixel. -/
def HdmvState.endLine (w : Nat) (state : HdmvState) (rle : RleElem) : HdmvState :=
  if state.x < sub32 w 1 then
    ⟨0, state.y + 1, ⟨sub32 w state.x % 2 ^ 16, 0xff⟩ :: state.emitted, ⟨0, 0⟩⟩
  else ⟨0, state.y + 1, state.emitted, rle⟩

/-- The elements behind `data`, `2 * num_rle` of them, cleared by `calloc`. -/
def HdmvState.elements (size : Nat) (state : HdmvState) : List RleElem :=
  (state.emitted.reverse ++ state.slot :: List.replicate size ⟨0, 0⟩).take size

/-- The loop. Every round uses up a byte, so that after as many rounds as there were
bytes none is left. On a failure of the first kind the elements are freed. -/
def uncompressHdmvRounds (w h size : Nat) :
    Nat → HdmvState → List UInt8 → List RleElem × Outcome
  | 0, state, _ =>
      if h ≤ state.y then
        (state.elements size, .returned (intOfUnsigned state.emitted.length))
      else ([], .returned (-2))
  | rounds + 1, state, data =>
      if h ≤ state.y then
        (state.elements size, .returned (intOfUnsigned state.emitted.length))
      else if data.isEmpty ∨ size ≤ state.emitted.length then
        ([], .returned (if data.isEmpty then -2 else -1))
      else
        match decodeHdmv data with
        | none => ([], .overread)
        | some (rle, rest) =>
            if 0 < rle.len then
              let state := state.emit rle
              if w < state.x then (state.elements size, .returned (-9999))
              else uncompressHdmvRounds w h size rounds state rest
            else uncompressHdmvRounds w h size rounds (state.endLine w rle) rest

/-- `rle_uncompress_hdmv`: the array behind `data`, and the result. -/
def rleUncompressHdmv (w h : Nat) (rleData : List UInt8) (numRle : Nat) :
    List RleElem × Outcome :=
  uncompressHdmvRounds w h (2 * numRle % 2 ^ 32) rleData.length ⟨0, 0, [], ⟨0, 0⟩⟩ rleData

/-! ## Painting -/

/-- Where `rle_uncompress_lut8` stands. -/
structure Pen where
  idx : Nat
  pixelcounter : Nat
  line : Nat

/-- The pen moved on to the next line when its line is full, `none` behind the last one. -/
def Pen.ready (w h stride : Nat) (pen : Pen) : Option Pen :=
  if w ≤ pen.pixelcounter then
    if h ≤ pen.line + 1 then none
    else some ⟨(pen.idx + sub32 stride pen.pixelcounter) % 2 ^ 32, 0, pen.line + 1⟩
  else some pen

end Xineliboutput.Osd
