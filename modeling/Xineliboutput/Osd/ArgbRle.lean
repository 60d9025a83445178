import Xineliboutput.Foundation.Block
import Xineliboutput.Foundation.ByteOrder

/-!
# ARGB overlay compression

`rle_compress_argbrle` and `rle_uncompress_argbrle` of `tools/rle.c`. The encoder
turns each line into runs, where all transparent pixels are alike, and closes it
with an end-of-line marker. The decoder writes through `dst` and checks its input
as it goes; a byte read behind the end of the input is an outcome of its own.
-/

namespace Xineliboutput.Osd

open Xineliboutput.Foundation

set_option autoImplicit false

/-- The conversion of an unsigned result to `int`. -/
def intOfUnsigned (value : Int) : Int := Int.bmod value (2 ^ 32)

theorem int_of_unsigned_small {value : Nat} (small : value < 2 ^ 31) :
    intOfUnsigned value = value := by
  unfold intOfUnsigned
  rw [Int.bmod_eq_of_le] <;> omega

def alpha (color : UInt32) : Nat := color.toNat / 2 ^ 24

/-! ## Compression -/

def writeU32 (color : UInt32) : List UInt8 := bigEndian 4 color.toNat

def writeLength (flags len : Nat) : List UInt8 :=
  if len < 64 then [UInt8.ofNat (flags ||| len)]
  else [UInt8.ofNat (flags ||| 0x40 ||| ((len >>> 8) &&& 0x3f)), UInt8.ofNat (len &&& 0xff)]

def writeRleArgb (color : UInt32) (len : Nat) : List UInt8 :=
  if alpha color ≠ 0 ∧ len < 2 then (List.replicate len (writeU32 color)).flatten
  else if alpha color = 0 then 0 :: writeLength 0 len
  else 0 :: (writeLength 0x80 len ++ writeU32 color)

/-- The rest of a line behind `len` pixels of one run, with its elements counted. -/
def compressPixels (color : UInt32) (len : Nat) : List UInt32 → List UInt8 × Nat
  | [] =>
      if len ≠ 0 ∧ alpha color ≠ 0 then (writeRleArgb color len ++ writeRleArgb 0 0, 2)
      else (writeRleArgb 0 0, 1)
  | pixel :: rest =>
      if pixel = color then compressPixels color (len + 1) rest
      else if alpha (pixel ||| color) = 0 then compressPixels color (len + 1) rest
      else
        let (bytes, count) := compressPixels pixel 1 rest
        (writeRleArgb color len ++ bytes, count + 1)

def compressLine : List UInt32 → List UInt8 × Nat
  | [] => ([], 0)
  | color :: rest => compressPixels color 1 rest

def compressLines (w : Nat) : Nat → List UInt32 → List UInt8 × Nat
  | 0, _ => ([], 0)
  | lines + 1, data =>
      let (bytes, count) := compressLine (data.take w)
      let (more, moreCount) := compressLines w lines (data.drop w)
      (bytes ++ more, count + moreCount)

/-- `rle_compress_argbrle`: the bytes and the number of elements. `none` is a failed
assertion. -/
def rleCompressArgbrle (data : List UInt32) (w h : Nat) : Option (List UInt8 × Nat) :=
  if w = 0 ∨ 0x3fff < w then none else some (compressLines w h data)

/-! ## Decompression -/

def readU32Argb : List UInt8 → Option (UInt32 × List UInt8)
  | first :: second :: third :: fourth :: rest =>
      some (UInt32.ofNat (bigEndianValue [first, second, third, fourth]), rest)
  | _ => none

def decodeLen : List UInt8 → Option (Nat × List UInt8)
  | [] => none
  | byte :: rest =>
      if byte &&& 0x40 = 0 then some ((byte &&& 0x3f).toNat, rest)
      else
        match rest with
        | [] => none
        | low :: rest => some ((byte &&& 0x3f).toNat <<< 8 ||| low.toNat, rest)

/-- Where the decoder stands: column, row, and the pixel `dst` points to. -/
structure Cursor where
  x : Nat
  y : Nat
  dst : Nat

inductive Outcome where
  | returned (value : Int)
  | overread
  deriving DecidableEq

inductive Progress where
  | moved (fills : List (Fill UInt32)) (cursor : Cursor) (rest : List UInt8)
  | stopped (fills : List (Fill UInt32)) (outcome : Outcome)

def sub32 (left right : Nat) : Nat := (left + 2 ^ 32 - right) % 2 ^ 32

/-- The end of one element: the column goes on, and must stay inside the line. -/
def advance (w : Nat) (cursor : Cursor) (len : Nat) (fill : Fill UInt32) (rest : List UInt8) :
    Progress :=
  let x := (cursor.x + len) % 2 ^ 32
  if w < x then .stopped [fill] (.returned (-99)) else .moved [fill] { cursor with x := x } rest

/-- One round of the loop on input that is not used up. -/
def decodeElement (w stride : Nat) (cursor : Cursor) : List UInt8 → Progress
  | [] => .stopped [] .overread
  | 0 :: rest =>
      match rest with
      | [] => .stopped [] .overread
      | code :: _ =>
          match decodeLen rest with
          | none => .stopped [] .overread
          | some (len, rest) =>
              if w < (cursor.x + len) % 2 ^ 32 then .stopped [] (.returned (-9999))
              else if code &&& 0x80 = 0 then
                if len ≠ 0 then advance w cursor len ⟨cursor.dst + cursor.x, len, 0⟩ rest
                else
                  -- end of line marker (00 00); the byte count is a 32-bit product
                  .moved (if cursor.x < sub32 w 1 then
                      [⟨cursor.dst + cursor.x, sub32 (sub32 w cursor.x) 1 * 4 % 2 ^ 32 / 4, 0⟩]
                    else [])
                    ⟨0, cursor.y + 1, cursor.dst + stride⟩ rest
              else
                match readU32Argb rest with
                | none => .stopped [] .overread
                | some (dw, rest) => advance w cursor len ⟨cursor.dst + cursor.x, len, dw⟩ rest
  | plain@(_ :: _) =>
      match readU32Argb plain with
      | none => .stopped [] .overread
      | some (color, rest) => advance w cursor 1 ⟨cursor.dst + cursor.x, 1, color⟩ rest

/-- The loop, by the number of elements that are still expected. -/
def uncompressElements (w h stride numRle : Nat) :
    Nat → Cursor → List UInt8 → List (Fill UInt32) × Outcome
  | 0, cursor, data =>
      if h ≤ cursor.y then ([], .returned (intOfUnsigned numRle))
      else ([], .returned (if data.isEmpty then -2 else -1))
  | remaining + 1, cursor, data =>
      if h ≤ cursor.y then ([], .returned (intOfUnsigned (-100000 - (remaining + 1))))
      else if data.isEmpty then ([], .returned (-2))
      else
        match decodeElement w stride cursor data with
        | .stopped fills outcome => (fills, outcome)
        | .moved fills cursor rest =>
            let (more, outcome) := uncompressElements w h stride numRle remaining cursor rest
            (fills ++ more, outcome)

/-- `rle_uncompress_argbrle`: what it writes and how it ends. -/
def rleUncompressArgbrle (w h stride : Nat) (rleData : List UInt8) (numRle : Nat) :
    List (Fill UInt32) × Outcome :=
  uncompressElements w h stride numRle numRle ⟨0, 0, 0⟩ rleData

end Xineliboutput.Osd
