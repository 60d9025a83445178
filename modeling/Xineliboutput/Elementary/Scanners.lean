import Xineliboutput.Elementary.NalUnescape
import Xineliboutput.Elementary.ParseSps
import Xineliboutput.Ts.VideoSize

/-!
# Scanners of elementary streams

The functions of `pes.c`, `mpeg.c`, `h264.c` and `h265.c` that look for start codes. `buf` is
the memory from the pointer on, which may end before or behind the `len` bytes. A call is `none`
where it reads outside that memory, or writes outside the `len` bytes of `nal_data`.
-/

namespace Xineliboutput.Elementary

open Xineliboutput.Foundation
open Xineliboutput.Ts (VideoSize sequenceSize)

set_option autoImplicit false

/-! ## Start codes -/

/-- The macros for start codes read four bytes at once on x86. -/
inductive Architecture where
  | x86
  | other
  deriving DecidableEq

def scPicture : List UInt8 := [0, 0, 1, 0x00]
def scSequence : List UInt8 := [0, 0, 1, 0xb3]
def nalAud : List UInt8 := [0, 0, 1, 0x09]

/-- `buf[i] == c0 && buf[i + 1] == c1 && ...`: behind a difference nothing is read. -/
def bytesAt (buf : List UInt8) : List UInt8 → Nat → Option Bool
  | [], _ => some true
  | byte :: code, i =>
      buf[i]?.bind fun read => if read = byte then bytesAt buf code (i + 1) else some false

/-- `IS_SC_PICTURE(buf + i)`, `IS_SC_SEQUENCE(buf + i)` and `IS_NAL_AUD(buf + i)` -/
def isStartCode (arch : Architecture) (code buf : List UInt8) (i : Nat) : Option Bool :=
  match arch with
  | .x86 => if i + 4 ≤ buf.length then some (code.isPrefixOf (buf.drop i)) else none
  | .other => bytesAt buf code i

/-! ## Picture types -/

def noPicture : Nat := 0
def iFrame : Nat := 1
def pFrame : Nat := 2
def bFrame : Nat := 3

section Functions

variable (arch : Architecture) (buf : List UInt8) (len : Nat)

def mpeg2TypeAt (i : Nat) : Option (Option Nat) := do
  let found ← isStartCode arch scPicture buf i
  if found then do
    let byte ← buf[i + 5]?
    some (some ((byte.toNat >>> 3) &&& 0x07))
  else some none

def mpeg2GetPictureType : Option Nat :=
  if len > 5 then
    (searchRange (mpeg2TypeAt arch buf) (len - 5) 0).map fun found => found.getD noPicture
  else some noPicture

/-- The `switch` in `h264_get_picture_type`. -/
def delimiterType (type : Nat) : Option Nat :=
  if type = 0 ∨ type = 3 ∨ type = 5 then some iFrame
  else if type = 1 ∨ type = 4 ∨ type = 6 then some pFrame
  else if type = 2 ∨ type = 7 then some bFrame
  else none

def h264TypeAt (i : Nat) : Option (Option Nat) := do
  let found ← isStartCode arch nalAud buf i
  if found then do
    let byte ← buf[i + 4]?
    some (delimiterType (byte.toNat >>> 5))
  else some none

def h264GetPictureType : Option Nat :=
  if len > 5 then
    (searchRange (h264TypeAt arch buf) (len - 5) 0).map fun found => found.getD noPicture
  else some noPicture

/-! ## Video sizes -/

def mpeg2SizeAt (i : Nat) : Option (Option VideoSize) := do
  let found ← isStartCode arch scSequence buf i
  if found then do
    let byte4 ← buf[i + 4]?
    let byte5 ← buf[i + 5]?
    let byte6 ← buf[i + 6]?
    let byte7 ← buf[i + 7]?
    some (some (sequenceSize byte4 byte5 byte6 byte7))
  else some none

def mpeg2GetVideoSize : Option (Option VideoSize) :=
  if len > 6 then searchRange (mpeg2SizeAt arch buf) (len - 6) 0 else some none

/-- What is stored in `nal_len`. -/
def nalLen (nalData : List UInt8) : Int := Int.bmod nalData.length (2 ^ 32)

def h264SizeOf (nalData : List UInt8) : Option (Option VideoSize) :=
  if 0 < nalLen nalData then do
    let (complete, sps) ← h264ParseSps (nalData.take (nalLen nalData).toNat) ⟨0, 0, ⟨0, 0⟩⟩
    some (if complete then
        some ⟨sps.width, sps.height, sps.pixelAspect.num, sps.pixelAspect.den⟩
      else none)
  else some none

/-- A start code before a unit of this type, as the scanners of both standards test it. -/
def unitAt (isType : UInt8 → Bool) (i : Nat) : Option Bool := do
  let starts ← bytesAt buf [0, 0, 1] i
  if starts then do
    let header ← buf[i + 3]?
    some (isType header)
  else some false

def h264SizeAt (i : Nat) : Option (Option VideoSize) := do
  let found ← unitAt buf (fun header => header &&& 0x1f == 0x07) i
  if found then do
    let nalData ← h264NalUnescape (buf.drop (i + 4)) (len - i - 4) len
    h264SizeOf nalData
  else some none

def h264GetVideoSize : Option (Option VideoSize) := do
  let type ← h264GetPictureType arch buf len
  if type ≠ iFrame then some none
  else if len > 4 then searchRange (h264SizeAt buf len) (len - 4 - 5) 5
  else some none

def h265SizeOf (nalData : List UInt8) : Option (Option VideoSize) :=
  if 0 < nalLen nalData then do
    let (complete, sps) ← h265ParseSps (nalData.take (nalLen nalData).toNat)
    some (if complete then some ⟨sps.width, sps.height, 1, 1⟩ else none)
  else some none

def h265SizeAt (i : Nat) : Option (Option VideoSize) := do
  let found ← unitAt buf (fun header => header >>> 1 == 0x21) i
  if found then do
    let nalData ← h265NalUnescape (buf.drop (i + 5)) (len - i - 5) len
    h265SizeOf nalData
  else some none

def h265GetVideoSize : Option (Option VideoSize) :=
  if len > 5 then searchRange (h265SizeAt buf len) (len - 5 - 5) 5 else some none

/-! ## PES packets -/

/-- `PES_HEADER_LEN` -/
def pesHeaderLen : Option Nat := buf[8]?.map fun headerDataLength => 8 + headerDataLength.toNat + 1

def pesIsFrameH264 : Option Bool :=
  if len < 9 then some false
  else do
    let headerLen ← pesHeaderLen buf
    if len < headerLen then some false
    else do
      let flags ← buf[6]?
      if flags &&& 0xC0 ≠ 0x80 then some false
      else isStartCode arch nalAud (buf.drop headerLen) 0

def startedPictureType : Option Nat := do
  let starts ← bytesAt buf [0, 0, 1] 0
  if starts then do
    let unit ← buf[3]?
    if unit = 0x09 then h264GetPictureType arch buf len
    else mpeg2GetPictureType arch buf len
  else some noPicture

def pesGetPictureType : Option Nat :=
  if len < 8 then some noPicture
  else do
    let headerLen ← pesHeaderLen buf
    if len < headerLen then some noPicture
    else
      let buf := buf.drop headerLen
      let len := len - headerLen
      if len < 5 then some noPicture
      else do
        let zeros ← bytesAt buf [0, 0, 0] 0
        if zeros then startedPictureType arch (buf.drop 1) (len - 1)
        else startedPictureType arch buf len

/-- `len` may become negative, and is a `size_t` where it is handed on. -/
def pesGetVideoSize (h264 : Bool) : Option (Option VideoSize) := do
  let headerLen ← pesHeaderLen buf
  let buf := buf.drop headerLen
  let len := sizeSub len headerLen
  let isH264 ← if h264 then some true else isStartCode arch nalAud buf 0
  if isH264 then h264GetVideoSize arch buf len else mpeg2GetVideoSize arch buf len

end Functions
end Xineliboutput.Elementary
