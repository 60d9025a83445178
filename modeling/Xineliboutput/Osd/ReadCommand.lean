import Xineliboutput.Client.DataControl
import Xineliboutput.Osd.Command

/-!
# The control reader and OSD commands

The client reads a line, and behind the line `OSDCMD` a size byte, the members of
the command by their offsets, and the parts that it expects by its own pointers.
-/

namespace Xineliboutput.Osd

open Xineliboutput.Foundation
open Xineliboutput.Client (startsWith)

set_option autoImplicit false

/-! ## The connection -/

/-- `read_socket`: it waits for all the bytes, and fails where the connection ends. -/
def readSocket (count : Nat) (stream : List UInt8) : Option (List UInt8 × List UInt8) :=
  if count ≤ stream.length then some (stream.take count, stream.drop count) else none

/-- `readline_control` behind the bytes of `line`. -/
def readlineControl (maxlen : Nat) : List UInt8 → List UInt8 → Option (List UInt8 × List UInt8)
  | line, [] => if line.length < maxlen - 1 then none else some (line, [])
  | line, byte :: stream =>
      if line.length < maxlen - 1 then
        if byte = 0 ∨ byte = 13 then readlineControl maxlen line stream
        else if byte = 10 then some (line, stream)
        else readlineControl maxlen (line ++ [byte]) stream
      else some (line, byte :: stream)

/-! ## The command -/

def rdU16 (src : List UInt8) : UInt16 :=
  .ofNat ((src.getD 0 0).toNat * 256 + (src.getD 1 0).toNat)

def rdU32 (src : List UInt8) : UInt32 :=
  .ofNat ((rdU16 src).toNat * 65536 + (rdU16 (src.drop 2)).toNat)

def rdU64 (src : List UInt8) : UInt64 :=
  .ofNat ((rdU32 src).toNat * 4294967296 + (rdU32 (src.drop 4)).toNat)

def Host.store (host : Host) (value : UInt64) : PointerUnion :=
  ⟨host.order.bytes 8 value.toNat, host.order.bytes_length 8 _⟩

/-- `rd_osdcmd` into a command of zeros, and the number of bytes it does not know. -/
def rdOsdcmd (host : Host) (src : List UInt8) : Option (OsdCommand × Nat) :=
  let size := src.getD 0 0
  if size.toNat < 60 then none
  else
    some (
      { size
        cmd := src.getD 1 0
        wnd := src.getD 2 0
        layer := src.getD 3 0
        pts := (rdU64 (src.drop 4)).toInt64
        delayMs := rdU32 (src.drop 12)
        x := rdU16 (src.drop 16)
        y := rdU16 (src.drop 18)
        w := rdU16 (src.drop 20)
        h := rdU16 (src.drop 22)
        datalen := rdU32 (src.drop 24)
        numRle := rdU32 (src.drop 28)
        data := host.store (rdU64 (src.drop 32))
        colors := rdU32 (src.drop 40)
        palette := host.store (rdU64 (src.drop 44))
        dirtyArea :=
          { x1 := rdU16 (src.drop 52)
            y1 := rdU16 (src.drop 54)
            x2 := rdU16 (src.drop 56)
            y2 := rdU16 (src.drop 58) }
        flags := if 60 < size.toNat then src.getD 60 0 else 0
        scaling := if 61 < size.toNat then src.getD 61 0 else 0 },
      if 62 < size.toNat then size.toNat - 62 else 0)

/-- A command with the parts that have been read for it, before decompression. -/
structure ReceivedCommand where
  command : OsdCommand
  palette : Option (List UInt8)
  data : Option (List UInt8)

def readPart (expected : Bool) (count : Nat) (stream : List UInt8) :
    Option (Option (List UInt8) × List UInt8) :=
  if expected then (readSocket count stream).map fun (bytes, rest) => (some bytes, rest)
  else some (none, stream)

def readParts (host : Host) (command : OsdCommand) (stream : List UInt8) :
    Option (ReceivedCommand × List UInt8) := do
  let (palette, rest) ← readPart (!host.isNull command.palette && decide (0 < command.colors.toNat))
    (host.sizeProduct 4 command.colors.toNat) stream
  let (data, rest) ← readPart (!host.isNull command.data && decide (0 < command.datalen.toNat))
    command.datalen.toNat rest
  some ({ command, palette, data }, rest)

/-- `handle_osdcmd` up to the command; `none` is `CONTROL_DISCONNECTED`. -/
def handleOsdcmd (host : Host) (stream : List UInt8) : Option (ReceivedCommand × List UInt8) := do
  let (first, rest) ← readSocket 1 stream
  let length := (first.getD 0 0).toNat
  if length < 2 then none
  else
    let (more, rest) ← readSocket (length - 1) rest
    let (command, _) ← rdOsdcmd host (first ++ more)
    readParts host command rest

/-! ## The control thread -/

inductive ControlMessage where
  | osdcmd (received : ReceivedCommand)
  | line (text : List UInt8)

def controlDisconnected : Int := -3

def osdcmdWord : List UInt8 := ascii ['O', 'S', 'D', 'C', 'M', 'D']

/-- One turn of `vdr_control_thread`. `execute` decompresses an OSD command and hands
it to `vdr_plugin_exec_osd_command`; other lines are left to other handlers. -/
def controlStep (host : Host) (execute : ReceivedCommand → Int) (stream : List UInt8) :
    Option (ControlMessage × List UInt8) := do
  let (line, rest) ← readlineControl 8127 [] stream
  if startsWith line osdcmdWord then
    let (received, rest) ← handleOsdcmd host rest
    if execute received = controlDisconnected then none
    else some (.osdcmd received, rest)
  else some (.line line, rest)

/-- So many turns of `vdr_control_thread`. -/
def controlThread (host : Host) (execute : ReceivedCommand → Int) :
    Nat → List UInt8 → Option (List ControlMessage × List UInt8)
  | 0, stream => some ([], stream)
  | turns + 1, stream => do
      let (message, rest) ← controlStep host execute stream
      let (messages, rest) ← controlThread host execute turns rest
      some (message :: messages, rest)

/-! ## Reading what was written -/

theorem read_socket_append {front : List UInt8} {count : Nat} (whole : front.length = count)
    (rest : List UInt8) : readSocket count (front ++ rest) = some (front, rest) := by
  subst whole
  unfold readSocket
  rw [if_pos (by simp), List.take_left, List.drop_left]

theorem rd_u16_big_endian (value : Nat) (rest : List UInt8) :
    rdU16 (bigEndian 2 value ++ rest) = UInt16.ofNat value := by
  have bytes : bigEndian 2 value = [UInt8.ofNat (value / 256), UInt8.ofNat value] := rfl
  rw [bytes, rdU16, ← UInt16.toNat_inj]
  simp only [List.cons_append, List.getD_cons_zero, List.getD_cons_succ, UInt8.toNat_ofNat',
    UInt16.toNat_ofNat']
  omega

theorem rd_u32_big_endian (value : Nat) (rest : List UInt8) :
    rdU32 (bigEndian 4 value ++ rest) = UInt32.ofNat value := by
  rw [big_endian_split 2 2, List.append_assoc, rdU32, rd_u16_big_endian,
    List.drop_left' (big_endian_length 2 _), rd_u16_big_endian, ← UInt32.toNat_inj]
  simp only [UInt16.toNat_ofNat', UInt32.toNat_ofNat']
  omega

theorem rd_u64_big_endian (value : Nat) (rest : List UInt8) :
    rdU64 (bigEndian 8 value ++ rest) = UInt64.ofNat value := by
  rw [big_endian_split 4 4, List.append_assoc, rdU64, rd_u32_big_endian,
    List.drop_left' (big_endian_length 4 _), rd_u32_big_endian, ← UInt64.toNat_inj]
  simp only [UInt32.toNat_ofNat', UInt64.toNat_ofNat']
  omega

def Host.seen (host : Host) (pointer : PointerUnion) : PointerUnion :=
  host.store (UInt64.ofNat (bigEndianValue pointer.cells))

theorem rd_u64_union (pointer : PointerUnion) (rest : List UInt8) :
    rdU64 (pointer.cells ++ rest) = UInt64.ofNat (bigEndianValue pointer.cells) := by
  have spelled : bigEndian 8 (bigEndianValue pointer.cells) = pointer.cells := by
    have whole := ByteOrder.big.bytes_value pointer.cells
    rwa [pointer.sized] at whole
  rw [← rd_u64_big_endian _ rest, spelled]

theorem drop_next {src front rest : List UInt8} {offset width : Nat}
    (here : src.drop offset = front ++ rest) (sized : front.length = width) :
    src.drop (offset + width) = rest := by
  rw [← List.drop_drop, here, List.drop_left' sized]

theorem rd_osdcmd_wire (host : Host) (cmd : OsdCommand) (behind : List UInt8)
    (known : 61 < cmd.size.toNat) :
    rdOsdcmd host (cmd.wire ++ behind) =
      some ({ cmd with data := host.seen cmd.data, palette := host.seen cmd.palette },
        if 62 < cmd.size.toNat then cmd.size.toNat - 62 else 0) := by
  generalize whole : cmd.wire ++ behind = src
  have spelled := whole.symm
  simp only [OsdCommand.wire, List.append_assoc] at spelled
  have at0 : src.drop 0 = _ := spelled
  have at4 : src.drop 4 = _ := drop_next at0 rfl
  have at12 : src.drop 12 = _ := drop_next at4 (big_endian_length 8 _)
  have at16 : src.drop 16 = _ := drop_next at12 (big_endian_length 4 _)
  have at18 : src.drop 18 = _ := drop_next at16 (big_endian_length 2 _)
  have at20 : src.drop 20 = _ := drop_next at18 (big_endian_length 2 _)
  have at22 : src.drop 22 = _ := drop_next at20 (big_endian_length 2 _)
  have at24 : src.drop 24 = _ := drop_next at22 (big_endian_length 2 _)
  have at28 : src.drop 28 = _ := drop_next at24 (big_endian_length 4 _)
  have at32 : src.drop 32 = _ := drop_next at28 (big_endian_length 4 _)
  have at40 : src.drop 40 = _ := drop_next at32 cmd.data.sized
  have at44 : src.drop 44 = _ := drop_next at40 (big_endian_length 4 _)
  have at52 : src.drop 52 = _ := drop_next at44 cmd.palette.sized
  have at54 : src.drop 54 = _ := drop_next at52 (big_endian_length 2 _)
  have at56 : src.drop 56 = _ := drop_next at54 (big_endian_length 2 _)
  have at58 : src.drop 58 = _ := drop_next at56 (big_endian_length 2 _)
  have at60 : src.drop 60 = _ := drop_next at58 (big_endian_length 2 _)
  have flags : src.getD 60 0 = cmd.flags := by
    rw [List.getD_eq_getElem?_getD, ← Nat.add_zero 60, ← List.getElem?_drop, at60]
    rfl
  have scaling : src.getD 61 0 = cmd.scaling := by
    rw [List.getD_eq_getElem?_getD, ← List.getElem?_drop (i := 60) (j := 1), at60]
    rfl
  have size : src.getD 0 0 = cmd.size := by rw [spelled]; rfl
  unfold rdOsdcmd
  simp only [size, flags, scaling, at4, at12, at16, at18, at20, at22, at24, at28, at32, at40, at44,
    at52, at54, at56, at58, rd_u16_big_endian, rd_u32_big_endian, rd_u64_big_endian, rd_u64_union,
    UInt16.ofNat_toNat, UInt32.ofNat_toNat, UInt64.ofNat_toNat, Int64.toInt64_toUInt64]
  rw [if_neg (by omega), if_pos (by omega), if_pos known, spelled]
  rfl

theorem handle_members (host : Host) {members rest : List UInt8} {size : UInt8}
    (sized : (size :: members).length = size.toNat) (long : 2 ≤ size.toNat) :
    handleOsdcmd host (size :: members ++ rest) =
      (rdOsdcmd host (size :: members)).bind fun (command, _) => readParts host command rest := by
  have length : members.length = size.toNat - 1 := by
    rw [← sized]
    rfl
  unfold handleOsdcmd
  rw [show size :: members ++ rest = [size] ++ (members ++ rest) from rfl,
    read_socket_append (show [size].length = 1 from rfl)]
  simp only [Option.bind_eq_bind, Option.bind_some, List.getD_cons_zero]
  rw [if_neg (by omega), read_socket_append length]
  rfl

end Xineliboutput.Osd
