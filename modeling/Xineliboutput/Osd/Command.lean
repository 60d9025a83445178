import Xineliboutput.Foundation.Block
import Xineliboutput.Foundation.ByteOrder
import Xineliboutput.Foundation.DecimalText

/-!
# OSD commands on the control connection

The server sends the packed `osd_command_t` as it lies in its memory, with the
numbers in network order and the two pointers as they are. Palette and image
follow where the sender has them.
-/

namespace Xineliboutput.Osd

open Xineliboutput.Foundation

set_option autoImplicit false

/-! ## The machines -/

inductive PointerSize where
  | four
  | eight
deriving DecidableEq

def PointerSize.bytes : PointerSize → Nat
  | four => 4
  | eight => 8

/-- One end of the connection. The compiler may put `padding` bytes behind the last
member of `osd_command_t`, as many as `ctt_assert_cmd_size` allows. -/
structure Host where
  order : ByteOrder
  pointer : PointerSize
  padding : Nat
  small : 62 + padding < 256

/-- A pointer in a union with a `uint64_t`: eight bytes, of which the pointer is the first ones. -/
abbrev PointerUnion := Block UInt8 8

namespace Host

def isNull (host : Host) (union : PointerUnion) : Bool :=
  (union.cells.take host.pointer.bytes).all (· == 0)

/-- A product of type `size_t`. -/
def sizeProduct (host : Host) (first second : Nat) : Nat :=
  first * second % 256 ^ host.pointer.bytes

def hton (host : Host) (width value : Nat) : Nat := host.order.value (bigEndian width value)

def ntoh (host : Host) (width value : Nat) : Nat := bigEndianValue (host.order.bytes width value)

def htons (host : Host) (value : UInt16) : UInt16 := .ofNat (host.hton 2 value.toNat)

def htonl (host : Host) (value : UInt32) : UInt32 := .ofNat (host.hton 4 value.toNat)

def ntohl (host : Host) (value : UInt32) : UInt32 := .ofNat (host.ntoh 4 value.toNat)

/-- `priv_htonll` -/
def htonll (host : Host) (value : Int64) : Int64 :=
  (UInt64.ofNat (host.hton 8 value.toUInt64.toNat)).toInt64

end Host

/-! ## The command -/

structure OsdRect where
  x1 : UInt16
  y1 : UInt16
  x2 : UInt16
  y2 : UInt16
deriving DecidableEq

/-- `osd_command_t` -/
structure OsdCommand where
  size : UInt8
  cmd : UInt8
  wnd : UInt8
  layer : UInt8
  pts : Int64
  delayMs : UInt32
  x : UInt16
  y : UInt16
  w : UInt16
  h : UInt16
  datalen : UInt32
  numRle : UInt32
  data : PointerUnion
  colors : UInt32
  palette : PointerUnion
  dirtyArea : OsdRect
  flags : UInt8
  scaling : UInt8
deriving DecidableEq

/-- `hton_osdcmd` -/
def htonOsdcmd (host : Host) (cmd : OsdCommand) : OsdCommand :=
  { cmd with
    pts := host.htonll cmd.pts
    delayMs := host.htonl cmd.delayMs
    x := host.htons cmd.x
    y := host.htons cmd.y
    w := host.htons cmd.w
    h := host.htons cmd.h
    datalen := host.htonl cmd.datalen
    numRle := host.htonl cmd.numRle
    colors := host.htonl cmd.colors
    dirtyArea :=
      { x1 := host.htons cmd.dirtyArea.x1
        y1 := host.htons cmd.dirtyArea.y1
        x2 := host.htons cmd.dirtyArea.x2
        y2 := host.htons cmd.dirtyArea.y2 } }

def OsdCommand.image (host : Host) (cmd : OsdCommand) : List UInt8 :=
  [cmd.size, cmd.cmd, cmd.wnd, cmd.layer] ++
    (host.order.bytes 8 cmd.pts.toUInt64.toNat ++
    (host.order.bytes 4 cmd.delayMs.toNat ++
    (host.order.bytes 2 cmd.x.toNat ++
    (host.order.bytes 2 cmd.y.toNat ++
    (host.order.bytes 2 cmd.w.toNat ++
    (host.order.bytes 2 cmd.h.toNat ++
    (host.order.bytes 4 cmd.datalen.toNat ++
    (host.order.bytes 4 cmd.numRle.toNat ++
    (cmd.data.cells ++
    (host.order.bytes 4 cmd.colors.toNat ++
    (cmd.palette.cells ++
    (host.order.bytes 2 cmd.dirtyArea.x1.toNat ++
    (host.order.bytes 2 cmd.dirtyArea.y1.toNat ++
    (host.order.bytes 2 cmd.dirtyArea.x2.toNat ++
    (host.order.bytes 2 cmd.dirtyArea.y2.toNat ++
    [cmd.flags, cmd.scaling])))))))))))))))

/-- A command, what its pointers point to, and the bytes behind its last member. -/
structure SentCommand (host : Host) where
  command : OsdCommand
  padding : Block UInt8 host.padding
  palette : Option (List UInt8)
  data : Option (List UInt8)
  paletteNull : host.isNull command.palette = palette.isNone
  dataNull : host.isNull command.data = data.isNone
  paletteSized : ∀ bytes, palette = some bytes → bytes.length = 4 * command.colors.toNat
  dataSized : ∀ bytes, data = some bytes → bytes.length = command.datalen.toNat
  paletteFits : palette.isSome = true → 4 * command.colors.toNat < 256 ^ host.pointer.bytes

/-! ## Sending -/

/-- What the socket does during one call: if it becomes ready, what it says of its
buffer, and how many bytes each `write` gets out. -/
structure SocketAnswers where
  ready : Bool
  txBufferFree : Int
  written : List Nat

/-- Writes up to the first that does not get all its bytes out. -/
def writeParts : List (List UInt8) → List Nat → Int × List UInt8
  | [], _ => (1, [])
  | part :: parts, written =>
      if part.length ≤ written.headD 0 then
        let onward := writeParts parts written.tail
        (onward.1, part ++ onward.2)
      else (-1, part.take (written.headD 0))

def osdcmdLine : List UInt8 :=
  ascii ['O', 'S', 'D', 'C', 'M', 'D', Char.ofNat 13, Char.ofNat 10]

/-- `sizeof(osd_command_t)` -/
def Host.sizeOfCommand (host : Host) : Nat := 62 + host.padding

/-- Size of the palette of a command in network order. -/
def Host.clutBytes (host : Host) (colors : UInt32) : Nat :=
  host.sizeProduct 4 (host.ntohl colors).toNat

def osdParts (host : Host) (padding : List UInt8) (cmd : OsdCommand) (palette data : List UInt8) :
    List (List UInt8) :=
  [osdcmdLine, cmd.image host ++ padding] ++
    (if !host.isNull cmd.palette && cmd.colors != 0 then [palette.take (host.clutBytes cmd.colors)]
      else []) ++
    (if !host.isNull cmd.data && cmd.datalen != 0 then
      [data.take (host.ntohl cmd.datalen).toNat] else [])

/-- `write_osd_command` for a command in network order: its result and what it has written. -/
def writeOsdCommand (host : Host) (socket : SocketAnswers) (padding : List UInt8)
    (cmd : OsdCommand) (palette data : List UInt8) : Int × List UInt8 :=
  if socket.ready = false then (0, [])
  else if 0 < socket.txBufferFree ∧
      socket.txBufferFree < min (8 + host.sizeOfCommand + host.clutBytes cmd.colors +
        (host.ntohl cmd.datalen).toNat) 1024 then (0, [])
  else
    writeParts (osdParts host padding { cmd with size := UInt8.ofNat host.sizeOfCommand }
      palette data) socket.written

/-- `OsdCmd` for one connection. -/
def sendOsdCommand {host : Host} (sent : SentCommand host) (socket : SocketAnswers) :
    Int × List UInt8 :=
  writeOsdCommand host socket sent.padding.cells (htonOsdcmd host sent.command)
    (sent.palette.getD []) (sent.data.getD [])

/-! ## What is written -/

namespace Host

theorem bytes_hton (host : Host) (width value : Nat) :
    host.order.bytes width (host.hton width value) = bigEndian width value := by
  have whole := host.order.bytes_value (bigEndian width value)
  rwa [big_endian_length] at whole

theorem hton_lt (host : Host) (width value : Nat) : host.hton width value < 256 ^ width := by
  have bound := host.order.value_lt (bigEndian width value)
  rwa [big_endian_length] at bound

theorem ntoh_hton (host : Host) (width value : Nat) (fits : value < 256 ^ width) :
    host.ntoh width (host.hton width value) = value := by
  rw [ntoh, bytes_hton]
  exact big_endian_value_encode width value fits

theorem htons_bytes (host : Host) (value : UInt16) :
    host.order.bytes 2 (host.htons value).toNat = bigEndian 2 value.toNat := by
  rw [htons, UInt16.toNat_ofNat_of_lt' (host.hton_lt 2 _)]
  exact host.bytes_hton 2 _

theorem htonl_bytes (host : Host) (value : UInt32) :
    host.order.bytes 4 (host.htonl value).toNat = bigEndian 4 value.toNat := by
  rw [htonl, UInt32.toNat_ofNat_of_lt' (host.hton_lt 4 _)]
  exact host.bytes_hton 4 _

theorem htonll_bytes (host : Host) (value : Int64) :
    host.order.bytes 8 (host.htonll value).toUInt64.toNat = bigEndian 8 value.toUInt64.toNat := by
  rw [htonll, UInt64.toUInt64_toInt64, UInt64.toNat_ofNat_of_lt' (host.hton_lt 8 _)]
  exact host.bytes_hton 8 _

theorem ntohl_htonl (host : Host) (value : UInt32) : host.ntohl (host.htonl value) = value := by
  rw [ntohl, htonl, UInt32.toNat_ofNat_of_lt' (host.hton_lt 4 _),
    host.ntoh_hton 4 _ value.toNat_lt, UInt32.ofNat_toNat]

theorem htonl_eq_zero (host : Host) (value : UInt32) : host.htonl value = 0 ↔ value = 0 := by
  constructor
  · intro zero
    rw [← host.ntohl_htonl value, ← host.ntohl_htonl 0, zero]
    congr 1
    unfold htonl hton
    cases host.order <;> rfl
  · rintro rfl
    unfold htonl hton
    cases host.order <;> rfl

end Host

theorem write_parts_success {parts : List (List UInt8)} {written : List Nat}
    (success : (writeParts parts written).1 = 1) : (writeParts parts written).2 = parts.flatten := by
  induction parts generalizing written with
  | nil => rfl
  | cons part parts ih =>
      unfold writeParts at success ⊢
      split at success
      · rename_i whole
        rw [if_pos whole]
        exact congrArg (part ++ ·) (ih success)
      · cases success

def OsdCommand.wire (cmd : OsdCommand) : List UInt8 :=
  [cmd.size, cmd.cmd, cmd.wnd, cmd.layer] ++
    (bigEndian 8 cmd.pts.toUInt64.toNat ++ (bigEndian 4 cmd.delayMs.toNat ++
    (bigEndian 2 cmd.x.toNat ++ (bigEndian 2 cmd.y.toNat ++ (bigEndian 2 cmd.w.toNat ++
    (bigEndian 2 cmd.h.toNat ++ (bigEndian 4 cmd.datalen.toNat ++
    (bigEndian 4 cmd.numRle.toNat ++ (cmd.data.cells ++ (bigEndian 4 cmd.colors.toNat ++
    (cmd.palette.cells ++ (bigEndian 2 cmd.dirtyArea.x1.toNat ++
    (bigEndian 2 cmd.dirtyArea.y1.toNat ++ (bigEndian 2 cmd.dirtyArea.x2.toNat ++
    (bigEndian 2 cmd.dirtyArea.y2.toNat ++ [cmd.flags, cmd.scaling])))))))))))))))

theorem hton_image (host : Host) (cmd : OsdCommand) (size : UInt8) :
    OsdCommand.image host { htonOsdcmd host cmd with size := size } =
      OsdCommand.wire { cmd with size := size } := by
  unfold OsdCommand.image OsdCommand.wire htonOsdcmd
  simp only [Host.htons_bytes, Host.htonl_bytes, Host.htonll_bytes]

namespace SentCommand

variable {host : Host}

/-- What the command carries behind its members: nothing for an absent or empty part. -/
def carried (part : Option (List UInt8)) : Option (List UInt8) :=
  part.filter fun bytes => !bytes.isEmpty

def stamped (sent : SentCommand host) : OsdCommand :=
  { sent.command with size := UInt8.ofNat host.sizeOfCommand }

def wire (sent : SentCommand host) : List UInt8 :=
  osdcmdLine ++ (sent.stamped.wire ++ sent.padding.cells ++
    ((carried sent.palette).getD [] ++ (carried sent.data).getD []))

end SentCommand

theorem carried_part {part : Option (List UInt8)} {count : Nat} {null empty : Bool}
    (nullPart : null = part.isNone)
    (sized : ∀ bytes, part = some bytes → bytes.length = count ∧ empty = decide (count = 0)) :
    (if !null && !empty then [(part.getD []).take count] else []).flatten =
      (SentCommand.carried part).getD [] := by
  subst nullPart
  cases part with
  | none => rfl
  | some bytes =>
      obtain ⟨rfl, rfl⟩ := sized bytes rfl
      cases bytes with
      | nil => rfl
      | cons byte bytes => simp [SentCommand.carried, Option.filter]

theorem htonl_beq_zero (host : Host) (value : UInt32) :
    (host.htonl value == 0) = decide (value.toNat = 0) := by
  rw [Bool.eq_iff_iff, beq_iff_eq, host.htonl_eq_zero, decide_eq_true_iff, ← UInt32.toNat_inj]
  rfl

theorem written_wire {host : Host} {sent : SentCommand host} {socket : SocketAnswers}
    (success : (sendOsdCommand sent socket).1 = 1) : (sendOsdCommand sent socket).2 = sent.wire := by
  have palette : ∀ bytes, sent.palette = some bytes →
      bytes.length = host.clutBytes (host.htonl sent.command.colors) ∧
        (host.htonl sent.command.colors == 0) =
          decide (host.clutBytes (host.htonl sent.command.colors) = 0) := by
    intro bytes present
    have fits := sent.paletteFits (by rw [present]; rfl)
    rw [htonl_beq_zero, Host.clutBytes, Host.sizeProduct, host.ntohl_htonl, Nat.mod_eq_of_lt fits]
    exact ⟨sent.paletteSized bytes present, decide_eq_decide.mpr (by omega)⟩
  have data : ∀ bytes, sent.data = some bytes →
      bytes.length = (host.ntohl (host.htonl sent.command.datalen)).toNat ∧
        (host.htonl sent.command.datalen == 0) =
          decide ((host.ntohl (host.htonl sent.command.datalen)).toNat = 0) := by
    intro bytes present
    rw [htonl_beq_zero, host.ntohl_htonl]
    exact ⟨sent.dataSized bytes present, rfl⟩
  unfold sendOsdCommand writeOsdCommand at success ⊢
  by_cases ready : socket.ready = false
  · rw [if_pos ready] at success
    exact absurd success (by decide)
  · rw [if_neg ready] at success ⊢
    split at success
    · exact absurd success (by decide)
    · rename_i room
      rw [if_neg room, write_parts_success success]
      unfold osdParts
      rw [hton_image, List.flatten_append, List.flatten_append, SentCommand.wire,
        ← carried_part sent.paletteNull palette, ← carried_part sent.dataNull data]
      simp only [List.flatten_cons, List.flatten_nil, List.append_nil, List.append_assoc]
      rfl

end Xineliboutput.Osd
