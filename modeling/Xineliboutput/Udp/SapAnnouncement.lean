import Mathlib.Tactic.SplitIfs
import Xineliboutput.Foundation.Block
import Xineliboutput.Foundation.ByteOrder
import Xineliboutput.Foundation.Texts

/-!
# Session announcements

`sap_create_pdu` and `sap_send_pdu` of `tools/sap.c`. The length of a PDU is not passed on:
the sender finds it from the strings in the payload, and guesses from a line end in the first
of them that no payload type stands in front.
-/

namespace Xineliboutput.Udp

open Xineliboutput.Foundation

set_option autoImplicit false

/-! ## The program -/

/-- What `sap_send_announce` is called with. A payload type has no line end. -/
structure SapAnnouncement where
  srcIp : UInt32
  msgid : UInt16
  announce : Bool
  payloadType : Option (List UInt8)
  payload : List UInt8
  typePlain : ∀ type, payloadType = some type → (0 : UInt8) ∉ type ∧ ¬[13, 10] <:+: type
  payloadPlain : (0 : UInt8) ∉ payload

/-- `sizeof(sap_pdu_t)` -/
def sapHeaderSize : Nat := 8

structure SapPdu where
  size : Nat
  memory : Block UInt8 size

def SapAnnouncement.raw0 (announcement : SapAnnouncement) : UInt8 :=
  if announcement.announce then 0x20 else 0x24

/-- `length` is an `int`. -/
def SapAnnouncement.length (announcement : SapAnnouncement) : Int :=
  let length := Int.bmod (sapHeaderSize + announcement.payload.length + 3) (2 ^ 32)
  match announcement.payloadType with
  | some type => Int.bmod (length + type.length) (2 ^ 32)
  | none => length

/-- What is written into the memory from `calloc`. -/
def writePdu {size : Nat} (order : ByteOrder) (announcement : SapAnnouncement)
    (memory : Block UInt8 size) : Option (Block UInt8 size) := do
  let memory ← memory.overwrite 0 [announcement.raw0]
  let memory ← memory.overwrite 2 (order.bytes 2 announcement.msgid.toNat)
  let memory ← memory.overwrite 4 (order.bytes 4 announcement.srcIp.toNat)
  match announcement.payloadType with
  | some type =>
      let memory ← memory.overwrite sapHeaderSize (type ++ [0])
      memory.overwrite (sapHeaderSize + (type.length + 1)) (announcement.payload ++ [0])
  | none => memory.overwrite sapHeaderSize (announcement.payload ++ [0, 0, 0])

/-- `calloc` of a negative length fails. -/
def sapCreatePdu (order : ByteOrder) (announcement : SapAnnouncement) : Option SapPdu :=
  if announcement.length < 0 then none
  else
    (writePdu order announcement (Block.filled 0 : Block UInt8 announcement.length.toNat)).map
      fun memory => ⟨_, memory⟩

/-- `htons` and `ntohs` on two bytes of memory. -/
def swapHash (order : ByteOrder) (hash : List UInt8) : List UInt8 :=
  match order with
  | .little => hash.reverse
  | .big => hash

/-- The `len` bytes that are sent. -/
def sapLength (pdu : SapPdu) : Option Nat := do
  let payload := pdu.memory.cells.drop sapHeaderSize
  let first ← stringAt payload
  if strstrFinds first [13, 10] then some first.length
  else do
    let second ← stringAt (payload.drop (first.length + 1))
    some (first.length + 1 + second.length + sapHeaderSize)

/-- The datagram handed to `send`, and the PDU afterwards. -/
def sapSendPdu (order : ByteOrder) (pdu : SapPdu) : Option (List UInt8 × SapPdu) := do
  let len ← sapLength pdu
  let msgidHash ← pdu.memory.slice 2 2
  let memory ← pdu.memory.overwrite 2 (swapHash order msgidHash)
  let datagram ← memory.slice 0 len
  let msgidHash ← memory.slice 2 2
  let memory ← memory.overwrite 2 (swapHash order msgidHash)
  some (datagram, ⟨pdu.size, memory⟩)

/-! ## What is sent -/

namespace SapAnnouncement

variable (announcement : SapAnnouncement) (order : ByteOrder)

def header : List UInt8 :=
  [announcement.raw0, 0] ++ bigEndian 2 announcement.msgid.toNat ++
    order.bytes 4 announcement.srcIp.toNat

def typeField : List UInt8 :=
  match announcement.payloadType with
  | some type => type ++ [0]
  | none => []

def datagram : List UInt8 :=
  announcement.header order ++ announcement.typeField ++ announcement.payload

/-- The PDU is built and sent as a whole, and unchanged afterwards. -/
def SentWhole : Prop :=
  ∃ pdu, sapCreatePdu order announcement = some pdu ∧
    sapSendPdu order pdu = some (announcement.datagram order, pdu)

end SapAnnouncement

/-! ## Building -/

section Building

variable {order : ByteOrder} {announcement : SapAnnouncement} {size : Nat}

theorem length_untyped (untyped : announcement.payloadType = none) :
    announcement.length = Int.bmod (11 + announcement.payload.length : Nat) (2 ^ 32) := by
  unfold SapAnnouncement.length sapHeaderSize
  rw [untyped]
  exact congrArg (fun length => Int.bmod length (2 ^ 32)) (by omega)

theorem length_typed {type : List UInt8} (typed : announcement.payloadType = some type) :
    announcement.length =
      Int.bmod (11 + announcement.payload.length + type.length : Nat) (2 ^ 32) := by
  unfold SapAnnouncement.length sapHeaderSize
  rw [typed]
  dsimp only
  rw [Int.bmod_add_bmod]
  exact congrArg (fun length => Int.bmod length (2 ^ 32)) (by omega)

theorem wrapped_length (total : Nat) :
    (Int.bmod total (2 ^ 32)).toNat ≤ total ∧
      ((Int.bmod total (2 ^ 32)).toNat + 2 ≤ total ∨ total < 2 ^ 31) := by
  rw [Int.bmod_def]
  split_ifs <;> omega

theorem unwrapped_length {total : Nat} (short : total < 2 ^ 31) :
    Int.bmod total (2 ^ 32) = total := by
  rw [Int.bmod_def]
  split_ifs <;> omega

def hostHeader (order : ByteOrder) (announcement : SapAnnouncement) : List UInt8 :=
  [announcement.raw0, 0] ++ order.bytes 2 announcement.msgid.toNat ++
    order.bytes 4 announcement.srcIp.toNat

theorem host_header_length : (hostHeader order announcement).length = 8 := by simp [hostHeader]

theorem behind_header (text : List UInt8) :
    (hostHeader order announcement ++ text).drop sapHeaderSize = text :=
  List.drop_left' host_header_length

theorem header_written (order : ByteOrder) (announcement : SapAnnouncement) (rest : Nat) :
    ∃ first second third : Block UInt8 (rest + 8),
      (Block.filled 0 : Block UInt8 (rest + 8)).overwrite 0 [announcement.raw0] = some first ∧
      first.overwrite 2 (order.bytes 2 announcement.msgid.toNat) = some second ∧
      second.overwrite 4 (order.bytes 4 announcement.srcIp.toNat) = some third ∧
      third.cells = hostHeader order announcement ++ List.replicate rest 0 := by
  have zeros : (Block.filled 0 : Block UInt8 (rest + 8)).cells =
      [] ++ [0] ++ ([0] ++ [0, 0] ++ [0, 0, 0, 0] ++ List.replicate rest 0) := rfl
  obtain ⟨first, written, cells⟩ := Block.overwrite_part zeros
    (by rfl : [announcement.raw0].length = 1)
  have version : first.cells = [announcement.raw0, 0] ++ [0, 0] ++
      ([0, 0, 0, 0] ++ List.replicate rest 0) := cells
  obtain ⟨second, hashed, cells⟩ := Block.overwrite_part version
    (ByteOrder.bytes_length order 2 announcement.msgid.toNat)
  have hash : second.cells = ([announcement.raw0, 0] ++ order.bytes 2 announcement.msgid.toNat) ++
      [0, 0, 0, 0] ++ List.replicate rest 0 := by
    rw [cells]
    simp only [List.append_assoc]
  obtain ⟨third, sourced, cells⟩ := Block.overwrite_part hash
    (ByteOrder.bytes_length order 4 announcement.srcIp.toNat)
  have before : ([announcement.raw0, 0] ++ order.bytes 2 announcement.msgid.toNat).length = 4 := by
    simp
  rw [before] at sourced
  exact ⟨first, second, third, written, hashed, sourced, cells⟩

theorem typed_room {type : List UInt8} (typed : announcement.payloadType = some type)
    {memory after : Block UInt8 size}
    (written : writePdu order announcement memory = some after) :
    10 + announcement.payload.length + type.length ≤ size := by
  unfold writePdu sapHeaderSize at written
  rw [typed] at written
  rcases Option.bind_eq_some_iff.mp written with ⟨first, -, written⟩
  rcases Option.bind_eq_some_iff.mp written with ⟨second, -, written⟩
  rcases Option.bind_eq_some_iff.mp written with ⟨third, -, written⟩
  rcases Option.bind_eq_some_iff.mp written with ⟨fourth, -, written⟩
  have room := (Block.overwrite_is_some _ _ _).mp (Option.isSome_of_eq_some written)
  simp only [List.length_append, List.length_cons, List.length_nil] at room
  omega

theorem untyped_room (untyped : announcement.payloadType = none)
    {memory after : Block UInt8 size}
    (written : writePdu order announcement memory = some after) :
    11 + announcement.payload.length ≤ size := by
  unfold writePdu sapHeaderSize at written
  rw [untyped] at written
  rcases Option.bind_eq_some_iff.mp written with ⟨first, -, written⟩
  rcases Option.bind_eq_some_iff.mp written with ⟨second, -, written⟩
  rcases Option.bind_eq_some_iff.mp written with ⟨third, -, written⟩
  have room := (Block.overwrite_is_some _ _ _).mp (Option.isSome_of_eq_some written)
  simp only [List.length_append, List.length_cons, List.length_nil] at room
  omega

theorem typed_written (order : ByteOrder) {type : List UInt8} (typed : announcement.payloadType = some type)
    (fits : size = 11 + announcement.payload.length + type.length) :
    ∃ memory : Block UInt8 size, writePdu order announcement (Block.filled 0) = some memory ∧
      memory.cells = hostHeader order announcement ++
        (type ++ 0 :: (announcement.payload ++ [0, 0])) := by
  obtain ⟨rest, rfl⟩ : ∃ rest, size = rest + 8 := ⟨size - 8, by omega⟩
  obtain ⟨first, second, third, versioned, hashed, sourced, cells⟩ :=
    header_written order announcement rest
  have typeLength : (type ++ [(0 : UInt8)]).length = type.length + 1 := List.length_append
  have textLength : (announcement.payload ++ [(0 : UInt8)]).length =
      announcement.payload.length + 1 := List.length_append
  obtain ⟨fourth, named, cells⟩ := Block.overwrite_rest cells
    (by omega : (type ++ [0]).length ≤ rest)
  obtain ⟨fifth, filled, cells⟩ := Block.overwrite_rest cells
    (by omega : (announcement.payload ++ [0]).length ≤ rest - (type ++ [0]).length)
  rw [host_header_length] at named
  rw [List.length_append, host_header_length, typeLength] at filled
  have last : rest - (type ++ [0]).length - (announcement.payload ++ [0]).length = 1 := by omega
  refine ⟨fifth, ?_, ?_⟩
  · simp only [writePdu, sapHeaderSize, typed, Option.bind_eq_bind, versioned, hashed, sourced,
      named, filled, Option.bind_some]
  · rw [cells, last]
    simp

theorem untyped_written (order : ByteOrder) (untyped : announcement.payloadType = none)
    (fits : size = 11 + announcement.payload.length) :
    ∃ memory : Block UInt8 size, writePdu order announcement (Block.filled 0) = some memory ∧
      memory.cells = hostHeader order announcement ++ (announcement.payload ++ [0, 0, 0]) := by
  obtain ⟨rest, rfl⟩ : ∃ rest, size = rest + 8 := ⟨size - 8, by omega⟩
  obtain ⟨first, second, third, versioned, hashed, sourced, cells⟩ :=
    header_written order announcement rest
  have textLength : (announcement.payload ++ [(0 : UInt8), 0, 0]).length =
      announcement.payload.length + 3 := List.length_append
  obtain ⟨fourth, filled, cells⟩ := Block.overwrite_rest cells
    (by omega : (announcement.payload ++ [0, 0, 0]).length ≤ rest)
  rw [host_header_length] at filled
  have last : rest - (announcement.payload ++ [0, 0, 0]).length = 0 := by omega
  refine ⟨fourth, ?_, ?_⟩
  · simp only [writePdu, sapHeaderSize, untyped, Option.bind_eq_bind, versioned, hashed, sourced,
      filled, Option.bind_some]
  · rw [cells, last]
    simp

end Building

/-! ## Sending -/

section Sending

variable {order : ByteOrder} {announcement : SapAnnouncement} {pdu : SapPdu}

theorem swap_hash_bytes (order : ByteOrder) (msgid : Nat) :
    swapHash order (order.bytes 2 msgid) = bigEndian 2 msgid := by
  cases order <;> rfl

theorem swap_hash_back (order : ByteOrder) (msgid : Nat) :
    swapHash order (bigEndian 2 msgid) = order.bytes 2 msgid := by
  cases order with
  | little => exact List.reverse_reverse _
  | big => rfl

theorem header_length : (announcement.header order).length = 8 := by
  simp [SapAnnouncement.header]

theorem sent_length {datagram : List UInt8} {after : SapPdu}
    (sent : sapSendPdu order pdu = some (datagram, after)) :
    sapLength pdu = some datagram.length := by
  unfold sapSendPdu at sent
  rcases Option.bind_eq_some_iff.mp sent with ⟨len, found, sent⟩
  rcases Option.bind_eq_some_iff.mp sent with ⟨hash, -, sent⟩
  rcases Option.bind_eq_some_iff.mp sent with ⟨memory, -, sent⟩
  rcases Option.bind_eq_some_iff.mp sent with ⟨slice, taken, sent⟩
  rcases Option.bind_eq_some_iff.mp sent with ⟨hash, -, sent⟩
  rcases Option.bind_eq_some_iff.mp sent with ⟨restored, -, sent⟩
  cases sent
  unfold Block.slice at taken
  split_ifs at taken with room
  cases taken
  rw [found, List.length_take, List.length_drop, memory.sized]
  congr 1
  omega

/-- The header and a part of what follows it is sent, and the PDU is as it was. -/
theorem sends_front (pdu : SapPdu) {front behind : List UInt8}
    (cells : pdu.memory.cells = hostHeader order announcement ++ (front ++ behind))
    (found : sapLength pdu = some (8 + front.length)) :
    sapSendPdu order pdu = some (announcement.header order ++ front, pdu) := by
  obtain ⟨size, memory⟩ := pdu
  dsimp only at cells
  have parts : memory.cells = [announcement.raw0, 0] ++ order.bytes 2 announcement.msgid.toNat ++
      (order.bytes 4 announcement.srcIp.toNat ++ (front ++ behind)) := by
    rw [cells, hostHeader]
    simp only [List.append_assoc]
  have hash := Block.slice_part parts
  obtain ⟨swapped, written, sentCells⟩ := Block.overwrite_part parts
    (by simp : (bigEndian 2 announcement.msgid.toNat).length = _)
  have wire : swapped.cells = [] ++ (announcement.header order ++ front) ++ behind := by
    rw [sentCells, SapAnnouncement.header]
    simp only [List.append_assoc, List.nil_append]
  have datagram := Block.slice_part wire
  have sentHash := Block.slice_part sentCells
  obtain ⟨restored, back, restoredCells⟩ := Block.overwrite_part sentCells
    (by simp : (order.bytes 2 announcement.msgid.toNat).length = _)
  have same : restored = memory := Block.ext_cells (restoredCells.trans parts.symm)
  have total : (announcement.header order ++ front).length = 8 + front.length := by
    rw [List.length_append, header_length]
  rw [ByteOrder.bytes_length] at hash
  rw [big_endian_length] at sentHash
  rw [total] at datagram
  change memory.slice 2 2 = _ at hash
  change memory.overwrite 2 _ = _ at written
  change swapped.slice 2 2 = _ at sentHash
  change swapped.slice 0 _ = _ at datagram
  change swapped.overwrite 2 _ = _ at back
  unfold sapSendPdu
  simp only [found, Option.bind_eq_bind, Option.bind_some, hash, swap_hash_bytes, written,
    datagram, sentHash, swap_hash_back, back, same]

theorem typed_length (pdu : SapPdu) {type : List UInt8} (typed : announcement.payloadType = some type)
    (cells : pdu.memory.cells = hostHeader order announcement ++
      (type ++ 0 :: (announcement.payload ++ [0, 0]))) :
    sapLength pdu = some (8 + (type ++ 0 :: announcement.payload).length) := by
  obtain ⟨typePlain, unbroken⟩ := announcement.typePlain type typed
  have payload : pdu.memory.cells.drop sapHeaderSize =
      type ++ 0 :: (announcement.payload ++ [0, 0]) := by
    rw [cells, behind_header]
  have second : (type ++ 0 :: (announcement.payload ++ [0, 0])).drop (type.length + 1) =
      announcement.payload ++ 0 :: [0] := by
    rw [← List.drop_drop, List.drop_left]
    rfl
  unfold sapLength
  simp only [payload, Option.bind_eq_bind, string_at_terminated typePlain, Option.bind_some,
    strstrFinds, unbroken, decide_false, Bool.false_eq_true, if_false, second,
    string_at_terminated announcement.payloadPlain]
  congr 1
  simp only [List.length_append, List.length_cons, sapHeaderSize]
  omega

/-- Without a payload type, the header is left out or a NUL is sent with the payload. -/
theorem untyped_length (pdu : SapPdu)
    (cells : pdu.memory.cells =
      hostHeader order announcement ++ (announcement.payload ++ [0, 0, 0])) :
    sapLength pdu ≠ some (8 + announcement.payload.length) := by
  have payload : pdu.memory.cells.drop sapHeaderSize = announcement.payload ++ 0 :: [0, 0] := by
    rw [cells, behind_header]
  have second : (announcement.payload ++ 0 :: [(0 : UInt8), 0]).drop
      (announcement.payload.length + 1) = [0, 0] := by
    rw [← List.drop_drop, List.drop_left]
    rfl
  unfold sapLength
  simp only [payload, Option.bind_eq_bind, string_at_terminated announcement.payloadPlain,
    Option.bind_some, second, stringAt, if_true, List.length_nil]
  intro same
  split_ifs at same <;> rw [Option.some.injEq] at same <;> unfold sapHeaderSize at * <;> omega

end Sending

/-! ## The announcement -/

section Announcement

variable (order : ByteOrder) {announcement : SapAnnouncement}

theorem create_cases {pdu : SapPdu} (created : sapCreatePdu order announcement = some pdu) :
    ∃ memory : Block UInt8 announcement.length.toNat,
      writePdu order announcement (Block.filled 0) = some memory ∧ pdu = ⟨_, memory⟩ := by
  unfold sapCreatePdu at created
  split_ifs at created
  obtain ⟨memory, written, same⟩ := Option.map_eq_some_iff.mp created
  exact ⟨memory, written, same.symm⟩

theorem untyped_not_whole (untyped : announcement.payloadType = none) :
    ¬announcement.SentWhole order := by
  rintro ⟨pdu, created, sent⟩
  obtain ⟨memory, written, rfl⟩ := create_cases order created
  have room := untyped_room untyped written
  have size := (wrapped_length (11 + announcement.payload.length)).1
  rw [← length_untyped untyped] at size
  obtain ⟨other, same, cells⟩ := untyped_written order untyped (Nat.le_antisymm size room)
  rw [written] at same
  cases same
  apply untyped_length ⟨_, memory⟩ cells
  have length : (announcement.datagram order).length = 8 + announcement.payload.length := by
    rw [SapAnnouncement.datagram, SapAnnouncement.typeField, untyped, List.append_nil,
      List.length_append, header_length]
  rw [← length]
  exact sent_length sent

/-- An announcement is sent as a whole if and only if it has a payload type and its PDU is
shorter than 2^31 bytes. -/
theorem announcement_sent_iff (announcement : SapAnnouncement) :
    announcement.SentWhole order ↔
      ∃ type, announcement.payloadType = some type ∧
        11 + announcement.payload.length + type.length < 2 ^ 31 := by
  constructor
  · intro whole
    cases typed : announcement.payloadType with
    | none => exact absurd whole (untyped_not_whole order typed)
    | some type =>
        obtain ⟨pdu, created, -⟩ := whole
        obtain ⟨memory, written, -⟩ := create_cases order created
        have room := typed_room typed written
        have size := wrapped_length (11 + announcement.payload.length + type.length)
        rw [← length_typed typed] at size
        exact ⟨type, rfl, by omega⟩
  · rintro ⟨type, typed, short⟩
    have length : announcement.length = (11 + announcement.payload.length + type.length : Nat) := by
      rw [length_typed typed, unwrapped_length short]
    obtain ⟨memory, written, cells⟩ := typed_written order typed
      (by rw [length]; rfl : announcement.length.toNat = _)
    have created : sapCreatePdu order announcement = some ⟨_, memory⟩ := by
      rw [sapCreatePdu, if_neg (by omega), written]
      rfl
    have split : hostHeader order announcement ++ (type ++ 0 :: (announcement.payload ++ [0, 0])) =
        hostHeader order announcement ++ ((type ++ 0 :: announcement.payload) ++ [0, 0]) := by
      simp only [List.append_assoc, List.cons_append]
    have datagram : announcement.datagram order =
        announcement.header order ++ (type ++ 0 :: announcement.payload) := by
      rw [SapAnnouncement.datagram, SapAnnouncement.typeField, typed]
      simp only [List.append_assoc, List.singleton_append]
    refine ⟨_, created, ?_⟩
    rw [datagram]
    exact sends_front _ (cells.trans split) (typed_length ⟨_, memory⟩ typed cells)

/-- A session description without a payload type is not sent as a whole. -/
theorem untyped_cut : ¬∀ (order : ByteOrder) (announcement : SapAnnouncement),
    announcement.SentWhole order := by
  intro claimed
  let announcement : SapAnnouncement := {
    srcIp := 0
    msgid := 1
    announce := true
    payloadType := none
    payload := [118, 61, 48, 13, 10]
    typePlain := nofun
    payloadPlain := by decide }
  exact untyped_not_whole .little (rfl : announcement.payloadType = none)
    (claimed .little announcement)

end Announcement

end Xineliboutput.Udp
