import Mathlib.Algebra.Ring.Int.Defs
import Xineliboutput.Ts.PesStrip
import Xineliboutput.Ts.TsPacket

/-!
# Changing the timestamp of a PES packet

`pes_change_pts` of `tools/pes.c` writes the 33 bits of a timestamp into the five bytes that
`pes_get_pts` reads it from, around a prefix and three marker bits.
-/

namespace Xineliboutput.Ts

open Xineliboutput.Foundation

set_option autoImplicit false

/-- The lowest byte of a shifted `int64_t`. -/
def lowByte (value : Int) : UInt8 := .ofNat (value % 256).toNat

/-- The assignments to `buf[9]` up to `buf[13]`. -/
def changeTimestamp (newPts : Int) (buf : List UInt8) : List UInt8 :=
  let buf := buf.set 9 (lowByte (newPts / 2 ^ 29) &&& 0x0e ||| byteAt buf 9 &&& 0xf1)
  let buf := buf.set 10 (lowByte (newPts / 2 ^ 22))
  let buf := buf.set 11 (lowByte (newPts / 2 ^ 14) &&& 0xfe ||| byteAt buf 11 &&& 0x01)
  let buf := buf.set 12 (lowByte (newPts / 2 ^ 7))
  buf.set 13 (lowByte (newPts * 2) &&& 0xfe ||| byteAt buf 13 &&& 0x01)

/-- `pes_change_pts`; `none` is an access outside of the buffer. -/
def pesChangePts (len : Nat) (newPts : Int) (buf : List UInt8) : Option (List UInt8) := do
  let streamId ← buf[3]?
  if isVideoPacket streamId ∨ isAudioPacket streamId then do
    let marker ← buf[6]?
    if marker &&& 0xc0 ≠ 0x80 then some buf
    else if marker &&& 0x30 ≠ 0 then some buf
    else if 13 < len then do
      let flags ← buf[7]?
      if flags &&& 0x80 ≠ 0 then
        if 13 < buf.length then some (changeTimestamp newPts buf) else none
      else some buf
    else some buf
  else some buf

/-! ## Bits -/

theorem masked_part (first second : UInt8) {mask other : UInt8} (apart : mask &&& other = 0) :
    (first &&& mask ||| second &&& other) &&& mask = first &&& mask := by
  apply UInt8.toBitVec_inj.mp
  apply BitVec.eq_of_getLsbD_eq
  intro place inside
  have bit : (mask.toBitVec.getLsbD place && other.toBitVec.getLsbD place) = false := by
    rw [← BitVec.getLsbD_and, ← UInt8.toBitVec_and, apart]
    exact BitVec.getLsbD_zero
  simp only [UInt8.toBitVec_and, UInt8.toBitVec_or, BitVec.getLsbD_and, BitVec.getLsbD_or]
  revert bit
  cases first.toBitVec.getLsbD place <;> cases second.toBitVec.getLsbD place <;>
    cases mask.toBitVec.getLsbD place <;> cases other.toBitVec.getLsbD place <;> decide

theorem masked_other_part (first second : UInt8) {mask other : UInt8} (apart : mask &&& other = 0) :
    (first &&& mask ||| second &&& other) &&& other = second &&& other := by
  rw [UInt8.or_comm]
  apply masked_part
  rw [UInt8.and_comm]
  exact apart

theorem and_0e_value (byte : UInt8) : (byte &&& 0x0e).toNat = byte.toNat % 16 / 2 * 2 := by
  have masks : ∀ value < 256, value &&& 14 = value % 16 / 2 * 2 := by decide +kernel
  rw [UInt8.toNat_and]
  exact masks byte.toNat byte.toNat_lt

theorem and_fe_value (byte : UInt8) : (byte &&& 0xfe).toNat = byte.toNat / 2 * 2 := by
  have masks : ∀ value < 256, value &&& 254 = value / 2 * 2 := by decide +kernel
  rw [UInt8.toNat_and]
  exact masks byte.toNat byte.toNat_lt

theorem low_byte_value (value : Int) : ((lowByte value).toNat : Int) = value % 256 := by
  unfold lowByte
  rw [UInt8.toNat_ofNat']
  omega

theorem spelled_timestamp (newPts : Int) :
    (((lowByte (newPts / 2 ^ 29) &&& 0x0e).toNat * 536870912 +
        (lowByte (newPts / 2 ^ 22)).toNat * 4194304 +
        (lowByte (newPts / 2 ^ 14) &&& 0xfe).toNat * 16384 +
        (lowByte (newPts / 2 ^ 7)).toNat * 128 +
        (lowByte (newPts * 2) &&& 0xfe).toNat / 2 : Nat) : Int) = newPts % 2 ^ 33 := by
  have first := low_byte_value (newPts / 2 ^ 29)
  have second := low_byte_value (newPts / 2 ^ 22)
  have third := low_byte_value (newPts / 2 ^ 14)
  have fourth := low_byte_value (newPts / 2 ^ 7)
  have fifth := low_byte_value (newPts * 2)
  rw [and_0e_value, and_fe_value, and_fe_value]
  omega

/-! ## The buffer -/

variable {buf : List UInt8} {newPts : Int}

theorem change_timestamp_length (newPts : Int) (buf : List UInt8) :
    (changeTimestamp newPts buf).length = buf.length := by
  simp [changeTimestamp]

theorem change_timestamp_outside {index : Nat} (outside : index < 9 ∨ 13 < index) :
    (changeTimestamp newPts buf)[index]? = buf[index]? := by
  unfold changeTimestamp
  dsimp only
  rw [List.getElem?_set_ne (by omega), List.getElem?_set_ne (by omega),
    List.getElem?_set_ne (by omega), List.getElem?_set_ne (by omega),
    List.getElem?_set_ne (by omega)]

structure Carries (newPts : Int) (buf changed : List UInt8) : Prop where
  first : changed[9]? = some (lowByte (newPts / 2 ^ 29) &&& 0x0e ||| byteAt buf 9 &&& 0xf1)
  second : changed[10]? = some (lowByte (newPts / 2 ^ 22))
  third : changed[11]? = some (lowByte (newPts / 2 ^ 14) &&& 0xfe ||| byteAt buf 11 &&& 0x01)
  fourth : changed[12]? = some (lowByte (newPts / 2 ^ 7))
  fifth : changed[13]? = some (lowByte (newPts * 2) &&& 0xfe ||| byteAt buf 13 &&& 0x01)

theorem change_timestamp_carries (long : 13 < buf.length) :
    Carries newPts buf (changeTimestamp newPts buf) := by
  constructor <;>
    simp [changeTimestamp, byteAt, long, show 9 < buf.length by omega,
      show 10 < buf.length by omega, show 11 < buf.length by omega, show 12 < buf.length by omega]

theorem Carries.parse {changed : List UInt8} (carries : Carries newPts buf changed) :
    (parseTimestamp 9).run (Memory.ofList changed) = some (newPts % 2 ^ 33) := by
  have spelled := spelled_timestamp newPts
  rw [← masked_part (lowByte (newPts / 2 ^ 29)) (byteAt buf 9) (by decide : (0x0e : UInt8) &&& 0xf1 = 0),
    ← masked_part (lowByte (newPts / 2 ^ 14)) (byteAt buf 11) (by decide : (0xfe : UInt8) &&& 0x01 = 0),
    ← masked_part (lowByte (newPts * 2)) (byteAt buf 13) (by decide : (0xfe : UInt8) &&& 0x01 = 0)]
    at spelled
  unfold parseTimestamp
  simp only [Scan.run_bind, Scan.run_fetch, Memory.ofList, carries.first, carries.second,
    carries.third, carries.fourth, carries.fifth, Option.bind_some, Scan.run_pure]
  rw [spelled]

/-- The packet has a timestamp as `pes_get_pts` sees it: it reads one, or it does not. -/
theorem get_pts_cases {len : Nat} {pts : Int}
    (found : (pesGetPts len).run (Memory.ofList buf) = some pts) :
    (pts = noPts ∧ ∀ newPts, pesChangePts len newPts buf = some buf) ∨
      (parseTimestamp 9).run (Memory.ofList buf) = some pts ∧
        (∀ newPts, pesChangePts len newPts buf =
          if 13 < buf.length then some (changeTimestamp newPts buf) else none) ∧
        ∀ changed : List UInt8, (∀ index < 9, changed[index]? = buf[index]?) →
          (pesGetPts len).run (Memory.ofList changed) =
            (parseTimestamp 9).run (Memory.ofList changed) := by
  simp only [pesGetPts, timestampAt, pesChangePts, Scan.run_bind, Scan.run_fetch, Scan.run_ite,
    Scan.run_pure, Memory.ofList] at found ⊢
  rcases Option.bind_eq_some_iff.mp found with ⟨streamId, at3, found⟩
  by_cases stream : isVideoPacket streamId = true ∨ isAudioPacket streamId = true
  · rw [if_pos stream] at found
    rcases Option.bind_eq_some_iff.mp found with ⟨marker, at6, found⟩
    by_cases mpeg2 : marker &&& 0xc0 = 0x80
    · by_cases clear : marker &&& 0x30 = 0
      · by_cases long : 13 < len
        · rw [if_neg (not_not.mpr mpeg2), if_neg (not_not.mpr clear), if_pos long] at found
          rcases Option.bind_eq_some_iff.mp found with ⟨flags, at7, found⟩
          by_cases stamped : flags &&& 0x80 = 0
          · rw [if_neg (not_not.mpr stamped)] at found
            apply Or.inl
            apply And.intro (Option.some.inj found).symm
            intro newPts
            simp [at3, at6, at7, stamped]
          · rw [if_pos stamped] at found
            apply Or.inr
            refine ⟨found, ?_, ?_⟩
            · intro newPts
              simp [at3, at6, at7, stream, mpeg2, clear, long, stamped]
            · intro changed same
              rw [same 3 (by decide), same 6 (by decide), same 7 (by decide)]
              simp [at3, at6, at7, stream, mpeg2, clear, long, stamped]
        · rw [if_neg (not_not.mpr mpeg2), if_neg (not_not.mpr clear), if_neg long] at found
          apply Or.inl
          apply And.intro (Option.some.inj found).symm
          intro newPts
          simp [at3, at6, long]
      · rw [if_neg (not_not.mpr mpeg2), if_pos clear] at found
        apply Or.inl
        apply And.intro (Option.some.inj found).symm
        intro newPts
        simp [at3, at6, clear]
    · rw [if_pos mpeg2] at found
      apply Or.inl
      apply And.intro (Option.some.inj found).symm
      intro newPts
      simp [at3, at6, mpeg2]
  · rw [if_neg stream] at found
    apply Or.inl
    apply And.intro (Option.some.inj found).symm
    intro newPts
    simp [at3, stream]

theorem parse_timestamp_natural {pts : Int}
    (found : (parseTimestamp 9).run (Memory.ofList buf) = some pts) :
    0 ≤ pts ∧ 13 < buf.length := by
  simp only [parseTimestamp, Scan.run_bind, Scan.run_fetch, Scan.run_pure] at found
  rcases Option.bind_eq_some_iff.mp found with ⟨first, -, found⟩
  rcases Option.bind_eq_some_iff.mp found with ⟨second, -, found⟩
  rcases Option.bind_eq_some_iff.mp found with ⟨third, -, found⟩
  rcases Option.bind_eq_some_iff.mp found with ⟨fourth, -, found⟩
  rcases Option.bind_eq_some_iff.mp found with ⟨fifth, at13, found⟩
  rw [← Option.some.inj found]
  exact ⟨Int.natCast_nonneg _, (List.getElem?_eq_some_iff.mp at13).choose⟩

theorem byte_at_of {index : Nat} {byte : UInt8} (held : buf[index]? = some byte) :
    byteAt buf index = byte := by
  rw [byteAt, List.getD_eq_getElem?_getD, held, Option.getD_some]

/-- The timestamp is the new one, and everything else is as it was. -/
structure PtsChanged (len : Nat) (newPts : Int) (buf changed : List UInt8) : Prop where
  pts : (pesGetPts len).run (Memory.ofList changed) = some (newPts % 2 ^ 33)
  dts : (pesGetDts len).run (Memory.ofList changed) = (pesGetDts len).run (Memory.ofList buf)
  length : changed.length = buf.length
  outside : ∀ index, index < 9 ∨ 13 < index → changed[index]? = buf[index]?
  prefix_marker : byteAt changed 9 &&& 0xf1 = byteAt buf 9 &&& 0xf1
  second_marker : byteAt changed 11 &&& 0x01 = byteAt buf 11 &&& 0x01
  third_marker : byteAt changed 13 &&& 0x01 = byteAt buf 13 &&& 0x01

theorem change_timestamp_dts (len : Nat) :
    (pesGetDts len).run (Memory.ofList (changeTimestamp newPts buf)) =
      (pesGetDts len).run (Memory.ofList buf) := by
  simp only [pesGetDts, timestampAt, parseTimestamp, Scan.run_bind, Scan.run_fetch, Scan.run_ite,
    Memory.ofList, change_timestamp_outside (show 3 < 9 ∨ 13 < 3 by decide),
    change_timestamp_outside (show 6 < 9 ∨ 13 < 6 by decide),
    change_timestamp_outside (show 7 < 9 ∨ 13 < 7 by decide),
    change_timestamp_outside (show 14 < 9 ∨ 13 < 14 by decide),
    change_timestamp_outside (show 14 + 1 < 9 ∨ 13 < 14 + 1 by decide),
    change_timestamp_outside (show 14 + 2 < 9 ∨ 13 < 14 + 2 by decide),
    change_timestamp_outside (show 14 + 3 < 9 ∨ 13 < 14 + 3 by decide),
    change_timestamp_outside (show 14 + 4 < 9 ∨ 13 < 14 + 4 by decide), Scan.run_pure]

/-- A packet with a timestamp gets the new one; a packet without stays as it is. -/
theorem change_pts_rewrites {len : Nat} {pts : Int}
    (found : (pesGetPts len).run (Memory.ofList buf) = some pts) (newPts : Int) :
    ∃ changed, pesChangePts len newPts buf = some changed ∧
      (pts ≠ noPts → PtsChanged len newPts buf changed) ∧ (pts = noPts → changed = buf) := by
  rcases get_pts_cases found with ⟨missing, kept⟩ | ⟨parsed, written, read⟩
  · exact ⟨buf, kept newPts, fun stamped => absurd missing stamped, fun _ => rfl⟩
  · rcases parse_timestamp_natural parsed with ⟨natural, long⟩
    have carries : Carries newPts buf (changeTimestamp newPts buf) := change_timestamp_carries long
    have stamped : pts ≠ noPts := by
      unfold noPts
      omega
    refine ⟨changeTimestamp newPts buf, ?_, fun _ => ?_, fun missing => absurd missing stamped⟩
    · rw [written, if_pos long]
    · constructor
      case pts =>
        rw [read _ fun index front => change_timestamp_outside (.inl front)]
        exact carries.parse
      case dts => exact change_timestamp_dts len
      case length => exact change_timestamp_length newPts buf
      case outside => exact fun index outside => change_timestamp_outside outside
      case prefix_marker =>
        rw [byte_at_of carries.first]
        exact masked_other_part _ _ (by decide)
      case second_marker =>
        rw [byte_at_of carries.third]
        exact masked_other_part _ _ (by decide)
      case third_marker =>
        rw [byte_at_of carries.fifth]
        exact masked_other_part _ _ (by decide)

def stampedPacket : List UInt8 := [0, 0, 1, 0xe0, 0, 8, 0x80, 0x80, 5, 0x21, 0, 1, 0, 1]

theorem change_pts_rewrites_largest :
    ∃ changed, pesChangePts 14 (2 ^ 63 - 1) stampedPacket = some changed ∧
      PtsChanged 14 (2 ^ 63 - 1) stampedPacket changed := by
  rcases change_pts_rewrites (show (pesGetPts 14).run (Memory.ofList stampedPacket) = some 0
    from by decide) (2 ^ 63 - 1) with ⟨changed, performed, stamped, -⟩
  exact ⟨changed, performed, stamped (by decide)⟩

end Xineliboutput.Ts
