import Mathlib

/-!
# Cyclic redundancy checks

The remainder of a division of bit strings, bit by bit with the highest bit first, for any
polynomial of degree 32. An octet may be divided at once: its remainder with the highest
octet of the register does not depend on the rest of the register.
-/

namespace Xineliboutput.Foundation

set_option autoImplicit false

variable (polynomial : BitVec 32)

def crcShift (crc : BitVec 32) : BitVec 32 :=
  (crc <<< 1) ^^^ (if crc.msb then polynomial else 0)

def crcShifts : Nat → BitVec 32 → BitVec 32
  | 0, crc => crc
  | bits + 1, crc => crcShifts bits (crcShift polynomial crc)

def crcOctet (crc : BitVec 32) (octet : BitVec 8) : BitVec 32 :=
  crcShifts polynomial 8 (crc ^^^ (octet.setWidth 32 <<< 24))

def crc32 (crc : BitVec 32) (data : List UInt8) : BitVec 32 :=
  data.foldl (fun crc octet => crcOctet polynomial crc octet.toBitVec) crc

variable {polynomial}

theorem crc_shift_xor (first second : BitVec 32) :
    crcShift polynomial (first ^^^ second) =
      crcShift polynomial first ^^^ crcShift polynomial second := by
  have twice : polynomial ^^^ polynomial = 0 := BitVec.xor_self
  unfold crcShift
  rw [BitVec.msb_xor, BitVec.shiftLeft_xor_distrib]
  cases first.msb with
  | false => simp [BitVec.xor_assoc]
  | true =>
      cases second.msb with
      | false => simp [BitVec.xor_assoc, BitVec.xor_comm polynomial]
      | true =>
          have swap : (first <<< 1) ^^^ polynomial ^^^ ((second <<< 1) ^^^ polynomial) =
              (first <<< 1) ^^^ (second <<< 1) ^^^ (polynomial ^^^ polynomial) := by
            ac_rfl
          simpa [twice] using swap.symm

theorem crc_shifts_xor (bits : Nat) (first second : BitVec 32) :
    crcShifts polynomial bits (first ^^^ second) =
      crcShifts polynomial bits first ^^^ crcShifts polynomial bits second := by
  induction bits generalizing first second with
  | zero => rfl
  | succ bits ih =>
      rw [crcShifts, crc_shift_xor, ih]
      rfl

theorem crc_shifts_low (bits : Nat) (crc : BitVec 32) (low : crc.toNat * 2 ^ bits < 2 ^ 32) :
    crcShifts polynomial bits crc = crc <<< bits := by
  induction bits generalizing crc with
  | zero => rw [BitVec.shiftLeft_zero, crcShifts]
  | succ bits ih =>
      rw [Nat.pow_succ] at low
      have positive : 1 ≤ 2 ^ bits := Nat.one_le_two_pow
      have twice : crc.toNat * 2 < 2 ^ 32 := by
        calc crc.toNat * 2 ≤ crc.toNat * (2 ^ bits * 2) :=
              Nat.mul_le_mul_left _ (Nat.le_mul_of_pos_left 2 positive)
          _ < 2 ^ 32 := low
      have clear : crc.msb = false := by
        rw [BitVec.msb_eq_decide, decide_eq_false_iff_not]
        omega
      have shifted : crcShift polynomial crc = crc <<< 1 := by
        rw [crcShift, clear]
        exact BitVec.xor_zero
      have value : (crc <<< 1).toNat = crc.toNat * 2 := by
        rw [BitVec.toNat_shiftLeft, Nat.shiftLeft_eq, Nat.mod_eq_of_lt (by omega)]
      rw [crcShifts, shifted, ih _ (by rw [value, Nat.mul_assoc, Nat.mul_comm 2]; exact low),
        ← BitVec.shiftLeft_add, Nat.add_comm]

theorem split_high (crc : BitVec 32) : crc = ((crc >>> 24) <<< 24) ^^^ ((crc <<< 8) >>> 8) := by
  apply BitVec.eq_of_getLsbD_eq
  intro i within
  simp only [BitVec.getLsbD_xor, BitVec.getLsbD_shiftLeft, BitVec.getLsbD_ushiftRight]
  by_cases high : 24 ≤ i
  · simp [within, show ¬i < 24 by omega, show ¬8 + i < 32 by omega,
      show 24 + (i - 24) = i by omega]
  · simp [within, show i < 24 by omega, show 8 + i < 32 by omega]

theorem xor_right_comm (first second third : BitVec 32) :
    first ^^^ second ^^^ third = first ^^^ third ^^^ second := by
  rw [BitVec.xor_assoc, BitVec.xor_comm second, BitVec.xor_assoc]

theorem crc_octet_eq (crc : BitVec 32) (octet : BitVec 8) :
    crcOctet polynomial crc octet =
      (crc <<< 8) ^^^
        crcShifts polynomial 8 (((crc >>> 24) ^^^ octet.setWidth 32) <<< 24) := by
  have low : ((crc <<< 8) >>> 8).toNat * 2 ^ 8 < 2 ^ 32 := by
    have bounded := (crc <<< 8).isLt
    rw [BitVec.toNat_ushiftRight, Nat.shiftRight_eq_div_pow]
    omega
  have back : ((crc <<< 8) >>> 8) <<< 8 = crc <<< 8 := by
    apply BitVec.eq_of_getLsbD_eq
    intro i within
    simp only [BitVec.getLsbD_shiftLeft, BitVec.getLsbD_ushiftRight]
    by_cases high : 8 ≤ i
    · simp [within, show ¬i < 8 by omega, show 8 + (i - 8) = i by omega]
    · simp [within, show i < 8 by omega]
  have regrouped : crc ^^^ (octet.setWidth 32 <<< 24) =
      (((crc >>> 24) ^^^ octet.setWidth 32) <<< 24) ^^^ ((crc <<< 8) >>> 8) := by
    rw [BitVec.shiftLeft_xor_distrib]
    calc crc ^^^ (octet.setWidth 32 <<< 24)
        = ((crc >>> 24) <<< 24) ^^^ ((crc <<< 8) >>> 8) ^^^ (octet.setWidth 32 <<< 24) :=
          congrArg (· ^^^ (octet.setWidth 32 <<< 24)) (split_high crc)
      _ = _ := xor_right_comm _ _ _
  rw [crcOctet, regrouped, crc_shifts_xor, crc_shifts_low 8 _ low, back, BitVec.xor_comm]

end Xineliboutput.Foundation
