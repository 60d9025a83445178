import Mathlib.Data.List.OfFn
import Mathlib.Tactic.SplitIfs
import Xineliboutput.Foundation.ByteOrder

/-!
# Words of packed bytes

A word is the bytes it has in the memory of a little-endian machine, the lowest first. Bit
operations work on each byte for itself; the sum of two words carries from a byte to the next.
The operations of MMX and SSE that look at wider lanes are those of the processor: signed words
are packed with saturation, and single precision numbers are compared as IEEE 754 has it.
-/

namespace Xineliboutput.Foundation

set_option autoImplicit false

abbrev Word (width : Nat) := Fin width → UInt8

namespace Word

variable {width : Nat}

def fill (byte : UInt8) : Word width := fun _ => byte

def value (word : Word width) : Nat := littleEndianValue (List.ofFn word)

def or (first second : Word width) : Word width := fun i => first i ||| second i

def and (first second : Word width) : Word width := fun i => first i &&& second i

def xor (first second : Word width) : Word width := fun i => first i ^^^ second i

/-- `paddb`: a sum for each byte. -/
def addBytes (first second : Word width) : Word width := fun i => first i + second i

def add (first second : Word width) : Word width :=
  fun i => UInt8.ofNat ((first.value + second.value) / 256 ^ i.val)

/-- `!word` -/
def isZero (word : Word width) : Bool := decide (word.value = 0)

/-! ## Bits -/

theorem is_zero_iff (word : Word width) : word.isZero = true ↔ ∀ i, word i = 0 := by
  unfold isZero value
  rw [decide_eq_true_iff, little_endian_value_eq_zero, List.forall_mem_ofFn_iff]

theorem byte_or_and_eq_zero (first second mask : UInt8) :
    (first ||| second) &&& mask = 0 ↔ first &&& mask = 0 ∧ second &&& mask = 0 := by
  rw [← UInt8.toBitVec_inj, UInt8.toBitVec_and, UInt8.toBitVec_or, BitVec.and_or_distrib_right,
    ← UInt8.toBitVec_and, ← UInt8.toBitVec_and, ← UInt8.toBitVec_or, UInt8.toBitVec_inj,
    UInt8.or_eq_zero_iff]

def Clear (mask word : Word width) : Prop := ∀ i, word i &&& mask i = 0

theorem clear_zero (mask : Word width) : Clear mask (fill 0) := fun _ => UInt8.zero_and

theorem clear_or (mask first second : Word width) :
    Clear mask (first.or second) ↔ Clear mask first ∧ Clear mask second := by
  simp only [Clear, or, byte_or_and_eq_zero, forall_and]

theorem masked_is_zero (mask word : Word width) :
    (word.and mask).isZero = true ↔ Clear mask word :=
  is_zero_iff (word.and mask)

/-! ## Sums -/

theorem little_endian_of_fn (width value : Nat) :
    littleEndian width value = List.ofFn fun i : Fin width => UInt8.ofNat (value / 256 ^ i.val) := by
  induction width generalizing value with
  | zero => rfl
  | succ width ih =>
      rw [littleEndian, ih, List.ofFn_succ]
      simp only [Fin.val_zero, Nat.pow_zero, Nat.div_one, Fin.val_succ, Nat.pow_succ',
        Nat.div_div_eq_div_mul]

/-- A byte that passes a test has not carried, so the next one is tested as if it stood alone. -/
theorem little_endian_sum_test {test : UInt8 → Prop} {first second : List UInt8}
    (same : first.length = second.length)
    (quiet : ∀ pair ∈ first.zip second, test (pair.1 + pair.2) →
      pair.1.toNat + pair.2.toNat < 256) :
    (∀ byte ∈ littleEndian first.length (littleEndianValue first + littleEndianValue second),
        test byte) ↔
      ∀ pair ∈ first.zip second, test (pair.1 + pair.2) := by
  induction first generalizing second with
  | nil => simp [littleEndian]
  | cons byte first ih =>
      cases second with
      | nil => simp at same
      | cons other second =>
          rw [List.zip_cons_cons, List.forall_mem_cons] at quiet ⊢
          have sum : littleEndianValue (byte :: first) + littleEndianValue (other :: second) =
              byte.toNat + other.toNat +
                256 * (littleEndianValue first + littleEndianValue second) := by
            rw [littleEndianValue, littleEndianValue]
            omega
          have head : UInt8.ofNat (byte.toNat + other.toNat +
              256 * (littleEndianValue first + littleEndianValue second)) = byte + other := by
            apply UInt8.toNat_inj.mp
            rw [UInt8.toNat_ofNat', UInt8.toNat_add]
            omega
          rw [sum, List.length_cons, littleEndian, List.forall_mem_cons, head]
          apply and_congr_right
          intro passes
          have small : byte.toNat + other.toNat < 256 := quiet.1 passes
          have rest : (byte.toNat + other.toNat +
              256 * (littleEndianValue first + littleEndianValue second)) / 256 =
              littleEndianValue first + littleEndianValue second := by
            omega
          rw [rest]
          exact ih (Nat.succ.inj same) quiet.2

theorem add_test {test : UInt8 → Prop} {first second : Word width}
    (quiet : ∀ i, test (first i + second i) → (first i).toNat + (second i).toNat < 256) :
    (∀ i, test (first.add second i)) ↔ ∀ i, test (first.addBytes second i) := by
  have pairs : (List.ofFn first).zip (List.ofFn second) =
      List.ofFn fun i => (first i, second i) := by
    apply List.ext_getElem <;> simp
  have sum := @little_endian_sum_test test (List.ofFn first) (List.ofFn second)
    (by rw [List.length_ofFn, List.length_ofFn])
    (by rw [pairs, List.forall_mem_ofFn_iff]; exact quiet)
  rw [pairs, List.forall_mem_ofFn_iff, List.length_ofFn, little_endian_of_fn,
    List.forall_mem_ofFn_iff] at sum
  exact sum

/-! ## Packing -/

def signedWord (word : Word 8) (j : Fin 4) : Int :=
  Int.bmod (littleEndianValue [word ⟨2 * j, by omega⟩, word ⟨2 * j + 1, by omega⟩]) (2 ^ 16)

/-- `packsswb` -/
def packSigned (first second : Word 8) : Word 8 := fun i =>
  let value :=
    if low : i.val < 4 then first.signedWord ⟨i.val, low⟩
    else second.signedWord ⟨i.val - 4, by omega⟩
  UInt8.ofNat (max (-128) (min value 127) % 256).toNat

/-- `_m_to_int` -/
def toInt (word : Word 8) : Int :=
  Int.bmod (littleEndianValue [word 0, word 1, word 2, word 3]) (2 ^ 32)

theorem wrapped_eq_zero {value bound : Nat} (small : value < bound) :
    Int.bmod value bound = 0 ↔ value = 0 := by
  rw [Int.bmod_def, Int.emod_eq_of_lt (Int.natCast_nonneg value) (Int.ofNat_lt.mpr small)]
  split <;> omega

theorem signed_word_zero (word : Word 8) (j : Fin 4) :
    word.signedWord j = 0 ↔
      word ⟨2 * j, by omega⟩ = 0 ∧ word ⟨2 * j + 1, by omega⟩ = 0 := by
  unfold signedWord
  have small : littleEndianValue [word ⟨2 * j, by omega⟩, word ⟨2 * j + 1, by omega⟩] < 2 ^ 16 := by
    have first := (word ⟨2 * j, by omega⟩).toNat_lt
    have second := (word ⟨2 * j + 1, by omega⟩).toNat_lt
    simp only [littleEndianValue]
    omega
  rw [wrapped_eq_zero small, little_endian_value_eq_zero]
  simp only [List.forall_mem_cons, List.not_mem_nil, false_imp_iff, implies_true, and_true]

theorem saturated_eq_zero (value : Int) :
    UInt8.ofNat (max (-128) (min value 127) % 256).toNat = 0 ↔ value = 0 := by
  rw [← UInt8.toNat_inj, UInt8.toNat_ofNat', UInt8.toNat_zero]
  omega

theorem pack_signed_zero (word : Word 8) :
    (packSigned word word).toInt = 0 ↔ ∀ i, word i = 0 := by
  have packed : ∀ j : Fin 4, packSigned word word ⟨j, by omega⟩ = 0 ↔ word.signedWord j = 0 := by
    intro j
    unfold packSigned
    rw [dif_pos j.isLt]
    exact saturated_eq_zero _
  have small : littleEndianValue [packSigned word word 0, packSigned word word 1,
      packSigned word word 2, packSigned word word 3] < 2 ^ 32 := by
    have first := (packSigned word word 0).toNat_lt
    have second := (packSigned word word 1).toNat_lt
    have third := (packSigned word word 2).toNat_lt
    have fourth := (packSigned word word 3).toNat_lt
    simp only [littleEndianValue]
    omega
  unfold toInt
  rw [wrapped_eq_zero small, little_endian_value_eq_zero]
  simp only [List.forall_mem_cons, List.not_mem_nil, false_imp_iff, implies_true, and_true]
  have all : (∀ i, word i = 0) ↔ ∀ j : Fin 4, word ⟨2 * j, by omega⟩ = 0 ∧
      word ⟨2 * j + 1, by omega⟩ = 0 := by
    simp [Fin.forall_fin_succ, and_assoc]
  simp only [all, ← signed_word_zero, ← packed]
  simp [Fin.forall_fin_succ]

/-! ## Comparing -/

def lane (word : Word 16) (k : Fin 4) : Nat :=
  littleEndianValue [word ⟨4 * k, by omega⟩, word ⟨4 * k + 1, by omega⟩,
    word ⟨4 * k + 2, by omega⟩, word ⟨4 * k + 3, by omega⟩]

def isNaN (single : Nat) : Bool := decide (0x7f800000 < single % 2 ^ 31)

/-- Equality of single precision numbers, in which zero has two signs. -/
def singleEqual (first second : Nat) : Bool :=
  !isNaN first && !isNaN second &&
    (decide (first = second) || decide (first % 2 ^ 31 = 0 ∧ second % 2 ^ 31 = 0))

/-- `cmpeqps` -/
def compareEqual (first second : Word 16) (k : Fin 4) : Nat :=
  if singleEqual (first.lane k) (second.lane k) then 2 ^ 32 - 1 else 0

/-- `movmskps` -/
def moveMask (lanes : Fin 4 → Nat) : Nat :=
  lanes 0 / 2 ^ 31 + 2 * (lanes 1 / 2 ^ 31) + 4 * (lanes 2 / 2 ^ 31) + 8 * (lanes 3 / 2 ^ 31)

theorem compare_equal_zero (word : Word 16) :
    moveMask (word.compareEqual (fill 0)) = 0x0f ↔ ∀ k, word.lane k % 2 ^ 31 = 0 := by
  have zero : ∀ k, (fill 0 : Word 16).lane k = 0 := fun _ => rfl
  have equal : ∀ single, singleEqual single 0 = true ↔ single % 2 ^ 31 = 0 := by
    intro single
    simp [singleEqual, isNaN]
    omega
  have bit : ∀ k, word.compareEqual (fill 0) k / 2 ^ 31 =
      if word.lane k % 2 ^ 31 = 0 then 1 else 0 := by
    intro k
    unfold compareEqual
    rw [zero]
    simp only [equal]
    split <;> rfl
  have each : (∀ k, word.lane k % 2 ^ 31 = 0) ↔ word.lane 0 % 2 ^ 31 = 0 ∧
      word.lane 1 % 2 ^ 31 = 0 ∧ word.lane 2 % 2 ^ 31 = 0 ∧ word.lane 3 % 2 ^ 31 = 0 := by
    simp [Fin.forall_fin_succ]
  unfold moveMask
  rw [bit, bit, bit, bit, each]
  split_ifs <;> omega

theorem lane_zero_iff (word : Word 16) (k : Fin 4) :
    word.lane k % 2 ^ 31 = 0 ↔
      word ⟨4 * k, by omega⟩ = 0 ∧ word ⟨4 * k + 1, by omega⟩ = 0 ∧
        word ⟨4 * k + 2, by omega⟩ = 0 ∧ (word ⟨4 * k + 3, by omega⟩).toNat % 128 = 0 := by
  have zero : ∀ byte : UInt8, byte = 0 ↔ byte.toNat = 0 := by
    intro byte
    rw [← UInt8.toNat_inj]
    rfl
  have first := (word ⟨4 * k, by omega⟩).toNat_lt
  have second := (word ⟨4 * k + 1, by omega⟩).toNat_lt
  have third := (word ⟨4 * k + 2, by omega⟩).toNat_lt
  have fourth := (word ⟨4 * k + 3, by omega⟩).toNat_lt
  rw [zero, zero, zero]
  simp only [lane, littleEndianValue]
  omega

end Word
end Xineliboutput.Foundation
