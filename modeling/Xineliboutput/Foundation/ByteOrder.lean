import Mathlib.Algebra.Group.Int.Defs
import Mathlib.Algebra.Group.Nat.Defs
import Mathlib.Data.List.Basic

/-!
# Fixed-width numbers as bytes

Little-endian words are built by repeated division; a big-endian word is the same
bytes in the other order, so each fact about one order is a fact about the other.
-/

namespace Xineliboutput.Foundation

set_option autoImplicit false

def littleEndian : Nat → Nat → List UInt8
  | 0, _ => []
  | width + 1, value => UInt8.ofNat value :: littleEndian width (value / 256)

def littleEndianValue : List UInt8 → Nat
  | [] => 0
  | byte :: rest => byte.toNat + 256 * littleEndianValue rest

def bigEndian (width value : Nat) : List UInt8 := (littleEndian width value).reverse

def bigEndianValue (bytes : List UInt8) : Nat := littleEndianValue bytes.reverse

@[simp] theorem little_endian_length (width value : Nat) :
    (littleEndian width value).length = width := by
  induction width generalizing value with
  | zero => rfl
  | succ width ih => simp [littleEndian, ih]

@[simp] theorem big_endian_length (width value : Nat) :
    (bigEndian width value).length = width := by
  simp [bigEndian]

theorem little_endian_value_encode (width value : Nat) (fits : value < 256 ^ width) :
    littleEndianValue (littleEndian width value) = value := by
  induction width generalizing value with
  | zero =>
      have zero : value = 0 := by simpa using fits
      simp [littleEndian, littleEndianValue, zero]
  | succ width ih =>
      have quotientFits : value / 256 < 256 ^ width := by
        rw [Nat.div_lt_iff_lt_mul (by decide)]
        simpa [Nat.pow_succ] using fits
      simp only [littleEndian, littleEndianValue, ih _ quotientFits, UInt8.toNat_ofNat']
      omega

theorem big_endian_value_encode (width value : Nat) (fits : value < 256 ^ width) :
    bigEndianValue (bigEndian width value) = value := by
  rw [bigEndianValue, bigEndian, List.reverse_reverse]
  exact little_endian_value_encode width value fits

theorem little_endian_value_lt (bytes : List UInt8) :
    littleEndianValue bytes < 256 ^ bytes.length := by
  induction bytes with
  | nil => simp [littleEndianValue]
  | cons byte rest ih =>
      have small := byte.toNat_lt
      simp only [littleEndianValue, List.length_cons, Nat.pow_succ]
      omega

theorem little_endian_value_inj {bytes other : List UInt8} (width : bytes.length = other.length)
    (same : littleEndianValue bytes = littleEndianValue other) : bytes = other := by
  induction bytes generalizing other with
  | nil => exact (List.length_eq_zero_iff.mp width.symm).symm
  | cons byte rest ih =>
      cases other with
      | nil => simp at width
      | cons otherByte otherRest =>
          have small := byte.toNat_lt
          have otherSmall := otherByte.toNat_lt
          simp only [littleEndianValue] at same
          have first : byte = otherByte := UInt8.toNat_inj.mp (by omega)
          have onward : rest = otherRest :=
            ih (by simpa using width) (by rw [first] at same; omega)
          rw [first, onward]

theorem big_endian_value_lt (bytes : List UInt8) : bigEndianValue bytes < 256 ^ bytes.length := by
  have bound := little_endian_value_lt bytes.reverse
  rwa [List.length_reverse] at bound

theorem big_endian_value_inj {bytes other : List UInt8} (width : bytes.length = other.length)
    (same : bigEndianValue bytes = bigEndianValue other) : bytes = other := by
  apply List.reverse_inj.mp
  exact little_endian_value_inj (by simpa using width) same

theorem little_endian_value_eq_zero (bytes : List UInt8) :
    littleEndianValue bytes = 0 ↔ ∀ byte ∈ bytes, byte = 0 := by
  induction bytes with
  | nil => simp [littleEndianValue]
  | cons byte rest ih =>
      have zero : byte = 0 ↔ byte.toNat = 0 := by
        rw [← UInt8.toNat_inj]
        rfl
      rw [List.forall_mem_cons, ← ih, zero]
      simp only [littleEndianValue]
      omega

theorem little_endian_encode_value (bytes : List UInt8) :
    littleEndian bytes.length (littleEndianValue bytes) = bytes :=
  little_endian_value_inj (little_endian_length _ _)
    (little_endian_value_encode _ _ (little_endian_value_lt bytes))

theorem little_endian_split (low high value : Nat) :
    littleEndian (low + high) value =
      littleEndian low value ++ littleEndian high (value / 256 ^ low) := by
  induction low generalizing value with
  | zero => simp [littleEndian]
  | succ low ih =>
      rw [Nat.add_right_comm, littleEndian, littleEndian, ih, List.cons_append,
        Nat.div_div_eq_div_mul, Nat.pow_succ']

theorem big_endian_split (high low value : Nat) :
    bigEndian (high + low) value = bigEndian high (value / 256 ^ low) ++ bigEndian low value := by
  rw [bigEndian, Nat.add_comm, little_endian_split, List.reverse_append]
  rfl

/-! ## The order of a machine -/

inductive ByteOrder where
  | little
  | big
deriving DecidableEq

namespace ByteOrder

def bytes : ByteOrder → Nat → Nat → List UInt8
  | little => littleEndian
  | big => bigEndian

def value : ByteOrder → List UInt8 → Nat
  | little => littleEndianValue
  | big => bigEndianValue

@[simp] theorem bytes_length (order : ByteOrder) (width value : Nat) :
    (order.bytes width value).length = width := by
  cases order with
  | little => exact little_endian_length width value
  | big => exact big_endian_length width value

theorem value_lt (order : ByteOrder) (memory : List UInt8) :
    order.value memory < 256 ^ memory.length := by
  cases order with
  | little => exact little_endian_value_lt memory
  | big => exact big_endian_value_lt memory

theorem bytes_value (order : ByteOrder) (memory : List UInt8) :
    order.bytes memory.length (order.value memory) = memory := by
  cases order with
  | little => exact little_endian_encode_value memory
  | big =>
      have whole := little_endian_encode_value memory.reverse
      rw [List.length_reverse] at whole
      rw [bytes, value, bigEndian, bigEndianValue, whole, List.reverse_reverse]

theorem value_bytes (order : ByteOrder) (width value : Nat) (fits : value < 256 ^ width) :
    order.value (order.bytes width value) = value := by
  cases order with
  | little => exact little_endian_value_encode width value fits
  | big => exact big_endian_value_encode width value fits

theorem value_eq_zero (order : ByteOrder) (memory : List UInt8) :
    order.value memory = 0 ↔ ∀ byte ∈ memory, byte = 0 := by
  cases order with
  | little => exact little_endian_value_eq_zero memory
  | big =>
      rw [value, bigEndianValue, little_endian_value_eq_zero]
      simp only [List.mem_reverse]

end ByteOrder
end Xineliboutput.Foundation
