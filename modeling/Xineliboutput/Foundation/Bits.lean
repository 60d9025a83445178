import Mathlib

/-!
# Bits and the numbers in them

Bits in the order in which they are read, without an end. A number stands in a range of bits
with its highest bit first, and an Exp-Golomb number behind as many zeros as it has bits.
-/

namespace Xineliboutput.Foundation

set_option autoImplicit false

abbrev Bits := Nat → Bool

namespace Bits

def drop (bits : Bits) (position : Nat) : Bits := fun i => bits (position + i)

def value (bits : Bits) : Nat → Nat
  | 0 => 0
  | count + 1 => 2 * value bits count + (bits count).toNat

def zeros (bits : Bits) : Nat → Nat
  | 0 => 0
  | limit + 1 => if bits 0 then 0 else zeros (bits.drop 1) limit + 1

def ofBytes (bytes : List UInt8) : Bits := fun i =>
  if inside : i / 8 < bytes.length then bytes[i / 8].toNat.testBit (7 - i % 8) else true

variable {bits other : Bits}

@[simp]
theorem drop_zero (bits : Bits) : bits.drop 0 = bits := by
  funext i
  rw [drop, Nat.zero_add]

@[simp]
theorem drop_drop (bits : Bits) (first second : Nat) :
    (bits.drop first).drop second = bits.drop (first + second) := by
  funext i
  simp only [drop, Nat.add_assoc]

theorem value_lt (bits : Bits) (count : Nat) : bits.value count < 2 ^ count := by
  induction count with
  | zero => exact Nat.one_pos
  | succ count ih =>
      have bit := (bits count).toNat_lt
      rw [value, Nat.pow_succ]
      omega

theorem value_congr {count : Nat} (same : ∀ i < count, bits i = other i) :
    bits.value count = other.value count := by
  induction count with
  | zero => rfl
  | succ count ih =>
      rw [value, value, ih fun i short => same i (Nat.lt_succ_of_lt short),
        same count (Nat.lt_succ_self count)]

theorem value_append (bits : Bits) (first second : Nat) :
    bits.value (first + second) =
      bits.value first * 2 ^ second + (bits.drop first).value second := by
  induction second with
  | zero => simp [value]
  | succ second ih =>
      rw [← Nat.add_assoc, value, ih, value, Nat.pow_succ, drop]
      ring

theorem value_first (bits : Bits) (count : Nat) :
    bits.value (count + 1) = (bits 0).toNat * 2 ^ count + (bits.drop 1).value count := by
  rw [Nat.add_comm, value_append]
  simp [value]

theorem value_div (bits : Bits) (first second : Nat) :
    bits.value (first + second) / 2 ^ second = bits.value first := by
  rw [value_append, Nat.mul_comm, Nat.mul_add_div (Nat.two_pow_pos second),
    Nat.div_eq_of_lt (value_lt _ second), Nat.add_zero]

theorem value_mod (bits : Bits) (first second : Nat) :
    bits.value (first + second) % 2 ^ second = (bits.drop first).value second := by
  rw [value_append, Nat.mul_comm, Nat.mul_add_mod, Nat.mod_eq_of_lt (value_lt _ second)]

theorem value_ones {count : Nat} (ones : ∀ i < count, bits i = true) :
    bits.value count = 2 ^ count - 1 := by
  induction count with
  | zero => rfl
  | succ count ih =>
      have positive := Nat.two_pow_pos count
      rw [value, ih fun i short => ones i (Nat.lt_succ_of_lt short),
        ones count (Nat.lt_succ_self count), Nat.pow_succ, Bool.toNat_true]
      omega

theorem value_testBit (number count : Nat) :
    value (fun i => number.testBit (count - 1 - i)) count = number % 2 ^ count := by
  induction count generalizing number with
  | zero => simp [value, Nat.mod_one]
  | succ count ih =>
      have higher : value (fun i => number.testBit (count + 1 - 1 - i)) count =
          number / 2 % 2 ^ count := by
        rw [← ih]
        apply value_congr
        intro i short
        have place : count + 1 - 1 - i = (count - 1 - i) + 1 := by omega
        rw [place, Nat.testBit_add_one]
      rw [value, higher, Nat.add_sub_cancel, Nat.sub_self, Nat.testBit_zero, Nat.pow_succ,
        Nat.mul_comm (2 ^ count), Nat.mod_mul]
      have bit := Nat.mod_two_eq_zero_or_one number
      rcases bit with even | odd
      · simp [even]
      · simp [odd]
        omega

theorem zeros_le (bits : Bits) (limit : Nat) : bits.zeros limit ≤ limit := by
  induction limit generalizing bits with
  | zero => exact Nat.le_refl 0
  | succ limit ih =>
      rw [zeros]
      split
      · exact Nat.zero_le _
      · exact Nat.succ_le_succ (ih _)

/-! ## Octets -/

theorem ofBytes_behind {bytes : List UInt8} {i : Nat} (behind : 8 * bytes.length ≤ i) :
    ofBytes bytes i = true := by
  rw [ofBytes, dif_neg]
  omega

theorem ofBytes_inside {bytes : List UInt8} {i : Nat} (inside : i / 8 < bytes.length) :
    ofBytes bytes i = bytes[i / 8].toNat.testBit (7 - i % 8) := by
  rw [ofBytes, dif_pos inside]

theorem value_octet {bytes : List UInt8} {i : Nat} (inside : i < bytes.length) :
    ((ofBytes bytes).drop (8 * i)).value 8 = bytes[i].toNat := by
  have octet := value_testBit bytes[i].toNat 8
  rw [Nat.mod_eq_of_lt bytes[i].toNat_lt] at octet
  rw [← octet]
  apply value_congr
  intro k short
  have place : (8 * i + k) / 8 = i := by omega
  have shift : 7 - (8 * i + k) % 8 = 8 - 1 - k := by omega
  have within : (8 * i + k) / 8 < bytes.length := by omega
  rw [drop, ofBytes_inside within, shift]
  simp only [place]

theorem value_octet_behind {bytes : List UInt8} {i : Nat} (behind : 8 * bytes.length ≤ i) :
    ((ofBytes bytes).drop i).value 8 = 255 :=
  value_ones fun _ _ => ofBytes_behind (Nat.le_add_right_of_le behind)

end Bits
end Xineliboutput.Foundation

/-!
# Codes of numbers

Numbers of a fixed width and Exp-Golomb numbers as lists of bits, and octets for such a list.
-/

namespace Xineliboutput.Foundation

set_option autoImplicit false

namespace Bits

def Carries (bits : Bits) (position : Nat) (code : List Bool) : Prop :=
  ∀ (i : Nat) (within : i < code.length), bits (position + i) = code[i]

def ofList (code : List Bool) : Bits := fun i => code.getD i false

def number (count n : Nat) : List Bool := (List.range count).map fun i => n.testBit (count - 1 - i)

def ueCode (n : Nat) : List Bool :=
  List.replicate (n + 1).log2 false ++ true :: number (n + 1).log2 (n + 1 - 2 ^ (n + 1).log2)

def seCode (n : Int) : List Bool := ueCode (if 0 < n then (2 * n - 1).toNat else (-2 * n).toNat)

def pack (code : List Bool) : List UInt8 :=
  (List.range (code.length / 8)).map fun i => UInt8.ofNat (((ofList code).drop (8 * i)).value 8)

variable {bits : Bits} {position : Nat}

theorem carries_append {first second : List Bool} :
    bits.Carries position (first ++ second) ↔
      bits.Carries position first ∧ bits.Carries (position + first.length) second := by
  constructor
  · intro both
    constructor
    · intro i within
      rw [both i (by rw [List.length_append]; omega), List.getElem_append_left within]
    · intro i within
      rw [Nat.add_assoc, both (first.length + i) (by rw [List.length_append]; omega),
        List.getElem_append_right (Nat.le_add_right _ _)]
      simp only [Nat.add_sub_cancel_left]
  · intro both i within
    obtain ⟨one, other⟩ := both
    by_cases short : i < first.length
    · rw [one i short, List.getElem_append_left short]
    · rw [List.length_append] at within
      have rest := other (i - first.length) (by omega)
      rw [List.getElem_append_right (Nat.not_lt.mp short), ← rest]
      congr 1
      omega

theorem carries_cons {bit : Bool} {code : List Bool} :
    bits.Carries position (bit :: code) ↔
      bits position = bit ∧ bits.Carries (position + 1) code := by
  rw [← List.singleton_append, carries_append]
  constructor
  · intro both
    exact ⟨both.1 0 Nat.one_pos, both.2⟩
  · intro both
    refine ⟨?_, both.2⟩
    intro i within
    obtain rfl : i = 0 := Nat.lt_one_iff.mp within
    exact both.1

/-! ## Numbers -/

@[simp]
theorem number_length (count n : Nat) : (number count n).length = count := by
  rw [number, List.length_map, List.length_range]

theorem value_number {count n : Nat} (carries : bits.Carries position (number count n)) :
    (bits.drop position).value count = n % 2 ^ count := by
  rw [← value_testBit]
  apply value_congr
  intro i short
  rw [drop, carries i (by rw [number_length]; exact short)]
  simp [number]

theorem number_append (first second n : Nat) :
    number (first + second) n = number first (n / 2 ^ second) ++ number second (n % 2 ^ second) := by
  apply List.ext_getElem
  · simp
  · intro i within _
    rw [number_length] at within
    by_cases high : i < first
    · have place : first + second - 1 - i = second + (first - 1 - i) := by omega
      rw [List.getElem_append_left (by simpa using high)]
      simp only [number, List.getElem_map, List.getElem_range, Nat.testBit_div_two_pow, place,
        Nat.add_comm]
    · have place : first + second - 1 - i = second - 1 - (i - first) := by omega
      have low : second - 1 - (i - first) < second := by omega
      rw [List.getElem_append_right (by simpa using high)]
      simp [number, place, low]

theorem zeros_of_carries {limit n : Nat} {code : List Bool}
    (carries : bits.Carries position (List.replicate n false ++ true :: code)) (few : n ≤ limit) :
    (bits.drop position).zeros limit = n := by
  induction n generalizing limit position with
  | zero =>
      rw [List.replicate_zero, List.nil_append, carries_cons] at carries
      cases limit with
      | zero => rfl
      | succ limit => rw [zeros, drop, Nat.add_zero, carries.1, if_pos rfl]
  | succ n ih =>
      rw [List.replicate_succ, List.cons_append, carries_cons] at carries
      cases limit with
      | zero => exact absurd few (Nat.not_succ_le_zero n)
      | succ limit =>
          rw [zeros, drop_drop, ih carries.2 (Nat.le_of_succ_le_succ few), drop, Nat.add_zero,
            carries.1, if_neg Bool.false_ne_true]

theorem ue_code_length (n : Nat) : (ueCode n).length = 2 * (n + 1).log2 + 1 := by
  rw [ueCode, List.length_append, List.length_replicate, List.length_cons, number_length]
  omega

theorem ue_code_value {n : Nat} (carries : bits.Carries position (ueCode n)) :
    2 ^ (n + 1).log2 - 1 +
      (bits.drop (position + (n + 1).log2 + 1)).value (n + 1).log2 = n := by
  rw [ueCode, carries_append, List.length_replicate, carries_cons] at carries
  have low : 2 ^ (n + 1).log2 ≤ n + 1 := Nat.log2_self_le (Nat.succ_ne_zero n)
  have high := Nat.lt_log2_self (n := n + 1)
  rw [value_number carries.2.2, Nat.mod_eq_of_lt (by rw [Nat.pow_succ] at high; omega)]
  omega

theorem log2_le_of_lt {n bound : Nat} (small : n + 1 < 2 ^ (bound + 1)) :
    (n + 1).log2 ≤ bound :=
  Nat.le_of_lt_succ ((Nat.log2_lt (Nat.succ_ne_zero n)).mpr small)

/-! ## Octets -/

theorem testBit_value (bits : Bits) {count k : Nat} (short : k < count) :
    (bits.value count).testBit k = bits (count - 1 - k) := by
  induction count generalizing k with
  | zero => exact absurd short (Nat.not_lt_zero k)
  | succ count ih =>
      cases k with
      | zero =>
          rw [value, Nat.testBit_zero, Nat.add_sub_cancel, Nat.sub_zero]
          cases bits count <;> simp
      | succ k =>
          have half : (2 * bits.value count + (bits count).toNat) / 2 = bits.value count := by
            have bit := (bits count).toNat_lt
            omega
          have place : count + 1 - 1 - (k + 1) = count - 1 - k := by omega
          rw [value, Nat.testBit_succ, half, ih (Nat.lt_of_succ_lt_succ short), place]

theorem pack_length (code : List Bool) : (pack code).length = code.length / 8 := by
  rw [pack, List.length_map, List.length_range]

theorem carries_pack {code : List Bool} (whole : code.length % 8 = 0) :
    (ofBytes (pack code)).Carries 0 code := by
  intro i within
  have inside : i / 8 < (pack code).length := by
    rw [pack_length]
    omega
  have octet := value_lt ((ofList code).drop (8 * (i / 8))) 8
  have place : 8 * (i / 8) + (8 - 1 - (7 - i % 8)) = i := by omega
  rw [Nat.zero_add, ofBytes_inside inside]
  simp only [pack, List.getElem_map, List.getElem_range]
  rw [UInt8.toNat_ofNat', Nat.mod_eq_of_lt octet, testBit_value _ (by omega), drop, place, ofList,
    List.getD_eq_getElem _ _ within]

end Bits
end Xineliboutput.Foundation
