import Mathlib.Algebra.Group.Int.Defs
import Mathlib.Algebra.Group.Nat.Defs
import Mathlib.Data.List.Basic

/-!
# Decimal numbers in ASCII text

Printing as `%d` and `%llu` do it, and the reading half of `sscanf`: white space,
an optional sign, then as many digits as there are. A number that is followed by
something other than a digit is read back as it was printed.
-/

namespace Xineliboutput.Foundation

set_option autoImplicit false

def ascii (text : List Char) : List UInt8 := text.map fun character => UInt8.ofNat character.toNat

def digitByte (digit : Nat) : UInt8 := UInt8.ofNat (48 + digit)

def isDigit (byte : UInt8) : Bool := 48 ≤ byte.toNat && byte.toNat ≤ 57

def isSpace (byte : UInt8) : Bool := byte.toNat == 32 || (9 ≤ byte.toNat && byte.toNat ≤ 13)

/-- The digits of `value` in front of `suffix`. The fuel counts digits, and
`value + 1` of it is always enough. -/
def printDigits : Nat → Nat → List UInt8 → List UInt8
  | 0, _, suffix => suffix
  | fuel + 1, value, suffix =>
      if value < 10 then digitByte value :: suffix
      else printDigits fuel (value / 10) (digitByte (value % 10) :: suffix)

def decimal (value : Nat) : List UInt8 := printDigits (value + 1) value []

def scanDigits : Nat → List UInt8 → Nat × List UInt8
  | value, [] => (value, [])
  | value, byte :: rest =>
      if isDigit byte then scanDigits (10 * value + (byte.toNat - 48)) rest
      else (value, byte :: rest)

def scanUnsigned : List UInt8 → Option (Nat × List UInt8)
  | [] => none
  | byte :: rest => if isDigit byte then some (scanDigits 0 (byte :: rest)) else none

/-- One `%d` conversion. `none` is a matching failure. -/
def scanInteger (text : List UInt8) : Option (Int × List UInt8) :=
  match text.dropWhile isSpace with
  | [] => none
  | byte :: rest =>
      if byte = 45 then (scanUnsigned rest).map fun (value, suffix) => (-(value : Int), suffix)
      else if byte = 43 then (scanUnsigned rest).map fun (value, suffix) => ((value : Int), suffix)
      else (scanUnsigned (byte :: rest)).map fun (value, suffix) => ((value : Int), suffix)

/-- What `%d` stores: `strtol` clamps to 64 bits, the store keeps 32 of them. -/
def storeInt (value : Int) : Int := Int.bmod (max (-2 ^ 63) (min value (2 ^ 63 - 1))) (2 ^ 32)

/-- What `%llu` stores: `strtoull` clamps to 64 bits and negates modulo 2^64. -/
def storeUnsigned (value : Int) : Nat :=
  if 2 ^ 64 ≤ value.natAbs then 2 ^ 64 - 1 else (value % 2 ^ 64).toNat

/-- What a 64-bit `%d` stores. -/
def storeInt64 (value : Int) : Int := max (-2 ^ 63) (min value (2 ^ 63 - 1))

/-- A literal character of a format, which must be next in the text. -/
def scanLiteral (byte : UInt8) : List UInt8 → Option (List UInt8)
  | [] => none
  | head :: rest => if head = byte then some rest else none

def scanLiterals : List UInt8 → List UInt8 → Option (List UInt8)
  | [], text => some text
  | byte :: more, text => (scanLiteral byte text).bind (scanLiterals more)

theorem scan_literals_append (word text : List UInt8) :
    scanLiterals word (word ++ text) = some text := by
  induction word with
  | nil => rfl
  | cons byte word ih => simp [scanLiterals, scanLiteral, ih]

theorem digit_byte_value (digit : Nat) (bound : digit < 10) :
    (digitByte digit).toNat = 48 + digit := by
  simp only [digitByte, UInt8.toNat_ofNat']
  omega

theorem is_digit_digit_byte (digit : Nat) (bound : digit < 10) :
    isDigit (digitByte digit) = true := by
  simp [isDigit, digit_byte_value digit bound]
  omega

theorem print_digits_append (fuel value : Nat) (left right : List UInt8) :
    printDigits fuel value (left ++ right) = printDigits fuel value left ++ right := by
  induction fuel generalizing value left with
  | zero => rfl
  | succ fuel ih =>
      simp only [printDigits]
      split
      · rfl
      · exact ih (value / 10) (digitByte (value % 10) :: left)

/-- Reading the printed digits goes on, with their value, to what follows them. -/
theorem scan_print_digits (fuel value : Nat) (enough : value < fuel) (suffix : List UInt8) :
    scanDigits 0 (printDigits fuel value suffix) = scanDigits value suffix := by
  induction fuel generalizing value suffix with
  | zero => omega
  | succ fuel ih =>
      simp only [printDigits]
      split
      · rename_i small
        simp [scanDigits, is_digit_digit_byte value small, digit_byte_value value small]
      · rename_i large
        have lastDigit : value % 10 < 10 := Nat.mod_lt _ (by decide)
        rw [ih (value / 10) (by omega)]
        simp only [scanDigits, is_digit_digit_byte _ lastDigit, digit_byte_value _ lastDigit,
          if_true]
        congr 1
        omega

theorem print_digits_head (fuel value : Nat) (suffix : List UInt8) :
    ∃ digit rest, digit < 10 ∧ printDigits (fuel + 1) value suffix = digitByte digit :: rest := by
  induction fuel generalizing value suffix with
  | zero =>
      simp only [printDigits]
      split
      · rename_i small
        exact ⟨value, suffix, small, rfl⟩
      · exact ⟨value % 10, suffix, Nat.mod_lt _ (by decide), rfl⟩
  | succ fuel ih =>
      rw [printDigits]
      split
      · rename_i small
        exact ⟨value, suffix, small, rfl⟩
      · exact ih (value / 10) _

theorem scan_unsigned_decimal (value : Nat) (suffix : List UInt8)
    (ends : scanDigits value suffix = (value, suffix)) :
    scanUnsigned (decimal value ++ suffix) = some (value, suffix) := by
  have whole : decimal value ++ suffix = printDigits (value + 1) value suffix := by
    simpa [decimal] using (print_digits_append (value + 1) value [] suffix).symm
  obtain ⟨digit, rest, bound, shape⟩ := print_digits_head value value suffix
  have scanned := scan_print_digits (value + 1) value (Nat.lt_succ_self value) suffix
  rw [whole]
  rw [shape] at scanned ⊢
  simp only [scanUnsigned, is_digit_digit_byte digit bound, if_true, scanned, ends]

theorem scan_digits_stop (value : Nat) {byte : UInt8} (rest : List UInt8)
    (other : isDigit byte = false) : scanDigits value (byte :: rest) = (value, byte :: rest) := by
  simp [scanDigits, other]

/-- A printed number is read back by `%d` and leaves what stood behind it. -/
theorem scan_integer_decimal (value : Nat) (suffix : List UInt8)
    (ends : scanDigits value suffix = (value, suffix)) :
    scanInteger (decimal value ++ suffix) = some ((value : Int), suffix) := by
  have scanned := scan_unsigned_decimal value suffix ends
  obtain ⟨digit, rest, bound, shape⟩ := print_digits_head value value suffix
  have whole : decimal value ++ suffix = digitByte digit :: rest := by
    rw [← shape, decimal, ← print_digits_append, List.nil_append]
  have byteValue := digit_byte_value digit bound
  have noSpace : isSpace (digitByte digit) = false := by
    simp [isSpace, byteValue]
    omega
  have notMinus : digitByte digit ≠ 45 := by
    intro equal
    rw [equal] at byteValue
    simp at byteValue
    omega
  have notPlus : digitByte digit ≠ 43 := by
    intro equal
    rw [equal] at byteValue
    simp at byteValue
    omega
  rw [whole] at scanned ⊢
  simp only [scanInteger, List.dropWhile_cons, noSpace, Bool.false_eq_true, if_false, notMinus,
    notPlus, scanned, Option.map_some]

theorem print_digits_all (fuel value : Nat) {suffix : List UInt8}
    (digits : ∀ byte ∈ suffix, isDigit byte = true) :
    ∀ byte ∈ printDigits fuel value suffix, isDigit byte = true := by
  induction fuel generalizing value suffix with
  | zero => exact digits
  | succ fuel ih =>
      simp only [printDigits]
      split
      · rename_i small
        exact List.forall_mem_cons.mpr ⟨is_digit_digit_byte value small, digits⟩
      · have lastDigit : value % 10 < 10 := Nat.mod_lt _ (by decide)
        exact ih _ (List.forall_mem_cons.mpr ⟨is_digit_digit_byte _ lastDigit, digits⟩)

theorem decimal_digits (value : Nat) : ∀ byte ∈ decimal value, isDigit byte = true :=
  print_digits_all _ _ fun _ member => absurd member List.not_mem_nil

theorem decimal_head (value : Nat) :
    ∃ digit rest, decimal value = digit :: rest ∧ isDigit digit = true := by
  obtain ⟨digit, rest, bound, shape⟩ := print_digits_head value value []
  exact ⟨_, rest, shape, is_digit_digit_byte digit bound⟩

theorem print_digits_length (fuel value width : Nat) (enough : value < fuel)
    (fits : value < 10 ^ (width + 1)) (suffix : List UInt8) :
    (printDigits fuel value suffix).length ≤ width + 1 + suffix.length := by
  induction fuel generalizing value width suffix with
  | zero => omega
  | succ fuel ih =>
      simp only [printDigits]
      split
      · simp only [List.length_cons]
        omega
      · rename_i large
        cases width with
        | zero => omega
        | succ width =>
            have shorter := ih (value / 10) width (by omega) (by omega)
              (digitByte (value % 10) :: suffix)
            simp only [List.length_cons] at shorter
            omega

theorem decimal_length_le (value width : Nat) (fits : value < 10 ^ (width + 1)) :
    (decimal value).length ≤ width + 1 := by
  simpa [decimal] using print_digits_length (value + 1) value width (Nat.lt_succ_self value) fits []

theorem store_int_of_small (value : Nat) (small : value < 2 ^ 31) :
    storeInt (value : Int) = value := by
  have unclamped : max (-2 ^ 63) (min (value : Int) (2 ^ 63 - 1)) = value := by omega
  rw [storeInt, unclamped, Int.bmod_eq_of_le] <;> omega

theorem store_unsigned_of_small (value : Nat) (small : value < 2 ^ 64) :
    storeUnsigned (value : Int) = value := by
  rw [storeUnsigned, if_neg (by simpa using small)]
  omega

end Xineliboutput.Foundation
