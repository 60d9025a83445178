import Xineliboutput.Foundation.DecimalText

/-!
# The text of a missing-packet notice

The server writes "UDP MISSING %d-%d %llu" into the payload of a control datagram;
the client finds the prefix with `strncmp` and reads the numbers with `sscanf`,
which leaves a number that it cannot convert at zero.
-/

namespace Xineliboutput.Udp

open Xineliboutput.Foundation

set_option autoImplicit false

def udpMissing : List UInt8 := ascii ['U', 'D', 'P', ' ', 'M', 'I', 'S', 'S', 'I', 'N', 'G']

def dash : UInt8 := 45

def space : UInt8 := 32

def missingText (first last pos : Nat) : List UInt8 :=
  udpMissing ++ space :: (decimal first ++ dash :: (decimal last ++ space :: decimal pos))

/-- `snprintf` into a buffer: the text is cut to leave room for its terminator, and
what stood behind that stays. -/
def snprintf (buffer text : List UInt8) : List UInt8 :=
  let written := text.take (buffer.length - 1) ++ [0]
  written ++ buffer.drop written.length

/-- `sscanf(text, "%d-%d %llu", …)`: the values stored, as far as it converts. -/
def scanRange (text : List UInt8) : Option Int × Option Int × Option Nat :=
  match scanInteger text with
  | none => (none, none, none)
  | some (first, rest) =>
      match scanLiteral dash rest with
      | none => (some (storeInt first), none, none)
      | some rest =>
          match scanInteger rest with
          | none => (some (storeInt first), none, none)
          | some (last, rest) =>
              match scanInteger rest with
              | none => (some (storeInt first), some (storeInt last), none)
              | some (pos, _) =>
                  (some (storeInt first), some (storeInt last), some (storeUnsigned pos))

/-- The client's reading of a control message; `none` is any other message. -/
def readMissing (payload : List UInt8) : Option (Int × Int × Nat) :=
  if payload.take 11 = udpMissing then
    let (first, last, pos) := scanRange (payload.drop 12)
    some (first.getD 0, last.getD 0, pos.getD 0)
  else none

theorem scan_integer_space (text : List UInt8) :
    scanInteger (space :: text) = scanInteger text := by
  simp [scanInteger, space, isSpace]

theorem missing_text_length (first last pos : Nat) (firstFits : first < 1000)
    (lastFits : last < 1000) (posFits : pos < 2 ^ 64) :
    (missingText first last pos).length ≤ 40 := by
  have firstLength := decimal_length_le first 2 (by simpa using firstFits)
  have lastLength := decimal_length_le last 2 (by simpa using lastFits)
  have posLength := decimal_length_le pos 19 (by omega)
  simp only [missingText, udpMissing, ascii, List.map_cons, List.map_nil, List.length_append,
    List.length_cons, List.length_nil]
  omega

theorem scan_range_numbers (first last pos : Nat) (firstFits : first < 1000)
    (lastFits : last < 1000) (posFits : pos < 2 ^ 64) (stale : List UInt8) :
    scanRange (decimal first ++ dash :: (decimal last ++ space :: (decimal pos ++ 0 :: stale))) =
      (some (first : Int), some (last : Int), some pos) := by
  have readFirst := scan_integer_decimal first
    (dash :: (decimal last ++ space :: (decimal pos ++ 0 :: stale)))
    (scan_digits_stop first _ (by decide))
  have readLast := scan_integer_decimal last (space :: (decimal pos ++ 0 :: stale))
    (scan_digits_stop last _ (by decide))
  have readPos := scan_integer_decimal pos (0 :: stale) (scan_digits_stop pos _ (by decide))
  simp only [scanRange, readFirst, scanLiteral, if_true, readLast, scan_integer_space, readPos,
    store_int_of_small first (by omega), store_int_of_small last (by omega),
    store_unsigned_of_small pos posFits]

/-- A notice in a 53-byte payload is read back as it was written, whatever the
payload held before. -/
theorem read_missing_text (buffer : List UInt8) (room : buffer.length = 53) (first last pos : Nat)
    (firstFits : first < 1000) (lastFits : last < 1000) (posFits : pos < 2 ^ 64) :
    readMissing (snprintf buffer (missingText first last pos)) =
      some ((first : Int), (last : Int), pos) := by
  have short := missing_text_length first last pos firstFits lastFits posFits
  have uncut : (missingText first last pos).take (buffer.length - 1) =
      missingText first last pos := List.take_of_length_le (by omega)
  have layout (stale : List UInt8) : missingText first last pos ++ [0] ++ stale =
      udpMissing ++ (space :: (decimal first ++
        dash :: (decimal last ++ space :: (decimal pos ++ 0 :: stale)))) := by
    simp [missingText]
  simp only [snprintf, uncut, layout, readMissing]
  rw [if_pos (by rfl)]
  have numbers := scan_range_numbers first last pos firstFits lastFits posFits
    (buffer.drop (missingText first last pos ++ [0]).length)
  simp only [show ∀ rest, (udpMissing ++ space :: rest).drop 12 = rest from fun _ => rfl, numbers,
    Option.getD_some]

end Xineliboutput.Udp
