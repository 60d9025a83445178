import Mathlib

/-!
# Strings that end with a NUL

What the string functions see of memory: the bytes before the first NUL. Where there is none,
they leave the memory.
-/

namespace Xineliboutput.Foundation

set_option autoImplicit false

def stringAt : List UInt8 → Option (List UInt8)
  | [] => none
  | byte :: memory => if byte = 0 then some [] else (stringAt memory).map (byte :: ·)

/-- `strstr` finds the text. -/
def strstrFinds (text sought : List UInt8) : Bool := decide (sought <:+: text)

theorem string_at_terminated {text : List UInt8} (plain : (0 : UInt8) ∉ text)
    (behind : List UInt8) : stringAt (text ++ 0 :: behind) = some text := by
  induction text with
  | nil => rfl
  | cons byte text ih =>
      rw [List.mem_cons, not_or] at plain
      rw [List.cons_append, stringAt, if_neg (Ne.symm plain.1), ih plain.2]
      rfl

end Xineliboutput.Foundation

/-!
# Lines that end with CR LF

A text is cut at every CR LF, byte by byte. The lines and what remains are the text again, and
have no CR LF inside.
-/

namespace Xineliboutput.Foundation

set_option autoImplicit false

def cr : UInt8 := 0x0d

def lf : UInt8 := 0x0a

def crlf : List UInt8 := [cr, lf]

def EndsLine (line : List UInt8) (byte : UInt8) : Prop := byte = lf ∧ line.getLast? = some cr

instance (line : List UInt8) (byte : UInt8) : Decidable (EndsLine line byte) :=
  inferInstanceAs (Decidable (_ ∧ _))

/-- The lines of a text and the rest of it, after the beginning of a line. -/
def linesOf (line : List UInt8) : List UInt8 → List (List UInt8) × List UInt8
  | [] => ([], line)
  | byte :: bytes =>
      if EndsLine line byte then (line.dropLast :: (linesOf [] bytes).1, (linesOf [] bytes).2)
      else linesOf (line ++ [byte]) bytes

section Lines

variable {line bytes : List UInt8} {byte : UInt8}

theorem lines_of_line (front : List UInt8) (plain : lf ∉ line) (rest : List UInt8) :
    linesOf front (line ++ (crlf ++ rest)) =
      ((front ++ line) :: (linesOf [] rest).1, (linesOf [] rest).2) := by
  induction line generalizing front with
  | nil =>
      have open' : ¬EndsLine front cr := fun ends => absurd ends.1 (by decide)
      have ends : EndsLine (front ++ [cr]) lf := ⟨rfl, List.getLast?_concat⟩
      change linesOf front (cr :: lf :: rest) = _
      rw [linesOf, if_neg open', linesOf, if_pos ends, List.dropLast_concat, List.append_nil]
  | cons byte line ih =>
      have other : byte ≠ lf := fun same => plain (same ▸ List.mem_cons_self)
      rw [List.cons_append, linesOf, if_neg (fun ends => other ends.1),
        ih _ (fun later => plain (List.mem_cons_of_mem byte later)), List.append_assoc]
      rfl

theorem lines_of_written {lines : List (List UInt8)} (plain : ∀ line ∈ lines, lf ∉ line) :
    (linesOf [] (lines.flatMap (· ++ crlf))).1 = lines := by
  induction lines with
  | nil => rfl
  | cons line lines ih =>
      rw [List.flatMap_cons, List.append_assoc,
        lines_of_line [] (plain line List.mem_cons_self),
        ih (fun other later => plain other (List.mem_cons_of_mem line later))]
      rfl

end Lines
end Xineliboutput.Foundation
