import Xineliboutput.Foundation.PackedWords

/-!
# Black lines

The functions of `xine_post_autocrop.c` that tell whether a line is black, in plain C, on words
of 64 bits, and with MMX and SSE. Each skips the borders of the line, starts at the next aligned
word and reads words from the end down, with a count that it takes from the length. A word that
is not wholly inside the line is not read: the answer is `none`.
-/

namespace Xineliboutput.Post

open Xineliboutput.Foundation

set_option autoImplicit false

/-! ## Lines -/

/-- What a function is called with: where the line lies, its length and what stands there. -/
structure Line where
  address : Nat
  length : Nat
  bytes : Nat → UInt8

namespace Line

variable (line : Line)

/-- `(data + skip + (width - 1)) & ~(width - 1)`, from the beginning of the line. -/
def base (skip width : Nat) : Nat :=
  (line.address + skip + (width - 1)) / width * width - line.address

def word (skip width : Nat) (i : Int) : Option (Word width) :=
  let offset := line.base skip width + width * i
  if 0 ≤ offset ∧ offset + width ≤ line.length then
    some fun k => line.bytes (offset.toNat + k.val)
  else none

end Line

/-! ## Loops -/

section Loops

variable {width : Nat}

/-- One round: `count` words below `length`, each filtered and joined with the sum. Several sums
of a round are joined after the loop, which makes no difference. -/
def joinDown (word : Int → Option (Word width)) (filter : Word width → Word width) :
    Nat → Int → Word width → Option (Int × Word width)
  | 0, length, sum => some (length, sum)
  | count + 1, length, sum => do
      let read ← word (length - 1)
      joinDown word filter count (length - 1) (sum.or (filter read))

def whileDown (goes : Int → Bool) (round : Int → Word width → Option (Int × Word width)) :
    Nat → Int → Word width → Option (Word width)
  | 0, _, _ => none
  | fuel + 1, length, sum =>
      if goes length then
        (round length sum).bind fun after => whileDown goes round fuel after.1 after.2
      else some sum

def doDown (goes : Int → Bool) (round : Int → Word width → Option (Int × Word width))
    (fuel : Nat) (length : Int) (sum : Word width) : Option (Word width) :=
  (round length sum).bind fun after => whileDown goes round fuel after.1 after.2

end Loops

/-! ## Luma -/

def ynoisefilter : UInt8 := 0xE0

/-- `while(length) r = r | data[--length];` -/
def joinLuma (width : Nat) (line : Line) : Option (Word width) :=
  whileDown (· != 0) (joinDown (line.word 32 width) id 1) (line.length + 1)
    (((line.length : Int) - 64).tdiv width) (Word.fill 0)

def blankLineYC (line : Line) : Option Bool :=
  (joinLuma 4 line).map fun r => (r.and (Word.fill ynoisefilter)).isZero

def blankLineYC64 (line : Line) : Option Bool :=
  (joinLuma 8 line).map fun r => (r.and (Word.fill ynoisefilter)).isZero

def blankLineYMmx (line : Line) : Option Bool :=
  (joinLuma 8 line).map fun sum =>
    let sum := sum.and (Word.fill ynoisefilter)
    decide ((Word.packSigned sum sum).toInt = 0)

def blankLineYSse (line : Line) : Option Bool :=
  (doDown (fun length => decide (0 < length)) (joinDown (line.word 32 16) id 2) (line.length + 1)
      (((line.length : Int) - 64).tdiv 16) (Word.fill 0)).map fun sum =>
    decide (Word.moveMask ((sum.and (Word.fill ynoisefilter)).compareEqual (Word.fill 0)) = 0x0f)

/-! ## Chroma -/

def uvblack : UInt8 := 0x80

def uvshiftup : UInt8 := 0x03

def uvnoisefilter : UInt8 := 0xF8

def shiftChroma {width : Nat} (word : Word width) : Word width :=
  (word.add (Word.fill uvshiftup)).xor (Word.fill uvblack)

def shiftChromaBytes {width : Nat} (word : Word width) : Word width :=
  (word.addBytes (Word.fill uvshiftup)).xor (Word.fill uvblack)

def joinChroma (width : Nat) (line : Line) : Option (Word width) :=
  whileDown (fun length => decide (0 < length)) (joinDown (line.word 16 width) shiftChroma 2)
    (line.length + 1) (((line.length : Int) - 32).tdiv width) (Word.fill 0)

def blankLineUVC (line : Line) : Option Bool :=
  (joinChroma 4 line).map fun r => (r.and (Word.fill uvnoisefilter)).isZero

def blankLineUVC64 (line : Line) : Option Bool :=
  (joinChroma 8 line).map fun r => (r.and (Word.fill uvnoisefilter)).isZero

def blankLineUVMmx (line : Line) : Option Bool :=
  (doDown (fun length => decide (0 < length)) (joinDown (line.word 16 8) shiftChromaBytes 2)
      (line.length + 1) (((line.length : Int) - 32).tdiv 8) (Word.fill 0)).map fun sum =>
    let sum := sum.and (Word.fill uvnoisefilter)
    decide ((Word.packSigned sum sum).toInt = 0)

def blankLineUVSse (line : Line) : Option Bool := blankLineUVMmx line

/-! ## Packed lines -/

def alternating {width : Nat} (luma chroma : UInt8) : Word width :=
  fun i => if i.val % 2 = 0 then luma else chroma

def shiftPacked {width : Nat} (word : Word width) : Word width :=
  (word.add (alternating 0 uvshiftup)).xor (alternating 0 uvblack)

def blankLineYUY2 (width : Nat) (line : Line) : Option Bool :=
  (whileDown (· != 0) (joinDown (line.word 64 width) shiftPacked 2) (line.length + 1)
      (((line.length : Int) - 128).tdiv width) (Word.fill 0)).map fun r =>
    (r.and (alternating ynoisefilter uvnoisefilter)).isZero

def blankLineYUY2C : Line → Option Bool := blankLineYUY2 4

def blankLineYUY2C64 : Line → Option Bool := blankLineYUY2 8

def blankLineYUY2Mmx (enable64Bit : Bool) : Line → Option Bool :=
  if enable64Bit then blankLineYUY2C64 else blankLineYUY2C

def blankLineYUY2Sse (enable64Bit : Bool) : Line → Option Bool := blankLineYUY2Mmx enable64Bit

/-! ## Loops that end -/

section Ends

variable {width : Nat} {word : Int → Option (Word width)} {filter : Word width → Word width}
  {goes : Int → Bool} {wordAt : Nat → Word width} {mask : Word width}

theorem join_down_clear (count below : Nat) (sum : Word width)
    (reads : ∀ j, below ≤ j → j < below + count → word j = some (wordAt j)) :
    ∃ after, joinDown word filter count (below + count : Nat) sum = some ((below : Int), after) ∧
      (Word.Clear mask after ↔ Word.Clear mask sum ∧
        ∀ j, below ≤ j → j < below + count → Word.Clear mask (filter (wordAt j))) := by
  induction count generalizing sum with
  | zero =>
      refine ⟨sum, rfl, ?_⟩
      exact ⟨fun clear => ⟨clear, fun j lower upper => by omega⟩, And.left⟩
  | succ count ih =>
      obtain ⟨after, joined, clear⟩ := ih (sum.or (filter (wordAt (below + count))))
        (fun j lower upper => reads j lower (by omega))
      refine ⟨after, ?_, ?_⟩
      · have last : ((below + (count + 1) : Nat) : Int) - 1 = (below + count : Nat) := by omega
        rw [joinDown, last, reads (below + count) (by omega) (by omega)]
        exact joined
      · rw [clear, Word.clear_or, and_assoc]
        apply and_congr_right
        intro _
        constructor
        · rintro ⟨top, others⟩ j lower upper
          by_cases here : j = below + count
          · rw [here]
            exact top
          · exact others j lower (by omega)
        · intro all
          exact ⟨all _ (by omega) (by omega), fun j lower upper => all j lower (by omega)⟩

/-- A loop whose count is a number of whole rounds joins every word below it. -/
theorem while_down_clear {count : Nat} (rounds : Nat) {fuel : Nat} (enough : rounds < fuel)
    (sum : Word width) (more : ∀ left : Nat, 0 < left → goes left = true)
    (done : goes 0 = false) (some' : 0 < count)
    (reads : ∀ j, j < count * rounds → word j = some (wordAt j)) :
    ∃ after, whileDown goes (joinDown word filter count) fuel (count * rounds : Nat) sum =
        some after ∧
      (Word.Clear mask after ↔ Word.Clear mask sum ∧
        ∀ j, j < count * rounds → Word.Clear mask (filter (wordAt j))) := by
  induction rounds generalizing sum fuel with
  | zero =>
      obtain ⟨fuel, rfl⟩ : ∃ rest, fuel = rest + 1 := ⟨fuel - 1, by omega⟩
      refine ⟨sum, ?_, ?_⟩
      · rw [whileDown, Nat.mul_zero]
        simp [done]
      · exact ⟨fun clear => ⟨clear, fun j upper => by omega⟩, And.left⟩
  | succ rounds ih =>
      obtain ⟨fuel, rfl⟩ : ∃ rest, fuel = rest + 1 := ⟨fuel - 1, by omega⟩
      have whole : count * (rounds + 1) = count * rounds + count := Nat.mul_succ count rounds
      obtain ⟨joined, round, clearRound⟩ := @join_down_clear width word filter wordAt mask count
        (count * rounds) sum (fun j lower upper => reads j (by omega))
      obtain ⟨after, ended, clearRest⟩ := @ih fuel (by omega) joined
        (fun j upper => reads j (by omega))
      refine ⟨after, ?_, ?_⟩
      · rw [whileDown, if_pos (more _ (by omega)), whole, round]
        exact ended
      · rw [clearRest, clearRound, and_assoc]
        apply and_congr_right
        intro _
        constructor
        · rintro ⟨top, others⟩ j upper
          by_cases low : j < count * rounds
          · exact others j low
          · exact top j (by omega) (by omega)
        · intro all
          exact ⟨fun j lower upper => all j (by omega), fun j upper => all j (by omega)⟩

theorem do_down_eq {round : Int → Word width → Option (Int × Word width)} {length : Int}
    (first : goes length = true) (fuel : Nat) (sum : Word width) :
    doDown goes round fuel length sum = whileDown goes round (fuel + 1) length sum := by
  rw [whileDown, if_pos first]
  rfl

end Ends

end Xineliboutput.Post
