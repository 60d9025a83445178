import Xineliboutput.Post.BlankLineAgreement
import Xineliboutput.Post.FrameAnalysis

/-!
# Where the black line functions end

For which lengths a function returns after reading nothing but the line. It depends on the count
of words: a loop that tests for zero runs past zero where the count is negative, or odd with two
words a round, and the loops with a test at their end read two words in any case.
-/

namespace Xineliboutput.Post

open Xineliboutput.Foundation

set_option autoImplicit false

/-! ## Reading -/

section Reading

variable {width skip count : Nat} {line : Line} {filter : Word width → Word width}
  {goes : Int → Bool}

theorem base_range (line : Line) (skip : Nat) {width : Nat} (positive : 0 < width) :
    skip ≤ line.base skip width ∧ line.base skip width < skip + width := by
  have whole := Nat.div_add_mod' (line.address + skip + (width - 1)) width
  have rest := Nat.mod_lt (line.address + skip + (width - 1)) positive
  unfold Line.base
  omega

theorem word_is_some (i : Int) : (line.word skip width i).isSome = true ↔
    0 ≤ (line.base skip width : Int) + width * i ∧
      (line.base skip width : Int) + width * i + width ≤ line.length := by
  unfold Line.word
  dsimp only
  split_ifs with inside
  · exact iff_of_true rfl inside
  · exact iff_of_false Bool.false_ne_true inside

theorem join_down_is_some {word : Int → Option (Word width)} (count : Nat) (length : Int)
    (sum : Word width) :
    (joinDown word filter count length sum).isSome = true ↔
      ∀ j < count, (word (length - 1 - j)).isSome = true := by
  induction count generalizing length sum with
  | zero => simp [joinDown]
  | succ count ih =>
      rw [joinDown]
      cases found : word (length - 1) with
      | none =>
          refine iff_of_false Bool.false_ne_true ?_
          intro all
          have first := all 0 (Nat.succ_pos count)
          simp [found] at first
      | some read =>
          rw [Option.bind_eq_bind, Option.bind_some, ih]
          constructor
          · intro all j before
            cases j with
            | zero => simp [found]
            | succ j =>
                have later := all j (by omega)
                rwa [show length - 1 - ((j + 1 : Nat) : Int) = length - 1 - 1 - (j : Int) by omega]
          · intro all j before
            have later := all (j + 1) (by omega)
            rwa [show length - 1 - ((j + 1 : Nat) : Int) = length - 1 - 1 - (j : Int) by omega]
              at later

theorem join_down_length {word : Int → Option (Word width)} {count : Nat} {length : Int}
    {sum : Word width} {after : Int × Word width}
    (joined : joinDown word filter count length sum = some after) : after.1 = length - count := by
  induction count generalizing length sum with
  | zero =>
      cases joined
      exact (Int.sub_zero length).symm
  | succ count ih =>
      rcases Option.bind_eq_some_iff.mp joined with ⟨read, -, joined⟩
      rw [ih joined]
      omega

end Reading

/-! ## Ending -/

section Ending

variable {width skip count : Nat} {line : Line} {filter : Word width → Word width}
  {goes : Int → Bool}

/-- The fuel never decides: it is more than a loop that stays in the line can use. -/
theorem while_down_fuel (positive : 0 < width) (some' : 0 < count) {limit fuel : Nat}
    (enough : limit < fuel) {length : Int} (inside : line.base skip width + width * length ≤ limit)
    (sum : Word width) :
    whileDown goes (joinDown (line.word skip width) filter count) fuel length sum =
      whileDown goes (joinDown (line.word skip width) filter count) (fuel + 1) length sum := by
  induction fuel generalizing limit length sum with
  | zero => omega
  | succ fuel ih =>
      rw [whileDown, whileDown]
      split_ifs with onward
      · cases joined : joinDown (line.word skip width) filter count length sum with
        | none => rfl
        | some after =>
            have first := (join_down_is_some count length sum).mp (Option.isSome_of_eq_some joined)
              0 some'
            have read := ((word_is_some _).mp first).1
            have left := join_down_length joined
            rw [Option.bind_some, Option.bind_some]
            have step : (width : Int) * (length - 1 - (0 : Nat)) = width * length - width := by
              rw [Int.natCast_zero, Int.sub_zero, Int.mul_sub, Int.mul_one]
            have lower : (width : Int) * (length - count) ≤ width * length - width := by
              rw [← step]
              exact Int.mul_le_mul_of_nonneg_left (by omega) (by omega)
            have less : ((limit - 1 : Nat) : Int) = limit - 1 := by omega
            exact ih (by omega : limit - 1 < fuel) (by rw [left, less]; omega) _
      · rfl

theorem while_not_zero_none {word : Int → Option (Word width)} (fuel : Nat) {length : Int}
    (beyond : ∀ rounds : Nat, length ≠ count * rounds) (sum : Word width) :
    whileDown (· != 0) (joinDown word filter count) fuel length sum = none := by
  induction fuel generalizing length sum with
  | zero => rfl
  | succ fuel ih =>
      have first := beyond 0
      rw [whileDown, if_pos (by simpa using first)]
      cases joined : joinDown word filter count length sum with
      | none => rfl
      | some after =>
          rw [Option.bind_some]
          apply ih
          intro rounds same
          apply beyond (rounds + 1)
          rw [join_down_length joined] at same
          push_cast
          rw [Int.mul_add]
          omega

theorem while_not_zero_some {word : Int → Option (Word width)} (rounds : Nat) {fuel : Nat}
    (enough : rounds < fuel) (some' : 0 < count)
    (reads : ∀ j : Nat, j < count * rounds → (word j).isSome = true) (sum : Word width) :
    (whileDown (· != 0) (joinDown word filter count) fuel (count * rounds : Nat) sum).isSome =
      true := by
  have found : ∀ j : Nat, j < count * rounds →
      word j = some ((word j).getD (Word.fill 0)) := by
    intro j upper
    obtain ⟨read, found⟩ := Option.isSome_iff_exists.mp (reads j upper)
    rw [found, Option.getD_some]
  obtain ⟨after, ended, -⟩ := @while_down_clear width word filter (· != 0)
    (fun j => (word j).getD (Word.fill 0)) (Word.fill 0) count rounds fuel enough sum
    (fun left positive => by simpa using Nat.ne_of_gt positive) rfl some' found
  exact Option.isSome_of_eq_some ended

/-- A loop that tests for more than zero ends, if the words of its last round are in the line. -/
theorem while_positive_some {word : Int → Option (Word width)} (fuel : Nat) {length : Int}
    (enough : length ≤ fuel) (some' : 0 < count)
    (reads : 0 < length → ∀ i, -(count : Int) < i → i < length → (word i).isSome = true)
    (sum : Word width) :
    (whileDown (fun length => decide (0 < length)) (joinDown word filter count) (fuel + 1) length
      sum).isSome = true := by
  induction fuel generalizing length sum with
  | zero =>
      rw [whileDown, if_neg (by simpa using enough)]
      rfl
  | succ fuel ih =>
      rw [whileDown]
      split_ifs with onward
      · rw [decide_eq_true_iff] at onward
        obtain ⟨after, joined⟩ := Option.isSome_iff_exists.mp
          ((@join_down_is_some width filter word count length sum).mpr
            (fun j before => reads onward _ (by omega) (by omega)))
        have left := join_down_length joined
        rw [joined, Option.bind_some]
        exact ih (by omega) (fun _ i lower upper => reads onward i lower (by omega)) _
      · rfl

theorem do_positive_some {word : Int → Option (Word width)} (fuel : Nat) {length : Int}
    (enough : length ≤ fuel) (some' : 0 < count) (counts : 0 ≤ length)
    (reads : ∀ i, -(count : Int) ≤ i → i < length → (word i).isSome = true) (sum : Word width) :
    (doDown (fun length => decide (0 < length)) (joinDown word filter count) (fuel + 1) length
      sum).isSome = true := by
  obtain ⟨after, joined⟩ := Option.isSome_iff_exists.mp
    ((@join_down_is_some width filter word count length sum).mpr
      (fun j before => reads _ (by omega) (by omega)))
  have left := join_down_length joined
  rw [doDown, joined, Option.bind_some]
  exact while_positive_some fuel (by omega) some'
    (fun _ i lower upper => reads i (by omega) (by omega)) _

theorem join_down_clear_iff {word : Int → Option (Word width)} {mask : Word width} {length : Int}
    {sum : Word width} {after : Int × Word width}
    (joined : joinDown word filter count length sum = some after) :
    Word.Clear mask after.2 ↔ Word.Clear mask sum ∧ ∀ i, length - count ≤ i → i < length →
      ∀ read, word i = some read → Word.Clear mask (filter read) := by
  induction count generalizing length sum with
  | zero =>
      cases joined
      exact ⟨fun clear => ⟨clear, fun i lower upper => by omega⟩, And.left⟩
  | succ count ih =>
      rcases Option.bind_eq_some_iff.mp joined with ⟨top, found, joined⟩
      rw [ih joined, Word.clear_or, and_assoc]
      apply and_congr_right
      intro _
      constructor
      · rintro ⟨first, others⟩ i lower upper read here
        by_cases last : i = length - 1
        · rw [last, found] at here
          cases here
          exact first
        · exact others i (by omega) (by omega) read here
      · intro all
        exact ⟨all _ (by omega) (by omega) top found,
          fun i lower upper => all i (by omega) (by omega)⟩

theorem while_pairs_clear_iff {word : Int → Option (Word width)} {mask : Word width} {fuel : Nat}
    {length : Int} {sum after : Word width}
    (ended : whileDown (fun length => decide (0 < length)) (joinDown word filter 2) fuel length sum =
      some after) :
    Word.Clear mask after ↔ Word.Clear mask sum ∧ (0 < length → ∀ i, -(length % 2) ≤ i →
      i < length → ∀ read, word i = some read → Word.Clear mask (filter read)) := by
  induction fuel generalizing length sum with
  | zero => cases ended
  | succ fuel ih =>
      rw [whileDown] at ended
      split_ifs at ended with onward
      · rw [decide_eq_true_iff] at onward
        rcases Option.bind_eq_some_iff.mp ended with ⟨next, joined, ended⟩
        have left := join_down_length joined
        rw [ih ended, join_down_clear_iff joined, left, and_assoc]
        apply and_congr_right
        intro _
        constructor
        · rintro ⟨round, others⟩ - i lower upper read here
          by_cases last : length - (2 : Nat) ≤ i
          · exact round i last upper read here
          · exact others (by omega) i (by omega) (by omega) read here
        · intro all
          exact ⟨fun i lower upper => all onward i (by omega) upper,
            fun _ i lower upper => all onward i (by omega) (by omega)⟩
      · cases ended
        rw [decide_eq_true_iff] at onward
        exact ⟨fun clear => ⟨clear, fun more => absurd more onward⟩, And.left⟩

theorem do_pairs_clear_iff {word : Int → Option (Word width)} {mask : Word width} {fuel : Nat}
    {length : Int} {sum after : Word width} (counts : 0 ≤ length)
    (ended : doDown (fun length => decide (0 < length)) (joinDown word filter 2) fuel length sum =
      some after) :
    Word.Clear mask after ↔ Word.Clear mask sum ∧
      ∀ i, (if 0 < length then -(length % 2) else -2) ≤ i → i < length →
        ∀ read, word i = some read → Word.Clear mask (filter read) := by
  rcases counts.eq_or_lt with none' | onward
  · subst none'
    rcases Option.bind_eq_some_iff.mp ended with ⟨next, joined, ended⟩
    have left := join_down_length joined
    rw [while_pairs_clear_iff ended, join_down_clear_iff joined, left]
    simp
  · have first : decide (0 < length) = true := decide_eq_true onward
    rw [do_down_eq first] at ended
    rw [while_pairs_clear_iff ended, if_pos onward]
    exact and_congr_right fun _ => ⟨fun all => all onward, fun all _ => all⟩

end Ending

/-! ## Lengths -/

section Lengths

variable {width skip : Nat} {line : Line}

theorem count_off {cut : Int} {left : Nat} (same : cut = left) (width : Nat) :
    cut.tdiv width = (left / width : Nat) := by
  rw [same]
  rfl

theorem count_over {cut : Int} {missing : Nat} (same : cut = -missing) (width : Nat) :
    cut.tdiv width = -((missing / width : Nat) : Int) := by
  rw [same, Int.neg_tdiv]
  rfl

/-- A loop that tests for zero. Fewer bytes than a word may be missing: the count is zero. -/
theorem while_not_zero_is_some {borders count : Nat} {filter : Word width → Word width}
    (words : width = 4 ∨ width = 8) (some' : 0 < count) (skipped : borders = 2 * skip)
    (room : 8 ≤ skip) (sum : Word width) :
    (whileDown (· != 0) (joinDown (line.word skip width) filter count) (line.length + 1)
        (((line.length : Int) - borders).tdiv width) sum).isSome = true ↔
      borders < line.length + width ∧ (line.length - borders) / width % count = 0 := by
  have positive : 0 < width := by omega
  have base := base_range line skip positive
  by_cases long : borders ≤ line.length
  · have whole := Nat.div_mul_le_self (line.length - borders) width
    have less := Nat.div_le_self (line.length - borders) width
    rw [count_off (by omega : (line.length : Int) - borders = (line.length - borders : Nat))]
    by_cases even : (line.length - borders) / width % count = 0
    · refine iff_of_true ?_ ⟨by omega, even⟩
      have rounds := Nat.mul_div_cancel' (Nat.dvd_of_mod_eq_zero even)
      have fewer := Nat.div_le_self ((line.length - borders) / width) count
      rw [← rounds]
      apply while_not_zero_some _ (by omega) some'
      intro j upper
      rw [rounds] at upper
      rw [word_is_some]
      rcases words with rfl | rfl <;> omega
    · refine iff_of_false ?_ (fun ends => even ends.2)
      rw [while_not_zero_none _ (fun rounds same => even ?_)]
      · exact Bool.false_ne_true
      · rw [Int.ofNat_inj.mp same]
        exact Nat.mul_mod_right count rounds
  · rw [count_over (by omega : (line.length : Int) - borders = -(borders - line.length : Nat))]
    by_cases part : borders < line.length + width
    · rw [Nat.div_eq_of_lt (by omega), Nat.sub_eq_zero_of_le (by omega), Nat.zero_div,
        Nat.zero_mod]
      exact iff_of_true rfl ⟨part, rfl⟩
    · refine iff_of_false ?_ (fun ends => part ends.1)
      have below := Nat.div_pos (by omega : width ≤ borders - line.length) positive
      rw [while_not_zero_none _ (fun rounds same => ?_)]
      · exact Bool.false_ne_true
      · have up := Int.mul_nonneg (Int.natCast_nonneg count) (Int.natCast_nonneg rounds)
        omega

theorem join_luma_is_some (words : width = 4 ∨ width = 8) :
    (joinLuma width line).isSome = true ↔ 64 < line.length + width := by
  have ends := @while_not_zero_is_some width 32 line 64 1 id words Nat.one_pos rfl (by decide)
    (Word.fill 0)
  rw [Nat.mod_one, and_iff_left rfl] at ends
  exact ends

theorem blank_line_yuy2_is_some (words : width = 4 ∨ width = 8) :
    (blankLineYUY2 width line).isSome = true ↔
      128 < line.length + width ∧ (line.length - 128) / width % 2 = 0 := by
  unfold blankLineYUY2
  rw [Option.isSome_map]
  exact while_not_zero_is_some words (by decide) rfl (by decide) _

/-- The count is zero where it would be negative: two words are read below it. -/
theorem do_down_is_some {filter : Word width → Word width} {fuel : Nat}
    (words : width = 8 ∨ width = 16) (enough : line.length ≤ fuel) (sum : Word width) :
    (doDown (fun length => decide (0 < length)) (joinDown (line.word (2 * width) width) filter 2)
      (fuel + 1) (((line.length : Int) - (4 * width : Nat)).tdiv width) sum).isSome = true ↔
        3 * width < line.length := by
  have positive : 0 < width := by omega
  have base := base_range line (2 * width) positive
  by_cases counts : 3 * width < line.length
  · refine iff_of_true ?_ counts
    have count : ∃ count : Nat, ((line.length : Int) - (4 * width : Nat)).tdiv width = count ∧
        width * count + 4 * width ≤ line.length + (width - 1) ∧
        (0 < count → width * count + 4 * width ≤ line.length) := by
      by_cases long : 4 * width ≤ line.length
      · have whole := Nat.mul_div_le (line.length - 4 * width) width
        exact ⟨_, count_off (by omega :
          (line.length : Int) - (4 * width : Nat) = (line.length - 4 * width : Nat)) width, by omega,
          by omega⟩
      · refine ⟨0, ?_, by omega, by omega⟩
        rw [count_over (by omega : (line.length : Int) - (4 * width : Nat) =
          -(4 * width - line.length : Nat)), Nat.div_eq_of_lt (by omega)]
        rfl
    obtain ⟨count, same, whole, some'⟩ := count
    rw [same]
    apply do_positive_some fuel _ (by decide) (by omega)
    · intro i lower upper
      rw [word_is_some]
      rcases words with rfl | rfl <;> omega
    · rcases words with rfl | rfl <;> omega
  · refine iff_of_false ?_ counts
    have beyond := Nat.div_pos (by omega : width ≤ 4 * width - line.length) positive
    rw [count_over (by omega : (line.length : Int) - (4 * width : Nat) =
      -(4 * width - line.length : Nat)), doDown]
    cases joined : joinDown (line.word (2 * width) width) filter 2
        (-(((4 * width - line.length) / width : Nat) : Int)) sum with
    | none => exact Bool.false_ne_true
    | some after =>
        have read := (join_down_is_some 2 _ sum).mp (Option.isSome_of_eq_some joined) 1 (by decide)
        rw [word_is_some] at read
        rcases words with rfl | rfl <;> omega

theorem join_chroma_is_some (words : width = 4 ∨ width = 8) :
    (joinChroma width line).isSome = true := by
  have positive : 0 < width := by omega
  have base := base_range line 16 positive
  unfold joinChroma
  by_cases long : 32 ≤ line.length
  · have whole := Nat.div_mul_le_self (line.length - 32) width
    rw [count_off (by omega : (line.length : Int) - 32 = (line.length - 32 : Nat))]
    apply while_positive_some line.length _ (by decide)
    · intro i lower upper
      rw [word_is_some]
      rcases words with rfl | rfl <;> omega
    · have := Nat.div_le_self (line.length - 32) width
      omega
  · rw [count_over (by omega : (line.length : Int) - 32 = -(32 - line.length : Nat))]
    generalize (32 - line.length) / width = missing
    apply while_positive_some line.length (by omega) (by decide)
    intro i lower upper
    omega

end Lengths

/-! ## Versions -/

/-- What `autocrop_init_mm_accel` chooses. -/
inductive Accel where
  | c
  | c64
  | mmx
  | sse

section Versions

variable (accel : Accel) (enable64Bit : Bool)

def blankLineY : Accel → Line → Option Bool
  | .c => blankLineYC
  | .c64 => blankLineYC64
  | .mmx => blankLineYMmx
  | .sse => blankLineYSse

def blankLineUV : Accel → Line → Option Bool
  | .c => blankLineUVC
  | .c64 => blankLineUVC64
  | .mmx => blankLineUVMmx
  | .sse => blankLineUVSse

def blankLinePacked : Accel → Line → Option Bool
  | .c => blankLineYUY2C
  | .c64 => blankLineYUY2C64
  | .mmx => blankLineYUY2Mmx enable64Bit
  | .sse => blankLineYUY2Sse enable64Bit

def shortestLuma : Accel → Nat
  | .c => 61
  | .c64 | .mmx => 57
  | .sse => 49

def shortestChroma : Accel → Nat
  | .c | .c64 => 0
  | .mmx | .sse => 25

def packedWidth : Accel → Nat
  | .c => 4
  | .c64 => 8
  | .mmx | .sse => if enable64Bit then 8 else 4

def PackedEnds (length : Nat) : Prop :=
  128 < length + packedWidth enable64Bit accel ∧
    (length - 128) / packedWidth enable64Bit accel % 2 = 0

instance (length : Nat) : Decidable (PackedEnds accel enable64Bit length) :=
  inferInstanceAs (Decidable (_ ∧ _))

variable {accel enable64Bit} {line : Line}

theorem blank_line_y_is_some :
    (blankLineY accel line).isSome = true ↔ shortestLuma accel ≤ line.length := by
  cases accel with
  | c =>
      change (blankLineYC line).isSome = true ↔ 61 ≤ line.length
      rw [blankLineYC, Option.isSome_map, join_luma_is_some (Or.inl rfl)]
      omega
  | c64 =>
      change (blankLineYC64 line).isSome = true ↔ 57 ≤ line.length
      rw [blankLineYC64, Option.isSome_map, join_luma_is_some (Or.inr rfl)]
      omega
  | mmx =>
      change (blankLineYMmx line).isSome = true ↔ 57 ≤ line.length
      rw [blankLineYMmx, Option.isSome_map, join_luma_is_some (Or.inr rfl)]
      omega
  | sse =>
      change (blankLineYSse line).isSome = true ↔ 49 ≤ line.length
      rw [blankLineYSse, Option.isSome_map]
      exact do_down_is_some (Or.inr rfl) (Nat.le_refl _) _

theorem blank_line_uv_mmx_is_some :
    (blankLineUVMmx line).isSome = true ↔ 25 ≤ line.length := by
  rw [blankLineUVMmx, Option.isSome_map]
  exact do_down_is_some (Or.inl rfl) (Nat.le_refl _) _

theorem blank_line_uv_is_some :
    (blankLineUV accel line).isSome = true ↔ shortestChroma accel ≤ line.length := by
  cases accel with
  | c =>
      refine iff_of_true ?_ (Nat.zero_le _)
      rw [blankLineUV, blankLineUVC, Option.isSome_map]
      exact join_chroma_is_some (Or.inl rfl)
  | c64 =>
      refine iff_of_true ?_ (Nat.zero_le _)
      rw [blankLineUV, blankLineUVC64, Option.isSome_map]
      exact join_chroma_is_some (Or.inr rfl)
  | mmx => exact blank_line_uv_mmx_is_some
  | sse => exact blank_line_uv_mmx_is_some

theorem blank_line_packed_is_some : (blankLinePacked enable64Bit accel line).isSome = true ↔
    PackedEnds accel enable64Bit line.length := by
  cases accel with
  | c => exact blank_line_yuy2_is_some (Or.inl rfl)
  | c64 => exact blank_line_yuy2_is_some (Or.inr rfl)
  | mmx | sse =>
      cases enable64Bit with
      | false => exact blank_line_yuy2_is_some (Or.inl rfl)
      | true => exact blank_line_yuy2_is_some (Or.inr rfl)

/-! ## Black chroma -/

def chromaWidth : Accel → Nat
  | .c => 4
  | .c64 | .mmx | .sse => 8

def chromaCount (accel : Accel) (length : Nat) : Int :=
  ((length : Int) - 32).tdiv (chromaWidth accel)

/-- Two words are read a round, so that an odd count ends below zero. -/
def lowestChroma (accel : Accel) (length : Nat) : Int :=
  if 0 < chromaCount accel length then -(chromaCount accel length % 2)
  else
    match accel with
    | .c | .c64 => 0
    | .mmx | .sse => -2

/-- Every byte of the words that are read is close to the black of chroma. -/
def ChromaBlack (accel : Accel) (line : Line) : Prop :=
  ∀ i, lowestChroma accel line.length ≤ i → i < chromaCount accel line.length →
    ∀ read, line.word 16 (chromaWidth accel) i = some read →
      ∀ k, 0x7d ≤ (read k).toNat ∧ (read k).toNat ≤ 0x84

theorem join_chroma_clear_iff {width : Nat} {sum : Word width}
    (joined : joinChroma width line = some sum) :
    Word.Clear (Word.fill uvnoisefilter) sum ↔ (0 < ((line.length : Int) - 32).tdiv width → ∀ i,
      -(((line.length : Int) - 32).tdiv width % 2) ≤ i → i < ((line.length : Int) - 32).tdiv width →
        ∀ read, line.word 16 width i = some read →
          ∀ k, 0x7d ≤ (read k).toNat ∧ (read k).toNat ≤ 0x84) := by
  rw [while_pairs_clear_iff joined, and_iff_right (Word.clear_zero _)]
  simp only [shift_chroma_clear]

theorem chroma_black_plain {accel : Accel} (plain : accel = .c ∨ accel = .c64) :
    ChromaBlack accel line ↔ (0 < chromaCount accel line.length → ∀ i,
      -(chromaCount accel line.length % 2) ≤ i → i < chromaCount accel line.length →
        ∀ read, line.word 16 (chromaWidth accel) i = some read →
          ∀ k, 0x7d ≤ (read k).toNat ∧ (read k).toNat ≤ 0x84) := by
  unfold ChromaBlack lowestChroma
  by_cases more : 0 < chromaCount accel line.length
  · rw [if_pos more]
    exact ⟨fun all _ => all, fun all => all more⟩
  · rw [if_neg more]
    refine iff_of_true (fun i lower upper => ?_) (fun more' => absurd more' more)
    rcases plain with rfl | rfl <;> dsimp only at lower <;> omega

theorem chroma_black_mmx {blank : Bool} (answered : blankLineUVMmx line = some blank) :
    blank = true ↔ ChromaBlack .mmx line := by
  have long := blank_line_uv_mmx_is_some.mp (Option.isSome_of_eq_some answered)
  have counts : 0 ≤ ((line.length : Int) - 32).tdiv (8 : Nat) := by
    by_cases borders : 32 ≤ line.length
    · rw [count_off (by omega : (line.length : Int) - 32 = (line.length - 32 : Nat))]
      exact Int.natCast_nonneg _
    · rw [count_over (by omega : (line.length : Int) - 32 = -(32 - line.length : Nat)),
        Nat.div_eq_of_lt (by omega)]
      exact Int.le_refl 0
  obtain ⟨sum, joined, rfl⟩ := Option.map_eq_some_iff.mp answered
  rw [decide_eq_true_iff, Word.pack_signed_zero]
  have clear : Word.Clear (Word.fill uvnoisefilter) sum ↔ _ := do_pairs_clear_iff counts joined
  rw [and_iff_right (Word.clear_zero _)] at clear
  simp only [shift_chroma_bytes_clear] at clear
  exact clear

theorem blank_line_uv_iff {blank : Bool} (answered : blankLineUV accel line = some blank) :
    blank = true ↔ ChromaBlack accel line := by
  cases accel with
  | c =>
      obtain ⟨sum, joined, rfl⟩ := Option.map_eq_some_iff.mp answered
      rw [Word.masked_is_zero, join_chroma_clear_iff joined, chroma_black_plain (Or.inl rfl)]
      rfl
  | c64 =>
      obtain ⟨sum, joined, rfl⟩ := Option.map_eq_some_iff.mp answered
      rw [Word.masked_is_zero, join_chroma_clear_iff joined, chroma_black_plain (Or.inr rfl)]
      rfl
  | mmx => exact chroma_black_mmx answered
  | sse => exact chroma_black_mmx answered

end Versions

end Xineliboutput.Post
