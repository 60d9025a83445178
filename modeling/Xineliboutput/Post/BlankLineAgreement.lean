import Mathlib.Data.Fintype.Defs
import Xineliboutput.Post.BlankLines

/-!
# The black line functions compared

On aligned lines of whole words, all versions look at the same bytes. Their results are those of
a rule on each byte, but for SSE: it compares lanes as floating point numbers, to which a lane
with nothing but its sign is a zero.
-/

namespace Xineliboutput.Post

open Xineliboutput.Foundation

set_option autoImplicit false

/-! ## The rules -/

/-- A line that the frame analysis checks, of whole blocks and not too short. -/
structure CheckedLine (shortest : Nat) extends Line where
  aligned : address % 16 = 0
  whole : length % 32 = 0
  long : shortest ≤ length

namespace Line

variable (line : Line)

/-- No byte but in the first and the last 32 has a bit of the noise filter. -/
def BlackLuma : Prop := ∀ i < line.length - 64, line.bytes (32 + i) &&& ynoisefilter = 0

/-- Every byte but the first and the last 16 is close to the black of chroma. -/
def BlackChroma : Prop :=
  ∀ i < line.length - 32, 0x7d ≤ (line.bytes (16 + i)).toNat ∧ (line.bytes (16 + i)).toNat ≤ 0x84

def signMask (i : Nat) : UInt8 := if i % 4 = 3 then 0x60 else 0xE0

/-- The bits of the noise filter that the line has are signs of lanes, and it has one. -/
def SignsOnly : Prop :=
  (∀ i < line.length - 64, line.bytes (32 + i) &&& signMask i = 0) ∧
    ∃ i < line.length - 64, line.bytes (32 + i) &&& ynoisefilter ≠ 0

instance : Decidable line.BlackLuma := inferInstanceAs (Decidable (∀ _ < _, _))

instance : Decidable line.BlackChroma := inferInstanceAs (Decidable (∀ _ < _, _))

instance : Decidable line.SignsOnly :=
  inferInstanceAs (Decidable ((∀ _ < _, _) ∧ ∃ i < line.length - 64,
    line.bytes (32 + i) &&& ynoisefilter ≠ 0))

end Line

structure LumaAgrees (line : Line) : Prop where
  c : blankLineYC line = some (decide line.BlackLuma)
  c64 : blankLineYC64 line = some (decide line.BlackLuma)
  mmx : blankLineYMmx line = some (decide line.BlackLuma)
  sse : blankLineYSse line = some (decide line.BlackLuma)

structure ChromaAgrees (line : Line) : Prop where
  c : blankLineUVC line = some (decide line.BlackChroma)
  c64 : blankLineUVC64 line = some (decide line.BlackChroma)
  mmx : blankLineUVMmx line = some (decide line.BlackChroma)
  sse : blankLineUVSse line = some (decide line.BlackChroma)

/-! ## Bytes -/

theorem byte_cases {Holds : UInt8 → Prop} (all : ∀ i : Fin 256, Holds (UInt8.ofNat i.val))
    (byte : UInt8) : Holds byte := by
  have same := all ⟨byte.toNat, byte.toNat_lt⟩
  rwa [UInt8.ofNat_toNat] at same

theorem chroma_byte_iff (byte : UInt8) :
    ((byte + uvshiftup) ^^^ uvblack) &&& uvnoisefilter = 0 ↔
      0x7d ≤ byte.toNat ∧ byte.toNat ≤ 0x84 := by
  revert byte
  exact byte_cases (by decide +kernel)

theorem sign_byte_iff (byte : UInt8) :
    (byte &&& ynoisefilter).toNat % 128 = 0 ↔ byte &&& 0x60 = 0 := by
  revert byte
  exact byte_cases (by decide +kernel)

/-! ## Words -/

section Words

variable {width skip : Nat} {line : Line}

theorem masked_is_zero_eq {rule : Prop} [Decidable rule] {mask sum : Word width}
    (clear : Word.Clear mask sum ↔ rule) : (sum.and mask).isZero = decide rule := by
  rw [Bool.eq_iff_iff, Word.masked_is_zero, decide_eq_true_iff, clear]

theorem masked_pack_eq {rule : Prop} [Decidable rule] {mask sum : Word 8}
    (clear : Word.Clear mask sum ↔ rule) :
    decide ((Word.packSigned (sum.and mask) (sum.and mask)).toInt = 0) = decide rule := by
  rw [decide_eq_decide, Word.pack_signed_zero, ← clear]
  rfl

/-- The bytes of `count` words behind the border. -/
theorem words_cover {Holds : Nat → Prop} (positive : 0 < width) (count : Nat) :
    (∀ j < count, ∀ k : Fin width, Holds (width * j + k.val)) ↔ ∀ i < width * count, Holds i := by
  constructor
  · intro all i inside
    have byte := all (i / width) (Nat.div_lt_of_lt_mul inside) ⟨i % width, Nat.mod_lt i positive⟩
    rwa [Nat.div_add_mod] at byte
  · intro all j before k
    apply all
    calc width * j + k.val < width * j + width := Nat.add_lt_add_left k.isLt _
      _ = width * (j + 1) := (Nat.mul_succ width j).symm
      _ ≤ width * count := Nat.mul_le_mul_left width before

def Line.wordAt (line : Line) (skip width j : Nat) : Word width :=
  fun k => line.bytes (skip + (width * j + k.val))

theorem aligned_word (base : line.base skip width = skip) {j : Nat}
    (inside : skip + width * (j + 1) ≤ line.length) :
    line.word skip width (j : Int) = some (line.wordAt skip width j) := by
  have offset : ((line.base skip width : Nat) : Int) + (width : Int) * (j : Int) =
      (skip + width * j : Nat) := by
    rw [base]
    push_cast
    rfl
  unfold Line.word
  dsimp only
  rw [offset, if_pos (by rw [Nat.mul_succ] at inside; omega)]
  unfold Line.wordAt
  congr 1
  funext k
  rw [Int.toNat_natCast, Nat.add_assoc]

/-- What a loop over all words joins is clear if and only if each byte keeps a rule. -/
theorem while_words {goes : Int → Bool} {filter : Word width → Word width} {mask : Word width}
    {count rounds : Nat} {rule : Nat → Prop} (positive : 0 < width) (some' : 0 < count)
    (more : ∀ left : Nat, 0 < left → goes left = true) (done : goes 0 = false)
    {fuel : Nat} (enough : line.length < fuel) (base : line.base skip width = skip)
    (inside : skip + width * (count * rounds) ≤ line.length)
    (each : ∀ j, Word.Clear mask (filter (line.wordAt skip width j)) ↔
      ∀ k : Fin width, rule (width * j + k.val)) :
    ∃ after, whileDown goes (joinDown (line.word skip width) filter count) fuel
        (count * rounds : Nat) (Word.fill 0) = some after ∧
      (Word.Clear mask after ↔ ∀ i < width * (count * rounds), rule i) := by
  have few : rounds ≤ line.length := by
    calc rounds ≤ width * (count * rounds) := by
          rw [← Nat.mul_assoc]
          exact Nat.le_mul_of_pos_left rounds (Nat.mul_pos positive some')
      _ ≤ line.length := by omega
  have reads : ∀ j, j < count * rounds →
      line.word skip width (j : Int) = some (line.wordAt skip width j) := by
    intro j before
    apply aligned_word base
    have words : width * (j + 1) ≤ width * (count * rounds) := Nat.mul_le_mul_left width before
    omega
  obtain ⟨after, ended, clear⟩ := @while_down_clear width _ filter goes _ mask count rounds
    fuel (by omega) (Word.fill 0) more done some' reads
  refine ⟨after, ended, ?_⟩
  rw [clear, ← words_cover positive]
  simp only [Word.clear_zero, true_and, each]

end Words

/-! ## Luma -/

section Luma

variable (line : CheckedLine 160)

theorem luma_base {width : Nat} (words : width = 4 ∨ width = 8 ∨ width = 16) :
    line.toLine.base 32 width = 32 := by
  have aligned := line.aligned
  unfold Line.base
  rcases words with rfl | rfl | rfl <;> omega

theorem luma_count {width count : Nat} (positive : 0 < width)
    (whole : line.length - 64 = width * count) :
    ((line.length : Int) - 64).tdiv width = (count : Nat) := by
  have long := line.long
  have borders : (line.length : Int) - 64 = (line.length - 64 : Nat) := by omega
  rw [borders, ← Int.ofNat_tdiv, whole, Nat.mul_div_cancel_left count positive]

theorem join_luma_clear {width : Nat} (words : width = 4 ∨ width = 8) :
    ∃ after, joinLuma width line.toLine = some after ∧
      (Word.Clear (Word.fill ynoisefilter) after ↔ line.BlackLuma) := by
  obtain ⟨count, whole⟩ : ∃ count, line.length - 64 = width * (1 * count) := by
    have lines := line.whole
    refine ⟨(line.length - 64) / width, ?_⟩
    rcases words with rfl | rfl <;> omega
  have positive : 0 < width := by omega
  have long := line.long
  obtain ⟨after, joined, clear⟩ := @while_words width 32 line.toLine (· != 0) id
    (Word.fill ynoisefilter) 1 count (fun i => line.bytes (32 + i) &&& ynoisefilter = 0)
    positive Nat.one_pos (by intro left more; simp; omega) rfl (line.length + 1) (by omega)
    (luma_base line (by omega)) (by omega) (fun j => Iff.rfl)
  refine ⟨after, ?_, ?_⟩
  · unfold joinLuma
    rw [luma_count line positive whole]
    exact joined
  · rw [clear, ← whole]
    rfl

theorem luma_c : blankLineYC line.toLine = some (decide line.BlackLuma) := by
  obtain ⟨after, joined, clear⟩ := join_luma_clear line (Or.inl rfl : (4 : Nat) = 4 ∨ 4 = 8)
  rw [blankLineYC, joined, Option.map_some, masked_is_zero_eq clear]

theorem luma_c64 : blankLineYC64 line.toLine = some (decide line.BlackLuma) := by
  obtain ⟨after, joined, clear⟩ := join_luma_clear line (Or.inr rfl : (8 : Nat) = 4 ∨ 8 = 8)
  rw [blankLineYC64, joined, Option.map_some, masked_is_zero_eq clear]

theorem luma_mmx : blankLineYMmx line.toLine = some (decide line.BlackLuma) := by
  obtain ⟨after, joined, clear⟩ := join_luma_clear line (Or.inr rfl : (8 : Nat) = 4 ∨ 8 = 8)
  rw [blankLineYMmx, joined, Option.map_some]
  exact congrArg some (masked_pack_eq clear)

theorem compared_lanes_iff (sum : Word 16) :
    Word.moveMask ((sum.and (Word.fill ynoisefilter)).compareEqual (Word.fill 0)) = 0x0f ↔
      Word.Clear (fun k => Line.signMask k.val) sum := by
  have lanes : Word.Clear (fun k => Line.signMask k.val) sum ↔ ∀ k : Fin 4,
      sum ⟨4 * k, by omega⟩ &&& ynoisefilter = 0 ∧ sum ⟨4 * k + 1, by omega⟩ &&& ynoisefilter = 0 ∧
        sum ⟨4 * k + 2, by omega⟩ &&& ynoisefilter = 0 ∧ sum ⟨4 * k + 3, by omega⟩ &&& 0x60 = 0 := by
    simp [Word.Clear, Line.signMask, ynoisefilter, Fin.forall_fin_succ, and_assoc]
  rw [Word.compare_equal_zero, lanes]
  simp only [Word.lane_zero_iff, Word.and, Word.fill, sign_byte_iff]

theorem luma_sse : blankLineYSse line.toLine =
    some (decide (∀ i < line.length - 64, line.bytes (32 + i) &&& Line.signMask i = 0)) := by
  obtain ⟨count, whole⟩ : ∃ count, line.length - 64 = 16 * (2 * count) :=
    ⟨(line.length - 64) / 32, by have lines := line.whole; omega⟩
  have long := line.long
  have lanes : ∀ j, Word.Clear (fun k => Line.signMask k.val) (id (line.wordAt 32 16 j)) ↔
      ∀ k : Fin 16, line.bytes (32 + (16 * j + k.val)) &&& Line.signMask (16 * j + k.val) = 0 := by
    intro j
    have same : ∀ k, Line.signMask (16 * j + k) = Line.signMask k := by
      intro k
      have turn : (16 * j + k) % 4 = k % 4 := by omega
      rw [Line.signMask, Line.signMask, turn]
    simp only [same]
    rfl
  obtain ⟨after, joined, clear⟩ := @while_words 16 32 line.toLine (fun length => decide (0 < length))
    id (fun k => Line.signMask k.val) 2 count
    (fun i => line.bytes (32 + i) &&& Line.signMask i = 0)
    (by decide) (by decide) (by intro left more; simp; omega) rfl (line.length + 2) (by omega)
    (luma_base line (by omega)) (by omega) lanes
  have counted : ((line.length : Int) - 64).tdiv 16 = (2 * count : Nat) :=
    luma_count line (by decide : 0 < 16) whole
  unfold blankLineYSse
  rw [counted, do_down_eq (by simp; omega), joined, Option.map_some]
  congr 1
  rw [decide_eq_decide, compared_lanes_iff, clear, ← whole]

/-- The result of SSE differs if all that the noise filter leaves are signs. -/
theorem luma_agrees_iff : LumaAgrees line.toLine ↔ ¬line.SignsOnly := by
  have weaker : line.BlackLuma →
      ∀ i < line.length - 64, line.bytes (32 + i) &&& Line.signMask i = 0 := by
    intro black i inside
    have byte := black i inside
    unfold Line.signMask
    split_ifs
    · revert byte
      generalize line.bytes (32 + i) = value
      revert value
      exact byte_cases (by decide +kernel)
    · exact byte
  have other : ¬line.BlackLuma ↔
      ∃ i < line.length - 64, line.bytes (32 + i) &&& ynoisefilter ≠ 0 := by
    simp only [Line.BlackLuma, not_forall, exists_prop, ne_eq]
  constructor
  · rintro agrees ⟨signs, bits⟩
    have same := (luma_sse line).symm.trans agrees.sse
    rw [Option.some.injEq, decide_eq_decide] at same
    exact other.mpr bits (same.mp signs)
  · intro regular
    refine ⟨luma_c line, luma_c64 line, luma_mmx line, ?_⟩
    rw [luma_sse line, Option.some.injEq, decide_eq_decide]
    refine ⟨fun signs => ?_, weaker⟩
    by_contra coloured
    exact regular ⟨signs, other.mp coloured⟩

end Luma

/-! ## Chroma -/

section Chroma

variable (line : CheckedLine 128)

theorem shift_chroma_clear {width : Nat} (word : Word width) :
    Word.Clear (Word.fill uvnoisefilter) (shiftChroma word) ↔
      ∀ k, 0x7d ≤ (word k).toNat ∧ (word k).toNat ≤ 0x84 := by
  have quiet : ∀ k, ((word k + uvshiftup) ^^^ uvblack) &&& uvnoisefilter = 0 →
      (word k).toNat + uvshiftup.toNat < 256 := by
    intro k black
    have range := (chroma_byte_iff (word k)).mp black
    have shift : uvshiftup.toNat = 3 := rfl
    omega
  have sum := @Word.add_test width (fun byte => (byte ^^^ uvblack) &&& uvnoisefilter = 0) word
    (Word.fill uvshiftup) quiet
  simp only [← chroma_byte_iff]
  exact sum

theorem shift_chroma_bytes_clear {width : Nat} (word : Word width) :
    Word.Clear (Word.fill uvnoisefilter) (shiftChromaBytes word) ↔
      ∀ k, 0x7d ≤ (word k).toNat ∧ (word k).toNat ≤ 0x84 := by
  simp only [← chroma_byte_iff]
  rfl

theorem chroma_base {width : Nat} (words : width = 4 ∨ width = 8) :
    line.toLine.base 16 width = 16 := by
  have aligned := line.aligned
  unfold Line.base
  rcases words with rfl | rfl <;> omega

theorem chroma_count {width count : Nat} (positive : 0 < width)
    (whole : line.length - 32 = width * count) :
    ((line.length : Int) - 32).tdiv width = (count : Nat) := by
  have long := line.long
  have borders : (line.length : Int) - 32 = (line.length - 32 : Nat) := by omega
  rw [borders, ← Int.ofNat_tdiv, whole, Nat.mul_div_cancel_left count positive]

theorem chroma_words {width : Nat} (words : width = 4 ∨ width = 8)
    {filter : Word width → Word width}
    (clear : ∀ word, Word.Clear (Word.fill uvnoisefilter) (filter word) ↔
      ∀ k, 0x7d ≤ (word k).toNat ∧ (word k).toNat ≤ 0x84)
    {fuel : Nat} (enough : line.length < fuel) :
    0 < ((line.length : Int) - 32).tdiv width ∧
      ∃ after, whileDown (fun length => decide (0 < length))
          (joinDown (line.word 16 width) filter 2) fuel (((line.length : Int) - 32).tdiv width)
          (Word.fill 0) = some after ∧
        (Word.Clear (Word.fill uvnoisefilter) after ↔ line.BlackChroma) := by
  have lines := line.whole
  have long := line.long
  obtain ⟨count, whole, some'⟩ : ∃ count, line.length - 32 = width * (2 * count) ∧ 0 < count := by
    refine ⟨(line.length - 32) / width / 2, ?_, ?_⟩ <;> rcases words with rfl | rfl <;> omega
  have positive : 0 < width := by omega
  obtain ⟨after, joined, joins⟩ := @while_words width 16 line.toLine
    (fun length => decide (0 < length)) filter (Word.fill uvnoisefilter) 2 count
    (fun i => 0x7d ≤ (line.bytes (16 + i)).toNat ∧ (line.bytes (16 + i)).toNat ≤ 0x84)
    positive (by decide) (by intro left more; simp; omega) rfl fuel enough
    (chroma_base line words) (by omega) (fun j => clear _)
  rw [chroma_count line positive whole]
  refine ⟨by omega, after, joined, ?_⟩
  rw [joins, ← whole]
  rfl

theorem chroma_c : blankLineUVC line.toLine = some (decide line.BlackChroma) := by
  obtain ⟨-, after, joined, clear⟩ := chroma_words line (Or.inl rfl : (4 : Nat) = 4 ∨ 4 = 8)
    shift_chroma_clear (Nat.lt_succ_self line.length)
  have ends : joinChroma 4 line.toLine = some after := joined
  rw [blankLineUVC, ends, Option.map_some, masked_is_zero_eq clear]

theorem chroma_c64 : blankLineUVC64 line.toLine = some (decide line.BlackChroma) := by
  obtain ⟨-, after, joined, clear⟩ := chroma_words line (Or.inr rfl : (8 : Nat) = 4 ∨ 8 = 8)
    shift_chroma_clear (Nat.lt_succ_self line.length)
  have ends : joinChroma 8 line.toLine = some after := joined
  rw [blankLineUVC64, ends, Option.map_some, masked_is_zero_eq clear]

theorem chroma_mmx : blankLineUVMmx line.toLine = some (decide line.BlackChroma) := by
  obtain ⟨some', after, joined, clear⟩ := chroma_words line (Or.inr rfl : (8 : Nat) = 4 ∨ 8 = 8)
    shift_chroma_bytes_clear (by omega : line.length < line.length + 2)
  have counted : 0 < ((line.length : Int) - 32).tdiv 8 := some'
  have ends : whileDown (fun length => decide (0 < length))
      (joinDown (line.word 16 8) shiftChromaBytes 2) (line.length + 2)
      (((line.length : Int) - 32).tdiv 8) (Word.fill 0) = some after := joined
  rw [blankLineUVMmx, do_down_eq (decide_eq_true counted), ends, Option.map_some]
  exact congrArg some (masked_pack_eq clear)

theorem chroma_agrees : ChromaAgrees line.toLine :=
  ⟨chroma_c line, chroma_c64 line, chroma_mmx line, chroma_mmx line⟩

end Chroma

/-! ## The versions -/

/-- The versions agree on the rules if and only if the line of luma does not hold signs of lanes
and nothing else that the noise filter leaves. -/
theorem versions_agree_iff (luma : CheckedLine 160) (chroma : CheckedLine 128) :
    LumaAgrees luma.toLine ∧ ChromaAgrees chroma.toLine ↔ ¬luma.SignsOnly := by
  rw [← luma_agrees_iff luma]
  exact and_iff_left (chroma_agrees chroma)

/-- A byte of 128 in the highest place of a lane. -/
theorem sign_taken_for_black : ¬∀ luma : CheckedLine 160, LumaAgrees luma.toLine := by
  intro claimed
  let luma : CheckedLine 160 := {
    address := 0
    length := 160
    bytes := fun i => if i = 35 then 0x80 else 0
    aligned := rfl
    whole := rfl
    long := Nat.le_refl 160 }
  have signs : luma.SignsOnly := by
    refine ⟨?_, 3, by decide, by decide⟩
    intro i _
    change (if 32 + i = 35 then (0x80 : UInt8) else 0) &&& Line.signMask i = 0
    split_ifs with here
    · obtain rfl : i = 3 := by omega
      rfl
    · exact UInt8.zero_and
  exact (luma_agrees_iff luma).mp (claimed luma) signs

end Xineliboutput.Post
