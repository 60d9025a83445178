import Xineliboutput.Osd.EncoderBuffers

/-!
# Buffers that grow a line at a time

The encoders that write bytes look at their buffers at the start of a line only. The
palette encoder has to double its buffer as fast as the lines fill it; the true-colour
encoder has room for another line as long as its guess fits 64 bits.
-/

namespace Xineliboutput.Osd

open Xineliboutput.Foundation

set_option autoImplicit false

/-- `rle_size - used`, of type `size_t`. -/
def bytesLeft (used rleSize : Nat) : Nat := (rleSize + 2 ^ 64 - used) % 2 ^ 64

theorem bytes_left_eq {used rleSize : Nat} (inside : used ≤ rleSize) (bound : rleSize < 2 ^ 64) :
    bytesLeft used rleSize = rleSize - used := by
  rw [bytesLeft]
  omega

def imageLine {Pixel : Type} (data : List Pixel) (w y : Nat) : List Pixel :=
  (data.drop (y * w)).take w

theorem image_line_length {Pixel : Type} {data : List Pixel} {w h y : Nat}
    (enough : w * h ≤ data.length) (line : y < h) : (imageLine data w y).length = w := by
  have inside : y * w + w ≤ w * h := by
    rw [← Nat.succ_mul, Nat.mul_comm w h]
    exact Nat.mul_le_mul_right w line
  rw [imageLine, List.length_take, List.length_drop]
  omega

/-! ## The palette encoder -/

/-- The start of a line in `rle_compress_hdmv`. -/
def growHdmv (w h used rleSize : Nat) : Nat :=
  if bytesLeft used rleSize < w * 4 then
    if rleSize < 1 then w * h % 2 ^ 32 / 16 else rleSize * 2 % 2 ^ 64
  else rleSize

/-- `rle_compress_hdmv`, as far as its buffer goes. -/
def hdmvSteps (data : List UInt8) (w h : Nat) : List FillStep :=
  (List.range h).map fun y => ⟨growHdmv w h, (compressHdmvLine (imageLine data w y)).1.length⟩

/-- Every byte of `rle_compress_hdmv` is written inside the buffer. -/
def HdmvInside (data : List UInt8) (w h : Nat) : Prop := FillsInside id 0 0 (hdmvSteps data w h)

def runBytes (color : UInt8) (len : Nat) : Nat :=
  if color ≠ 0 ∧ len < 4 then len
  else (if len < 64 then 2 else 3) + if color = 0 then 0 else 1

/-- The bytes of the runs of a line behind `len` pixels of one run, and of its end. -/
def lineBytes (color : UInt8) (len : Nat) : List UInt8 → Nat
  | [] => runBytes color len + 2
  | pixel :: rest =>
      if pixel = color then lineBytes color (len + 1) rest
      else runBytes color len + lineBytes pixel 1 rest

def hdmvLineBytes : List UInt8 → Nat
  | [] => 0
  | color :: rest => lineBytes color 1 rest

/-- The bytes of the lines before line `y`. -/
def bytesBefore (data : List UInt8) (w y : Nat) : Nat :=
  ((List.range y).map fun line => hdmvLineBytes (imageLine data w line)).sum

theorem write_length_length (flags len : Nat) :
    (writeLength flags len).length = if len < 64 then 1 else 2 := by
  rw [writeLength]
  split <;> rfl

theorem write_rle_hdmv_length (color : UInt8) (len : Nat) :
    (writeRleHdmv color len).length = runBytes color len := by
  rw [writeRleHdmv, runBytes]
  split
  · exact List.length_replicate
  · split
    · rw [List.length_cons, write_length_length]
      split <;> rfl
    · rw [List.length_cons, List.length_append, write_length_length]
      split <;> rfl

theorem compress_hdmv_pixels_length (line : List UInt8) (color : UInt8) {len : Nat}
    (some_pixels : 1 ≤ len) :
    (compressHdmvPixels color len line).1.length = lineBytes color len line := by
  induction line generalizing color len with
  | nil =>
      rw [compressHdmvPixels, if_pos (Nat.ne_of_gt some_pixels), List.length_append,
        write_rle_hdmv_length, write_rle_hdmv_length]
      rfl
  | cons pixel rest ih =>
      rw [compressHdmvPixels, lineBytes]
      split
      · exact ih color (Nat.le_succ_of_le some_pixels)
      · rw [List.length_append, write_rle_hdmv_length, ih pixel (Nat.le_refl 1)]

theorem compress_hdmv_line_length (line : List UInt8) :
    (compressHdmvLine line).1.length = hdmvLineBytes line := by
  cases line with
  | nil => rfl
  | cons color rest => exact compress_hdmv_pixels_length rest color (Nat.le_refl 1)

theorem run_bytes_zero (len : Nat) : runBytes 0 len = if len < 64 then 2 else 3 := by
  simp [runBytes]

theorem run_bytes_le {color : UInt8} (solid : color ≠ 0) {len : Nat} (some_pixels : 1 ≤ len) :
    runBytes color len ≤ len ∧ runBytes color len ≤ 4 := by
  simp only [runBytes, ne_eq, solid, not_false_eq_true, true_and, if_false]
  split_ifs <;> omega

theorem line_bytes_le (line : List UInt8) (color : UInt8) {len : Nat} (some_pixels : 1 ≤ len) :
    lineBytes color len line ≤
      (3 * (len + line.length) + if color = 0 then 1 else 0) / 2 + 2 := by
  induction line generalizing color len with
  | nil =>
      rw [lineBytes, List.length_nil]
      by_cases transparent : color = 0
      · rw [if_pos transparent, transparent, run_bytes_zero]
        split_ifs <;> omega
      · have few := run_bytes_le transparent some_pixels
        rw [if_neg transparent]
        omega
  | cons pixel rest ih =>
      rw [lineBytes, List.length_cons]
      by_cases same : pixel = color
      · rw [if_pos same]
        have onward := ih color (Nat.le_succ_of_le some_pixels)
        rw [show len + (rest.length + 1) = len + 1 + rest.length by omega]
        exact onward
      · rw [if_neg same]
        have onward := ih pixel (Nat.le_refl 1)
        by_cases transparent : color = 0
        · rw [if_neg (fun other => same (other.trans transparent.symm))] at onward
          rw [if_pos transparent, transparent, run_bytes_zero]
          split_ifs <;> omega
        · have few := run_bytes_le transparent some_pixels
          have turn : (if pixel = 0 then 1 else 0) ≤ 1 := by split_ifs <;> omega
          rw [if_neg transparent]
          omega

theorem line_bytes_pos (line : List UInt8) (color : UInt8) (len : Nat) :
    0 < lineBytes color len line := by
  induction line generalizing color len with
  | nil => exact Nat.add_pos_right _ (by decide)
  | cons pixel rest ih =>
      rw [lineBytes]
      split
      · exact ih color (len + 1)
      · exact Nat.add_pos_right _ (ih pixel 1)

/-- The bytes of the longest line of `w` pixels. -/
def longestLine (w : Nat) : Nat := w + (w + 1) / 2 + 2

theorem hdmv_line_bytes_le {line : List UInt8} {w : Nat} (width : line.length = w)
    (wPositive : 1 ≤ w) : 0 < hdmvLineBytes line ∧ hdmvLineBytes line ≤ longestLine w := by
  cases line with
  | nil =>
      rw [List.length_nil] at width
      omega
  | cons color rest =>
      rw [List.length_cons] at width
      apply And.intro (line_bytes_pos rest color 1)
      have bytes := line_bytes_le rest color (Nat.le_refl 1)
      have turn : (if color = 0 then 1 else 0) ≤ 1 := by split_ifs <;> omega
      rw [hdmvLineBytes, longestLine]
      omega

/-! ## Doubling -/

theorem take_sum_le {counts : List Nat} {most : Nat} (bound : ∀ count ∈ counts, count ≤ most)
    (lines : Nat) : (counts.take lines).sum ≤ most * lines := by
  induction counts generalizing lines with
  | nil => rw [List.take_nil]; exact Nat.zero_le _
  | cons count counts ih =>
      cases lines with
      | zero => exact Nat.zero_le _
      | succ lines =>
          have rest := ih (fun other listed => bound other (List.mem_cons_of_mem _ listed)) lines
          have first := bound count List.mem_cons_self
          rw [List.take_succ_cons, List.sum_cons, Nat.mul_succ]
          omega

def doublingSteps (w h : Nat) (counts : List Nat) : List FillStep :=
  counts.map fun count => ⟨growHdmv w h, count⟩

/-- Behind the first line: the used bytes are inside the buffer, and `total` bounds what
all lines together take. -/
structure Doubling (w total used rleSize : Nat) (counts : List Nat) : Prop where
  inside : used ≤ rleSize
  started : 1 ≤ rleSize
  bound : rleSize ≤ 2 * total
  rest : used + w * 4 * counts.length ≤ total
  small : total < 2 ^ 62
  lines : ∀ count ∈ counts, 0 < count ∧ count ≤ w * 4

theorem Doubling.grown {w total used rleSize : Nat} {counts : List Nat} (h : Nat)
    (doubling : Doubling w total used rleSize counts) :
    growHdmv w h used rleSize = if rleSize - used < w * 4 then rleSize * 2 else rleSize := by
  have started := doubling.started
  have size : rleSize * 2 < 2 ^ 64 := by
    have bound := doubling.bound
    have small := doubling.small
    omega
  rw [growHdmv, bytes_left_eq doubling.inside (by omega), if_neg (by omega : ¬ rleSize < 1),
    Nat.mod_eq_of_lt size]

theorem Doubling.next {w total used rleSize count : Nat} {counts : List Nat} (h : Nat)
    (doubling : Doubling w total used rleSize (count :: counts))
    (fits : used + count ≤ growHdmv w h used rleSize) :
    Doubling w total (used + count) (growHdmv w h used rleSize) counts := by
  have line := doubling.lines count List.mem_cons_self
  have inside := doubling.inside
  have started := doubling.started
  have bound := doubling.bound
  have rest := doubling.rest
  rw [List.length_cons, Nat.mul_succ] at rest
  refine ⟨fits, ?_, ?_, by omega, doubling.small, fun other listed => doubling.lines other
    (List.mem_cons_of_mem _ listed)⟩
  all_goals
    rw [doubling.grown h]
    split <;> omega

theorem doubling_ample {w h total used rleSize : Nat} {counts : List Nat}
    (doubling : Doubling w total used rleSize counts) (ample : w * 4 ≤ rleSize) :
    FillsInside id used rleSize (doublingSteps w h counts) := by
  induction counts generalizing used rleSize with
  | nil => exact fills_inside_nil _ _
  | cons count counts ih =>
      have line := doubling.lines count List.mem_cons_self
      have grown := doubling.grown h
      have fits : used + count ≤ growHdmv w h used rleSize ∧
          w * 4 ≤ growHdmv w h used rleSize := by
        have inside := doubling.inside
        rw [grown]
        split <;> omega
      rw [doublingSteps, List.map_cons, fills_inside_exact line.1]
      exact ⟨fits.1, ih (doubling.next h fits.1) fits.2⟩

theorem doubling_inside_iff {w h total used rleSize : Nat} {counts : List Nat}
    (doubling : Doubling w total used rleSize counts) :
    FillsInside id used rleSize (doublingSteps w h counts) ↔
      ∀ line, line < counts.length →
        used + (counts.take (line + 1)).sum ≤ rleSize * 2 ^ (line + 1) := by
  induction counts generalizing used rleSize with
  | nil =>
      constructor
      · exact fun _ line below => absurd below (Nat.not_lt_zero line)
      · exact fun _ => fills_inside_nil _ _
  | cons count counts ih =>
      have inside := doubling.inside
      by_cases ample : w * 4 ≤ rleSize
      · apply iff_of_true (doubling_ample doubling ample)
        intro line _
        have bytes := take_sum_le (fun count listed => (doubling.lines count listed).2) (line + 1)
        have below : line + 1 + 1 ≤ 2 ^ (line + 1) := Nat.lt_two_pow_self
        calc used + ((count :: counts).take (line + 1)).sum ≤ rleSize + w * 4 * (line + 1) :=
              Nat.add_le_add inside bytes
          _ ≤ rleSize + rleSize * (line + 1) :=
              Nat.add_le_add_left (Nat.mul_le_mul_right (line + 1) ample) rleSize
          _ = rleSize * (line + 1 + 1) := by rw [Nat.mul_succ rleSize (line + 1), Nat.add_comm]
          _ ≤ rleSize * 2 ^ (line + 1) := Nat.mul_le_mul_left rleSize below
      · -- less than four lines in all, so that this line doubles
        have grown : growHdmv w h used rleSize = rleSize * 2 := by
          rw [doubling.grown h, if_pos (by omega)]
        have line := doubling.lines count List.mem_cons_self
        rw [doublingSteps, List.map_cons, fills_inside_exact line.1]
        constructor
        · intro fits later below
          have onward := (ih (doubling.next h fits.1)).mp fits.2
          rw [List.take_succ_cons, List.sum_cons]
          cases later with
          | zero =>
              have first : used + count ≤ rleSize * 2 := Nat.le_trans fits.1 (Nat.le_of_eq grown)
              simpa using first
          | succ later =>
              have behind := onward later (Nat.lt_of_succ_lt_succ below)
              rw [grown, Nat.mul_assoc, ← Nat.pow_succ', Nat.add_assoc] at behind
              exact behind
        · intro fits
          have first : used + count ≤ growHdmv w h used rleSize := by
            have now := fits 0 (Nat.succ_pos _)
            rw [grown]
            simpa using now
          apply And.intro first
          apply (ih (doubling.next h first)).mpr
          intro later below
          have behind := fits (later + 1) (Nat.succ_lt_succ below)
          rw [List.take_succ_cons, List.sum_cons, ← Nat.add_assoc] at behind
          rw [grown, Nat.mul_assoc, ← Nat.pow_succ']
          exact behind

theorem doubling_from_start {w h total : Nat} {counts : List Nat} (wPositive : 1 ≤ w)
    (lines : ∀ count ∈ counts, 0 < count ∧ count ≤ w * 4)
    (rest : w * 4 * counts.length ≤ total) (pixels : w * h ≤ total) (small : total < 2 ^ 62) :
    FillsInside id 0 0 (doublingSteps w h counts) ↔
      ∀ line, line < counts.length →
        (counts.take (line + 1)).sum ≤ w * h % 2 ^ 32 / 16 * 2 ^ line := by
  cases counts with
  | nil =>
      constructor
      · exact fun _ line below => absurd below (Nat.not_lt_zero line)
      · exact fun _ => fills_inside_nil _ _
  | cons count counts =>
      have first := lines count List.mem_cons_self
      have started : growHdmv w h 0 0 = w * h % 2 ^ 32 / 16 := by
        rw [growHdmv, bytes_left_eq (Nat.le_refl 0) (by omega), if_pos (by omega),
          if_pos (by omega)]
      have sixteenth : w * h % 2 ^ 32 / 16 ≤ total := by
        apply Nat.le_trans (Nat.div_le_self _ 16)
        exact Nat.le_trans (Nat.mod_le _ _) pixels
      have doubling : count ≤ w * h % 2 ^ 32 / 16 →
          Doubling w total count (w * h % 2 ^ 32 / 16) counts := by
        intro fits
        rw [List.length_cons, Nat.mul_succ] at rest
        exact ⟨fits, by omega, by omega, by omega, small, fun other listed =>
          lines other (List.mem_cons_of_mem _ listed)⟩
      rw [doublingSteps, List.map_cons, fills_inside_exact first.1, started, Nat.zero_add]
      constructor
      · intro fits line below
        rw [List.take_succ_cons, List.sum_cons]
        cases line with
        | zero => simpa using fits.1
        | succ line =>
            exact (doubling_inside_iff (doubling fits.1)).mp fits.2 line
              (Nat.lt_of_succ_lt_succ below)
      · intro fits
        have now : count ≤ w * h % 2 ^ 32 / 16 := by simpa using fits 0 (Nat.succ_pos _)
        apply And.intro now
        apply (doubling_inside_iff (doubling now)).mpr
        intro line below
        have behind := fits (line + 1) (Nat.succ_lt_succ below)
        rw [List.take_succ_cons, List.sum_cons] at behind
        exact behind

section Palette

variable {data : List UInt8} {w h : Nat}

theorem bytes_before_succ (data : List UInt8) (w y : Nat) :
    bytesBefore data w (y + 1) = bytesBefore data w y + hdmvLineBytes (imageLine data w y) := by
  simp [bytesBefore, List.range_succ]

theorem hdmv_steps_doubling (data : List UInt8) (w h : Nat) :
    hdmvSteps data w h = doublingSteps w h
      ((List.range h).map fun y => hdmvLineBytes (imageLine data w y)) := by
  simp only [hdmvSteps, doublingSteps, List.map_map, Function.comp_def, compress_hdmv_line_length]

theorem take_line_bytes (data : List UInt8) (w : Nat) {lines : Nat} (inside : lines ≤ h) :
    (((List.range h).map fun y => hdmvLineBytes (imageLine data w y)).take lines).sum =
      bytesBefore data w lines := by
  rw [← List.map_take, List.take_range, Nat.min_eq_left inside, bytesBefore]

theorem longest_line_le (wPositive : 1 ≤ w) : longestLine w ≤ w * 4 := by
  rw [longestLine]
  omega

/-- The first sixteenth, doubled at every line, keeps up with the bytes of the image. -/
def DoublingKeepsUp (data : List UInt8) (w h : Nat) : Prop :=
  ∀ y, y < h → bytesBefore data w (y + 1) ≤ w * h % 2 ^ 32 / 16 * 2 ^ y

theorem hdmv_inside_iff (enough : w * h ≤ data.length) (wPositive : 1 ≤ w) (wBound : w ≤ 0x3fff)
    (hBound : h < 2 ^ 32) : HdmvInside data w h ↔ DoublingKeepsUp data w h := by
  have lines : ∀ count ∈ (List.range h).map (fun y => hdmvLineBytes (imageLine data w y)),
      0 < count ∧ count ≤ w * 4 := by
    intro count listed
    rcases List.mem_map.mp listed with ⟨y, line, rfl⟩
    have bytes := hdmv_line_bytes_le (image_line_length enough (List.mem_range.mp line)) wPositive
    exact ⟨bytes.1, Nat.le_trans bytes.2 (longest_line_le wPositive)⟩
  have small : 65532 * h < 2 ^ 62 := by omega
  have rest : w * 4 * h ≤ 65532 * h := Nat.mul_le_mul_right h (by omega)
  have pixels : w * h ≤ 65532 * h := Nat.mul_le_mul_right h (by omega)
  have all : ((List.range h).map fun y => hdmvLineBytes (imageLine data w y)).length = h := by
    rw [List.length_map, List.length_range]
  rw [HdmvInside, hdmv_steps_doubling,
    doubling_from_start wPositive lines (by rw [all]; exact rest) pixels small, all]
  apply forall_congr'
  intro y
  apply forall_congr'
  intro line
  rw [take_line_bytes data w line]

theorem line_bytes_alternating (count : Nat) :
    lineBytes 0 1 (alternating 1 count) = longestLine (count + 1) ∧
      lineBytes 1 1 (alternating 0 count) = count + 1 + (count + 1) / 2 + 2 := by
  induction count with
  | zero => decide
  | succ count ih =>
      have turned : (1 : UInt8) - 1 = 0 ∧ (1 : UInt8) - 0 = 1 := by decide
      have two : runBytes 0 1 = 2 := rfl
      have one : runBytes 1 1 = 1 := rfl
      rw [alternating, alternating, turned.1, turned.2, lineBytes, lineBytes, if_neg (by decide),
        if_neg (by decide), ih.1, ih.2, two, one, longestLine, longestLine]
      omega

theorem bytes_before_le (enough : w * h ≤ data.length) (wPositive : 1 ≤ w) (lines : Nat)
    (inside : lines ≤ h) : bytesBefore data w lines ≤ longestLine w * lines := by
  induction lines with
  | zero => exact Nat.zero_le _
  | succ lines ih =>
      rw [bytes_before_succ, Nat.mul_succ]
      have line := hdmv_line_bytes_le (image_line_length enough inside) wPositive
      exact Nat.add_le_add (ih (Nat.le_of_succ_le inside)) line.2

/-- The sizes for which `rle_compress_hdmv` has room for every image. -/
theorem hdmv_always_inside_iff (wPositive : 1 ≤ w) (wBound : w ≤ 0x3fff) (hPositive : 1 ≤ h)
    (hBound : h < 2 ^ 32) :
    (∀ data : List UInt8, w * h ≤ data.length → HdmvInside data w h) ↔
      longestLine w ≤ w * h % 2 ^ 32 / 16 := by
  constructor
  · intro inside
    have enough : w * h ≤ (alternating 0 (w * h)).length := by rw [alternating_length]
    have keeps := (hdmv_inside_iff enough wPositive wBound hBound).mp (inside _ enough) 0 hPositive
    rcases Nat.exists_eq_add_of_le (Nat.le_mul_of_pos_right w hPositive) with ⟨more, size⟩
    rcases Nat.exists_eq_add_of_le wPositive with ⟨columns, rfl⟩
    have first : imageLine (alternating 0 ((1 + columns) * h)) (1 + columns) 0 =
        alternating 0 (1 + columns) := by
      rw [imageLine, Nat.zero_mul, List.drop_zero, size, take_alternating]
    have longest := (line_bytes_alternating columns).1
    rw [bytes_before_succ, first, Nat.add_comm 1, alternating, hdmvLineBytes,
      show (1 : UInt8) - 0 = 1 by decide, longest] at keeps
    rw [Nat.add_comm 1]
    simpa [bytesBefore] using keeps
  · intro room data enough
    apply (hdmv_inside_iff enough wPositive wBound hBound).mpr
    intro y line
    calc bytesBefore data w (y + 1) ≤ longestLine w * (y + 1) :=
          bytes_before_le enough wPositive (y + 1) line
      _ ≤ longestLine w * 2 ^ y := Nat.mul_le_mul_left _ Nat.lt_two_pow_self
      _ ≤ w * h % 2 ^ 32 / 16 * 2 ^ y := Nat.mul_le_mul_right _ room

end Palette

/-! ## The true-colour encoder -/

/-- The start of line `y` in `rle_compress_argbrle`. -/
def growArgbrle (w h y used rleSize : Nat) : Nat :=
  if bytesLeft used rleSize < w * 6 then
    if rleSize < 1 then w * 6 * 2 else (rleSize * h % 2 ^ 64 / y + w * 6) % 2 ^ 64
  else rleSize

/-- `rle_compress_argbrle`, as far as its buffer goes. -/
def argbrleSteps (data : List UInt32) (w h : Nat) : List FillStep :=
  (List.range h).map fun y => ⟨growArgbrle w h y, (compressLine (imageLine data w y)).1.length⟩

/-- Every byte of `rle_compress_argbrle` is written inside the buffer. -/
def ArgbrleInside (data : List UInt32) (w h : Nat) : Prop :=
  FillsInside id 0 0 (argbrleSteps data w h)

theorem write_rle_argb_length {color : UInt32} {len : Nat} (some_pixels : 1 ≤ len) :
    (writeRleArgb color len).length ≤ 4 * len := by
  have four : ∀ color, (writeU32 color).length = 4 := fun color => rfl
  rw [writeRleArgb]
  split
  · rw [List.length_flatten, List.map_replicate, four, List.sum_replicate_nat]
    omega
  · split
    · rw [List.length_cons, write_length_length]
      split <;> omega
    · rw [List.length_cons, List.length_append, write_length_length, four]
      split <;> omega

theorem compress_pixels_length (line : List UInt32) (color : UInt32) {len : Nat}
    (some_pixels : 1 ≤ len) :
    0 < (compressPixels color len line).1.length ∧
      (compressPixels color len line).1.length ≤ 4 * (len + line.length) + 2 := by
  have ends : (writeRleArgb 0 0).length = 2 := rfl
  have run : (writeRleArgb color len).length ≤ 4 * len := write_rle_argb_length some_pixels
  induction line generalizing color len with
  | nil =>
      rw [compressPixels, List.length_nil]
      split
      · rw [List.length_append, ends]
        omega
      · rw [ends]
        omega
  | cons pixel rest ih =>
      have more : 1 ≤ len + 1 := Nat.le_add_left 1 len
      have longer := ih color more (write_rle_argb_length more)
      have anew := ih pixel (Nat.le_refl 1) (write_rle_argb_length (Nat.le_refl 1))
      rw [compressPixels, List.length_cons]
      split
      · omega
      · split
        · omega
        · rw [List.length_append]
          omega

theorem compress_line_length {line : List UInt32} {w : Nat} (width : line.length = w)
    (wPositive : 1 ≤ w) :
    0 < (compressLine line).1.length ∧ (compressLine line).1.length ≤ w * 6 := by
  cases line with
  | nil =>
      rw [List.length_nil] at width
      omega
  | cons color rest =>
      rw [List.length_cons] at width
      have bytes := compress_pixels_length rest color (Nat.le_refl 1)
      rw [compressLine]
      omega

/-- From line `y` on, wherever the buffer is enlarged, the product of the size and the
height fits 64 bits. -/
def GuessesFit (w h : Nat) : Nat → Nat → Nat → List Nat → Prop
  | _, _, _, [] => True
  | y, used, rleSize, count :: counts =>
      if rleSize - used < w * 6 then
        if rleSize < 1 then GuessesFit w h (y + 1) (used + count) (w * 6 * 2) counts
        else rleSize * h < 2 ^ 64 ∧
          GuessesFit w h (y + 1) (used + count) (rleSize * h / y + w * 6) counts
      else GuessesFit w h (y + 1) (used + count) rleSize counts

/-- The encoder at the start of line `y`. The second line still fits the first buffer. -/
structure Guessing (w h y used rleSize : Nat) (counts : List Nat) : Prop where
  inside : used ≤ rleSize
  bound : rleSize < 2 ^ 64
  first : y = 0 → rleSize = 0
  second : y = 1 → used + w * 6 ≤ rleSize
  lines : y + counts.length = h
  bytes : ∀ count ∈ counts, 0 < count ∧ count ≤ w * 6
  fit : GuessesFit w h y used rleSize counts

section Guesses

variable {w h y used rleSize count : Nat} {counts : List Nat}

theorem Guessing.third (guessing : Guessing w h y used rleSize counts)
    (full : rleSize - used < w * 6) (some_bytes : ¬ rleSize < 1) : 2 ≤ y := by
  have first := guessing.first
  have second := guessing.second
  omega

theorem Guessing.grow (wBound : w ≤ 0x3fff)
    (guessing : Guessing w h y used rleSize (count :: counts)) :
    used + w * 6 ≤ growArgbrle w h y used rleSize ∧ growArgbrle w h y used rleSize < 2 ^ 64 ∧
      GuessesFit w h (y + 1) (used + count) (growArgbrle w h y used rleSize) counts := by
  have inside := guessing.inside
  have fit := guessing.fit
  have lines := guessing.lines
  rw [List.length_cons] at lines
  rw [GuessesFit] at fit
  rw [growArgbrle, bytes_left_eq inside guessing.bound]
  by_cases full : rleSize - used < w * 6
  · rw [if_pos full] at fit
    rw [if_pos full]
    by_cases empty : rleSize < 1
    · rw [if_pos empty] at fit
      rw [if_pos empty]
      exact ⟨by omega, by omega, fit⟩
    · rw [if_neg empty] at fit
      rw [if_neg empty, Nat.mod_eq_of_lt fit.1]
      have third := guessing.third full empty
      have larger : rleSize ≤ rleSize * h / y := by
        rw [Nat.le_div_iff_mul_le (by omega)]
        exact Nat.mul_le_mul_left rleSize (by omega)
      have half : rleSize * h / y ≤ rleSize * h / 2 := Nat.div_le_div_left third (by decide)
      have small : rleSize * h / y + w * 6 < 2 ^ 64 := by omega
      rw [Nat.mod_eq_of_lt small]
      exact ⟨by omega, small, fit.2⟩
  · rw [if_neg full] at fit
    rw [if_neg full]
    exact ⟨by omega, guessing.bound, fit⟩

theorem Guessing.next (wBound : w ≤ 0x3fff)
    (guessing : Guessing w h y used rleSize (count :: counts)) :
    Guessing w h (y + 1) (used + count) (growArgbrle w h y used rleSize) counts := by
  have grown := guessing.grow wBound
  have line := guessing.bytes count List.mem_cons_self
  have lines := guessing.lines
  rw [List.length_cons] at lines
  constructor
  case inside => omega
  case bound => exact grown.2.1
  case first => exact fun zero => absurd zero (Nat.succ_ne_zero y)
  case second =>
    intro one
    have zero : y = 0 := by omega
    have empty := guessing.first zero
    have inside := guessing.inside
    have start : growArgbrle w h y used rleSize = w * 6 * 2 := by
      rw [growArgbrle, bytes_left_eq inside guessing.bound, if_pos (by omega),
        if_pos (by omega)]
    omega
  case lines => omega
  case bytes => exact fun other listed => guessing.bytes other (List.mem_cons_of_mem _ listed)
  case fit => exact grown.2.2

def guessingSteps (w h y : Nat) : List Nat → List FillStep
  | [] => []
  | count :: counts => ⟨growArgbrle w h y, count⟩ :: guessingSteps w h (y + 1) counts

theorem Guessing.all_inside (wBound : w ≤ 0x3fff) (guessing : Guessing w h y used rleSize counts) :
    FillsInside id used rleSize (guessingSteps w h y counts) := by
  induction counts generalizing y used rleSize with
  | nil => exact fills_inside_nil _ _
  | cons count counts ih =>
      have line := guessing.bytes count List.mem_cons_self
      have grown := guessing.grow wBound
      rw [guessingSteps, fills_inside_exact line.1]
      exact ⟨by omega, ih (guessing.next wBound)⟩

/-- While no line takes more than six bytes a pixel, the sizes stay below what all lines
take. -/
theorem guesses_fit_of_size (size : 6 * w * h * h ≤ 2 ^ 64)
    (bytes : ∀ count ∈ counts, count ≤ w * 6) (lines : y + counts.length = h)
    (few : used ≤ w * 6 * y) : GuessesFit w h y used rleSize counts := by
  induction counts generalizing y used rleSize with
  | nil => exact True.intro
  | cons count counts ih =>
      have line := bytes count List.mem_cons_self
      have others : ∀ count ∈ counts, count ≤ w * 6 := fun other listed =>
        bytes other (List.mem_cons_of_mem _ listed)
      rw [List.length_cons] at lines
      have onward : ∀ rleSize, GuessesFit w h (y + 1) (used + count) rleSize counts := by
        intro rleSize
        apply ih others (by omega)
        rw [Nat.mul_succ]
        omega
      rw [GuessesFit]
      split
      · split
        · exact onward _
        · rename_i full _
          apply And.intro _ (onward _)
          have below : rleSize + 1 ≤ 6 * w * h := by
            calc rleSize + 1 ≤ w * 6 * y + w * 6 := by omega
              _ = w * 6 * (y + 1) := (Nat.mul_succ _ y).symm
              _ ≤ w * 6 * h := Nat.mul_le_mul_left _ (by omega)
              _ = 6 * w * h := by rw [Nat.mul_comm w 6]
          have product := Nat.mul_le_mul_right h below
          rw [Nat.succ_mul] at product
          omega
      · exact onward _

end Guesses

/-- The products of sizes and height that `rle_compress_argbrle` takes fit 64 bits. -/
structure ProductsFit (data : List UInt32) (w h : Nat) : Prop where
  guesses : GuessesFit w h 0 0 0
    ((List.range h).map fun y => (compressLine (imageLine data w y)).1.length)

theorem guessing_steps_map (w h lines y : Nat) (bytes : Nat → Nat) :
    guessingSteps w h y ((List.range lines).map fun line => bytes (y + line)) =
      (List.range lines).map fun line => ⟨growArgbrle w h (y + line), bytes (y + line)⟩ := by
  induction lines generalizing y with
  | zero => rfl
  | succ lines ih =>
      have shift : ∀ line, y + Nat.succ line = y + 1 + line := by
        intro line
        omega
      have later : (fun line => bytes (y + line)) ∘ Nat.succ = fun line => bytes (y + 1 + line) := by
        funext line
        exact congrArg bytes (shift line)
      have laterSteps : (fun line => (⟨growArgbrle w h (y + line), bytes (y + line)⟩ : FillStep)) ∘
          Nat.succ = fun line => ⟨growArgbrle w h (y + 1 + line), bytes (y + 1 + line)⟩ := by
        funext line
        rw [Function.comp, shift]
      rw [List.range_succ_eq_map, List.map_cons, List.map_cons, List.map_map, List.map_map,
        later, laterSteps, ← ih (y + 1), guessingSteps]
      rfl

section TrueColour

variable {data : List UInt32} {w h : Nat}

theorem argbrle_line_bytes (enough : w * h ≤ data.length) (wPositive : 1 ≤ w) :
    ∀ count ∈ (List.range h).map (fun y => (compressLine (imageLine data w y)).1.length),
      0 < count ∧ count ≤ w * 6 := by
  intro count listed
  rcases List.mem_map.mp listed with ⟨y, line, rfl⟩
  exact compress_line_length (image_line_length enough (List.mem_range.mp line)) wPositive

theorem argbrle_inside_of_products (enough : w * h ≤ data.length) (wPositive : 1 ≤ w)
    (wBound : w ≤ 0x3fff) (fit : ProductsFit data w h) : ArgbrleInside data w h := by
  have steps : argbrleSteps data w h = guessingSteps w h 0
      ((List.range h).map fun y => (compressLine (imageLine data w y)).1.length) := by
    have mapped := guessing_steps_map w h h 0 fun y =>
      (compressLine (imageLine data w y)).1.length
    simp only [Nat.zero_add] at mapped
    rw [mapped, argbrleSteps]
  have all : ((List.range h).map fun y => (compressLine (imageLine data w y)).1.length).length =
      h := by
    rw [List.length_map, List.length_range]
  rw [ArgbrleInside, steps]
  apply Guessing.all_inside wBound
  exact ⟨Nat.le_refl 0, by decide, fun _ => rfl, fun one => absurd one (by decide),
    by rw [all, Nat.zero_add], argbrle_line_bytes enough wPositive, fit.guesses⟩

theorem products_fit_of_size (enough : w * h ≤ data.length) (wPositive : 1 ≤ w)
    (size : 6 * w * h * h ≤ 2 ^ 64) : ProductsFit data w h := by
  apply ProductsFit.mk
  apply guesses_fit_of_size size
  · exact fun count listed => (argbrle_line_bytes enough wPositive count listed).2
  · rw [List.length_map, List.length_range, Nat.zero_add]
  · exact Nat.zero_le _

end TrueColour

/-! ## The encoders -/

/-- For the local and the palette encoder, the sizes that have room for every image, and
the images that have room. For the true-colour encoder, the images whose sizes fit 64
bits, which are all images but for huge ones. -/
theorem encoders_write_inside {w h : Nat} (wPositive : 1 ≤ w) (hPositive : 1 ≤ h) :
    (h < 2 ^ 16 →
      ((∀ data : List UInt8, w * h ≤ data.length → CompressInside data w h) ↔
        h ≤ 8128 ∧ w * h ≤ mostElements) ∧
      ∀ data : List UInt8, w * h ≤ data.length →
        (CompressInside data w h ↔ ChangesKeepUp data w h)) ∧
    (w ≤ 0x3fff → h < 2 ^ 32 →
      ((∀ data : List UInt8, w * h ≤ data.length → HdmvInside data w h) ↔
        longestLine w ≤ w * h % 2 ^ 32 / 16) ∧
      ∀ data : List UInt8, w * h ≤ data.length →
        (HdmvInside data w h ↔ DoublingKeepsUp data w h)) ∧
    (w ≤ 0x3fff → h < 2 ^ 32 → ∀ data : List UInt32, w * h ≤ data.length →
      (ProductsFit data w h → ArgbrleInside data w h) ∧
      (6 * w * h * h ≤ 2 ^ 64 → ProductsFit data w h)) := by
  refine ⟨fun hBound => ⟨compress_always_inside_iff wPositive hPositive hBound, ?_⟩,
    fun wBound hBound => ⟨hdmv_always_inside_iff wPositive wBound hPositive hBound, ?_⟩,
    fun wBound _ data enough => ⟨?_, ?_⟩⟩
  · exact fun data _ => compress_inside_iff data w hPositive hBound
  · exact fun data enough => hdmv_inside_iff enough wPositive wBound hBound
  · exact argbrle_inside_of_products enough wPositive wBound
  · exact products_fit_of_size enough wPositive

/-- The pictures of a standard definition screen. -/
theorem encoders_write_inside_screen :
    CompressInside (List.replicate (720 * 576) 0) 720 576 ∧
      HdmvInside (List.replicate (720 * 576) 0) 720 576 ∧
      ArgbrleInside (List.replicate (720 * 576) 0) 720 576 := by
  have encoders := @encoders_write_inside 720 576 (by decide) (by decide)
  refine ⟨(encoders.1 (by decide)).1.mpr ?_ _ ?_,
    (encoders.2.1 (by decide) (by decide)).1.mpr ?_ _ ?_, ?_⟩
  · exact ⟨by decide, by decide⟩
  · rw [List.length_replicate]
  · decide
  · rw [List.length_replicate]
  · have enough : 720 * 576 ≤ (List.replicate (720 * 576) (0 : UInt32)).length := by
      rw [List.length_replicate]
    have small : 6 * 720 * 576 * 576 ≤ 2 ^ 64 := by decide
    rcases encoders.2.2 (by decide) (by decide) _ enough with ⟨inside, fit⟩
    exact inside (fit small)

/-- A uniform image of too many lines, and a line that takes more than the one byte that
a sixteenth of its pixels gives. -/
theorem small_buffer_overrun :
    ¬ CompressInside (List.replicate (1 * 8129) 0) 1 8129 ∧
      ¬ HdmvInside (List.replicate (16 * 1) 0) 16 1 := by
  constructor
  · intro inside
    have keeps := ((compress_inside_iff _ 1 (by decide) (by decide)).mp inside).1 8128 (by decide)
    rw [changes_before_uniform] at keeps
    omega
  · intro inside
    have enough : 16 * 1 ≤ (List.replicate (16 * 1) (0 : UInt8)).length := by decide
    have keeps := (hdmv_inside_iff enough (by decide) (by decide) (by decide)).mp inside 0
      Nat.one_pos
    exact absurd keeps (by decide)

end Xineliboutput.Osd
