import Xineliboutput.Foundation.GrowingBuffer
import Xineliboutput.Osd.PaletteRleRoundTrip

/-!
# The output buffers of the encoders

`rle_compress` starts with 8128 elements, and tests the size where the colour changes,
not at the end of a line. `rle_compress_hdmv` starts with a sixteenth of the pixels, and
doubles where less than four lines of bytes are left. `rle_compress_argbrle` guesses from
the lines so far. For each, the sizes for which the buffer is always large enough.
-/

namespace Xineliboutput.Osd

open Xineliboutput.Foundation

set_option autoImplicit false

/-! ## The local encoder -/

/-- The elements of four bytes in `malloc(4*rle_size)`, a 32-bit product. -/
def elementRoom (rleSize : Nat) : Nat := 4 * rleSize % 2 ^ 32 / 4

/-- An element pushed where the colour changes in line `y`. -/
def checkedPush (h y : Nat) : FillStep where
  enlarge := fun numRle rleSize =>
    if rleSize < (numRle + h - y + 1) % 2 ^ 32 then rleSize * 2 % 2 ^ 32 else rleSize
  count := 1

def lastPush : FillStep where
  enlarge := fun _ rleSize => rleSize
  count := 1

def runPushes (h y : Nat) (rle : RleElem) : List UInt8 → List FillStep
  | [] => [lastPush]
  | pixel :: rest =>
      if rle.color ≠ pixel.toNat then
        (if rle.len ≠ 0 then [checkedPush h y] else []) ++ runPushes h y ⟨1, pixel.toNat⟩ rest
      else runPushes h y { rle with len := (rle.len + 1) % 2 ^ 16 } rest

/-- `rle_compress`, as far as its buffer goes. -/
def compressPushes (data : List UInt8) (w h : Nat) : List FillStep :=
  (List.range h).flatMap fun y => runPushes h y ⟨0, 0⟩ ((data.drop (y * w % 2 ^ 32)).take w)

/-- Every element of `rle_compress` is written inside the buffer. -/
def CompressInside (data : List UInt8) (w h : Nat) : Prop :=
  FillsInside elementRoom 0 8128 (compressPushes data w h)

/-- The runs of a line that end before it does, without those whose length 16 bits turn
to zero. -/
def changes (color : UInt8) (len : Nat) : List UInt8 → Nat
  | [] => 0
  | pixel :: rest =>
      if pixel = color then changes color (len + 1) rest
      else (if len % 2 ^ 16 = 0 then 0 else 1) + changes pixel 1 rest

def lineChanges (data : List UInt8) (w y : Nat) : Nat :=
  changes 0 0 ((data.drop (y * w % 2 ^ 32)).take w)

/-- The changes in the lines before line `y`. -/
def changesBefore (data : List UInt8) (w y : Nat) : Nat :=
  ((List.range y).map (lineChanges data w)).sum

theorem run_pushes_eq (h y : Nat) (line : List UInt8) (color : UInt8) (len : Nat) :
    runPushes h y ⟨len % 2 ^ 16, color.toNat⟩ line =
      List.replicate (changes color len line) (checkedPush h y) ++ [lastPush] := by
  induction line generalizing color len with
  | nil => rfl
  | cons pixel rest ih =>
      rw [runPushes, changes]
      by_cases same : pixel = color
      · have equal : ¬ (color.toNat ≠ pixel.toNat) := by simp [same]
        have longer : (len % 2 ^ 16 + 1) % 2 ^ 16 = (len + 1) % 2 ^ 16 := by omega
        rw [if_pos same, if_neg equal]
        simp only [longer]
        exact ih color (len + 1)
      · have different : color.toNat ≠ pixel.toNat := fun equal =>
          same (UInt8.toNat_inj.mp equal).symm
        rw [if_neg same, if_pos different]
        have onward := ih pixel 1
        rw [Nat.one_mod_two_pow (by omega)] at onward
        rw [onward]
        by_cases none_counted : len % 2 ^ 16 = 0
        · rw [if_pos none_counted, if_neg (by simpa using none_counted), Nat.zero_add]
          rfl
        · rw [if_neg none_counted, if_pos none_counted, Nat.add_comm 1, List.replicate_succ]
          rfl

theorem compress_pushes_eq (data : List UInt8) (w h : Nat) :
    compressPushes data w h = (List.range h).flatMap fun y =>
      List.replicate (lineChanges data w y) (checkedPush h y) ++ [lastPush] := by
  apply List.flatMap_congr
  intro y _
  exact run_pushes_eq h y _ 0 0

theorem changes_le (line : List UInt8) (color : UInt8) (len : Nat) :
    changes color len line ≤ line.length := by
  induction line generalizing color len with
  | nil => exact Nat.le_refl 0
  | cons pixel rest ih =>
      rw [changes, List.length_cons]
      have onward := ih color (len + 1)
      have anew := ih pixel 1
      split_ifs <;> omega

theorem line_changes_le (data : List UInt8) {w : Nat} (wPositive : 1 ≤ w) (y : Nat) :
    lineChanges data w y ≤ w - 1 := by
  have width : ((data.drop (y * w % 2 ^ 32)).take w).length ≤ w := List.length_take_le w _
  rw [lineChanges]
  cases line : (data.drop (y * w % 2 ^ 32)).take w with
  | nil => exact Nat.zero_le _
  | cons pixel rest =>
      rw [line, List.length_cons] at width
      have onward := changes_le rest 0 (0 + 1)
      have anew := changes_le rest pixel 1
      rw [changes]
      split_ifs <;> omega

@[simp] theorem changes_before_zero (data : List UInt8) (w : Nat) : changesBefore data w 0 = 0 :=
  rfl

theorem changes_before_succ (data : List UInt8) (w y : Nat) :
    changesBefore data w (y + 1) = changesBefore data w y + lineChanges data w y := by
  simp [changesBefore, List.range_succ]

theorem changes_before_mono (data : List UInt8) (w : Nat) {y later : Nat} (order : y ≤ later) :
    changesBefore data w y ≤ changesBefore data w later := by
  induction later, order using Nat.le_induction with
  | base => exact Nat.le_refl _
  | succ later _ ih =>
      rw [changes_before_succ]
      exact Nat.le_add_right_of_le ih

/-- `rle_size` behind a number of changes. The end of a line does not change it. -/
def pushedSize (h : Nat) : Nat → Nat
  | 0 => 8128
  | pushed + 1 =>
      if pushedSize h pushed < (h + pushed + 1) % 2 ^ 32 then pushedSize h pushed * 2 % 2 ^ 32
      else pushedSize h pushed

theorem checked_push_enlarge (h y pushed : Nat) :
    (checkedPush h y).enlarge (y + pushed) (pushedSize h pushed) = pushedSize h (pushed + 1) := by
  have level : y + pushed + h - y + 1 = h + pushed + 1 := by omega
  show (if pushedSize h pushed < (y + pushed + h - y + 1) % 2 ^ 32 then _ else _) = _
  rw [level, pushedSize]

theorem size_after_changes (h y count pushed : Nat) :
    sizeAfter (y + pushed) (pushedSize h pushed) (List.replicate count (checkedPush h y)) =
      pushedSize h (pushed + count) := by
  induction count generalizing pushed with
  | zero => rfl
  | succ count ih =>
      rw [List.replicate_succ, sizeAfter, checked_push_enlarge]
      have onward := ih (pushed + 1)
      rw [← Nat.add_assoc] at onward
      rw [show (checkedPush h y).count = 1 from rfl, onward]
      congr 1
      omega

theorem cell_count_changes (h y count : Nat) :
    cellCount (List.replicate count (checkedPush h y)) = count := by
  simp [cellCount, checkedPush]

theorem changes_inside_iff (h y count pushed : Nat) :
    FillsInside elementRoom (y + pushed) (pushedSize h pushed)
        (List.replicate count (checkedPush h y)) ↔
      ∀ earlier, pushed ≤ earlier → earlier < pushed + count →
        y + earlier < elementRoom (pushedSize h (earlier + 1)) := by
  induction count generalizing pushed with
  | zero =>
      constructor
      · intro _ earlier _ _
        omega
      · exact fun _ => fills_inside_nil _ _
  | succ count ih =>
      have onward := ih (pushed + 1)
      rw [← Nat.add_assoc] at onward
      rw [List.replicate_succ, fills_inside_cons Nat.one_pos, checked_push_enlarge,
        show (checkedPush h y).count = 1 from rfl, onward]
      constructor
      · intro fits earlier lower upper
        by_cases now : earlier = pushed
        · rw [now]
          exact fits.1
        · exact fits.2 earlier (by omega) (by omega)
      · intro fits
        apply And.intro
        · exact fits pushed (Nat.le_refl pushed) (by omega)
        · intro earlier lower upper
          exact fits earlier (by omega) (by omega)

/-- The elements of line `y` are written inside the buffer. -/
def LineInside (data : List UInt8) (w h y : Nat) : Prop :=
  (∀ earlier, changesBefore data w y ≤ earlier → earlier < changesBefore data w (y + 1) →
    y + earlier < elementRoom (pushedSize h (earlier + 1))) ∧
  y + changesBefore data w (y + 1) < elementRoom (pushedSize h (changesBefore data w (y + 1)))

def linePushes (data : List UInt8) (w h y : Nat) : List FillStep :=
  List.replicate (lineChanges data w y) (checkedPush h y) ++ [lastPush]

theorem cell_count_lines (data : List UInt8) (w h lines : Nat) :
    cellCount ((List.range lines).flatMap (linePushes data w h)) =
      lines + changesBefore data w lines := by
  induction lines with
  | zero => rfl
  | succ lines ih =>
      rw [List.range_succ, List.flatMap_append, cell_count_append, ih, List.flatMap_singleton,
        linePushes, cell_count_append, cell_count_changes, changes_before_succ]
      simp only [cell_count_cons, cell_count_nil, lastPush]
      omega

theorem size_after_lines (data : List UInt8) (w h lines : Nat) :
    sizeAfter 0 8128 ((List.range lines).flatMap (linePushes data w h)) =
      pushedSize h (changesBefore data w lines) := by
  induction lines with
  | zero => rfl
  | succ lines ih =>
      rw [List.range_succ, List.flatMap_append, size_after_append, ih, cell_count_lines,
        List.flatMap_singleton, linePushes, size_after_append, Nat.zero_add, size_after_changes,
        changes_before_succ]
      rfl

theorem lines_inside_iff (data : List UInt8) (w h lines : Nat) :
    FillsInside elementRoom 0 8128 ((List.range lines).flatMap (linePushes data w h)) ↔
      ∀ y, y < lines → LineInside data w h y := by
  induction lines with
  | zero => exact ⟨fun _ y below => absurd below (Nat.not_lt_zero y), fun _ => fills_inside_nil _ _⟩
  | succ lines ih =>
      have last_line : FillsInside elementRoom (0 + (lines + changesBefore data w lines))
            (pushedSize h (changesBefore data w lines)) (linePushes data w h lines) ↔
          LineInside data w h lines := by
        rw [Nat.zero_add, linePushes, fills_inside_append, changes_inside_iff, size_after_changes,
          cell_count_changes, fills_inside_singleton Nat.one_pos, Nat.add_assoc lines,
          ← changes_before_succ]
        exact Iff.rfl
      rw [List.range_succ, List.flatMap_append, fills_inside_append, ih, size_after_lines,
        cell_count_lines, List.flatMap_singleton, last_line]
      constructor
      · intro fits y below
        by_cases last : y = lines
        · rw [last]
          exact fits.2
        · exact fits.1 y (by omega)
      · intro fits
        exact ⟨fun y below => fits y (by omega), fits lines (Nat.lt_succ_self lines)⟩

/-- The most elements whose bytes 32 bits count: `8128 * 2^17`. -/
def mostElements : Nat := 1065353216

theorem element_room_le (rleSize : Nat) : elementRoom rleSize ≤ rleSize := by
  have wrapped := Nat.mod_le (4 * rleSize) (2 ^ 32)
  rw [elementRoom]
  omega

theorem element_room_exact {rleSize : Nat} (bound : rleSize ≤ mostElements) :
    elementRoom rleSize = rleSize := by
  rw [mostElements] at bound
  rw [elementRoom]
  omega

/-- Up to the most elements, the size is a power of two times the first one. -/
theorem pushed_size_power (h pushed : Nat) (few : h + pushed ≤ mostElements) :
    ∃ doublings ≤ 17, pushedSize h pushed = 8128 * 2 ^ doublings := by
  induction pushed with
  | zero => exact ⟨0, Nat.zero_le 17, rfl⟩
  | succ pushed ih =>
      rcases ih (by omega) with ⟨doublings, bound, size⟩
      rw [pushedSize]
      split
      · rename_i small
        rw [Nat.mod_eq_of_lt (by rw [mostElements] at few; omega), size] at small
        have below : doublings < 17 := by
          by_contra reached
          have full : doublings = 17 := by omega
          rw [full] at small
          rw [mostElements] at few
          omega
        have power : 2 ^ doublings ≤ 2 ^ 16 := Nat.pow_le_pow_right (by omega) (by omega)
        apply Exists.intro (doublings + 1)
        apply And.intro below
        rw [size, Nat.mod_eq_of_lt (by omega), Nat.pow_succ, Nat.mul_assoc]
      · exact ⟨doublings, bound, size⟩

theorem pushed_size_bound (h pushed : Nat) (few : h + pushed ≤ mostElements) :
    pushedSize h pushed ≤ mostElements := by
  rcases pushed_size_power h pushed few with ⟨doublings, bound, size⟩
  have power : 2 ^ doublings ≤ 2 ^ 17 := Nat.pow_le_pow_right (by omega) bound
  rw [size, mostElements]
  omega

theorem pushed_size_le (h pushed : Nat) : pushedSize h pushed ≤ 8128 * 2 ^ pushed := by
  induction pushed with
  | zero => exact Nat.le_refl 8128
  | succ pushed ih =>
      have wrapped := Nat.mod_le (pushedSize h pushed * 2) (2 ^ 32)
      rw [pushedSize, Nat.pow_succ]
      split <;> omega

/-- The size has been doubled at every change, or there is room for the lines that are
left. -/
theorem pushed_size_cases {h : Nat} (hPositive : 1 ≤ h) (pushed : Nat)
    (few : h + pushed ≤ mostElements) :
    pushedSize h pushed = 8128 * 2 ^ pushed ∨ h + pushed ≤ pushedSize h pushed := by
  induction pushed with
  | zero => exact Or.inl rfl
  | succ pushed ih =>
      have before := ih (by omega)
      have bound := pushed_size_bound h pushed (by omega)
      rw [mostElements] at few bound
      rw [pushedSize, Nat.mod_eq_of_lt (by omega : h + pushed + 1 < 2 ^ 32),
        Nat.mod_eq_of_lt (by omega : pushedSize h pushed * 2 < 2 ^ 32)]
      split
      · rcases before with doubled | ample
        · rw [doubled, Nat.pow_succ, Nat.mul_assoc]
          exact Or.inl rfl
        · exact Or.inr (by omega)
      · exact Or.inr (by omega)

theorem lt_pushed_size {h y pushed : Nat} (line : y < h) (few : h + pushed ≤ mostElements)
    (doubling : y + pushed < 8128 * 2 ^ pushed) : y + pushed < elementRoom (pushedSize h pushed) := by
  rw [element_room_exact (pushed_size_bound h pushed few)]
  rcases pushed_size_cases (by omega) pushed few with doubled | ample
  · rw [doubled]
    exact doubling
  · omega

/-- The first line that is too late for its changes stops the buffer, and so does one
change too many for 32 bits. -/
def ChangesKeepUp (data : List UInt8) (w h : Nat) : Prop :=
  (∀ y, y < h → y + changesBefore data w (y + 1) < 8128 * 2 ^ changesBefore data w (y + 1)) ∧
  h + changesBefore data w h ≤ mostElements

theorem pushed_size_wrapped {h pushed : Nat} (hPositive : 1 ≤ h) (hBound : h < 2 ^ 16)
    (full : h + pushed = mostElements) : elementRoom (pushedSize h (pushed + 1)) ≤ pushed := by
  have same : pushedSize h pushed = mostElements := by
    apply Nat.le_antisymm (pushed_size_bound h pushed (Nat.le_of_eq full))
    rcases pushed_size_cases hPositive pushed (Nat.le_of_eq full) with doubled | ample
    · have large : 2 ^ 18 ≤ 2 ^ pushed := by
        apply Nat.pow_le_pow_right (by omega)
        rw [mostElements] at full
        omega
      rw [doubled, mostElements]
      omega
    · omega
  rw [mostElements] at full same
  rw [pushedSize, same, if_pos (by rw [full]; decide), elementRoom]
  omega

theorem add_le_mul_two_pow (more : Nat) {first : Nat} (positive : 1 ≤ first) :
    more + first ≤ first * 2 ^ more := by
  have below : more + 1 ≤ 2 ^ more := Nat.lt_two_pow_self
  calc more + first ≤ first * more + first := by
        apply Nat.add_le_add_right
        exact Nat.le_mul_of_pos_left more positive
    _ = first * (more + 1) := (Nat.mul_succ first more).symm
    _ ≤ first * 2 ^ more := Nat.mul_le_mul_left first below

theorem change_keeps_up {data : List UInt8} {w h y earlier : Nat} (keeps : ChangesKeepUp data w h)
    (line : y < h) (lower : changesBefore data w y ≤ earlier) :
    y + (earlier + 1) < 8128 * 2 ^ (earlier + 1) := by
  rcases Nat.exists_eq_add_of_le lower with ⟨more, rfl⟩
  have grows := add_le_mul_two_pow more (Nat.one_le_two_pow (n := changesBefore data w y))
  rw [← Nat.pow_add] at grows
  rw [Nat.pow_succ]
  cases y with
  | zero =>
      have below := Nat.lt_two_pow_self (n := changesBefore data w 0 + more)
      omega
  | succ y =>
      have before := keeps.1 y (by omega)
      omega

theorem change_in_line (data : List UInt8) (w number lines : Nat)
    (counted : number < changesBefore data w lines) :
    ∃ y, y < lines ∧ changesBefore data w y ≤ number ∧ number < changesBefore data w (y + 1) := by
  induction lines with
  | zero => exact absurd counted (Nat.not_lt_zero number)
  | succ lines ih =>
      by_cases earlier : number < changesBefore data w lines
      · rcases ih earlier with ⟨y, below, found⟩
        exact ⟨y, Nat.lt_succ_of_lt below, found⟩
      · exact ⟨lines, Nat.lt_succ_self lines, Nat.le_of_not_lt earlier, counted⟩

theorem compress_inside_iff (data : List UInt8) (w : Nat) {h : Nat} (hPositive : 1 ≤ h)
    (hBound : h < 2 ^ 16) : CompressInside data w h ↔ ChangesKeepUp data w h := by
  have lines : CompressInside data w h ↔ ∀ y, y < h → LineInside data w h y := by
    rw [CompressInside, compress_pushes_eq]
    exact lines_inside_iff data w h h
  rw [lines]
  constructor
  · intro inside
    constructor
    · intro y line
      have room := element_room_le (pushedSize h (changesBefore data w (y + 1)))
      have size := pushed_size_le h (changesBefore data w (y + 1))
      have written := (inside y line).2
      omega
    · -- otherwise the change with which the elements become too many lies in some line
      by_contra many
      have hSmall : h ≤ mostElements := by
        rw [mostElements]
        omega
      rcases change_in_line data w (mostElements - h) h (by omega) with ⟨y, line, lower, upper⟩
      have written := (inside y line).1 (mostElements - h) lower upper
      have wrapped := pushed_size_wrapped hPositive hBound (Nat.add_sub_of_le hSmall)
      omega
  · intro keeps y line
    have later := changes_before_mono data w (show y + 1 ≤ h from line)
    have few := keeps.2
    constructor
    · intro earlier lower upper
      have level := lt_pushed_size line (by omega) (change_keeps_up keeps line lower)
      omega
    · exact lt_pushed_size line (by omega) (keeps.1 y line)

/-! ## Images of one colour, and of two by turns -/

theorem changes_uniform (len count : Nat) : changes 0 len (List.replicate count 0) = 0 := by
  induction count generalizing len with
  | zero => rfl
  | succ count ih =>
      rw [List.replicate_succ, changes, if_pos rfl]
      exact ih (len + 1)

theorem changes_before_uniform (w count lines : Nat) :
    changesBefore (List.replicate count 0) w lines = 0 := by
  induction lines with
  | zero => rfl
  | succ lines ih =>
      rw [changes_before_succ, ih, lineChanges, List.drop_replicate, List.take_replicate,
        changes_uniform]

def alternating (color : UInt8) : Nat → List UInt8
  | 0 => []
  | count + 1 => color :: alternating (1 - color) count

@[simp] theorem alternating_length (color : UInt8) (count : Nat) :
    (alternating color count).length = count := by
  induction count generalizing color with
  | zero => rfl
  | succ count ih => rw [alternating, List.length_cons, ih]

theorem take_alternating (color : UInt8) (some_count more : Nat) :
    (alternating color (some_count + more)).take some_count = alternating color some_count := by
  induction some_count generalizing color with
  | zero => rfl
  | succ some_count ih =>
      rw [Nat.succ_add, alternating, List.take_succ_cons, ih, alternating]

theorem drop_alternating (color : UInt8) (some_count more : Nat) :
    ∃ next, (alternating color (some_count + more)).drop some_count = alternating next more := by
  induction some_count generalizing color with
  | zero => exact ⟨color, by rw [Nat.zero_add, List.drop_zero]⟩
  | succ some_count ih =>
      rw [Nat.succ_add, alternating, List.drop_succ_cons]
      exact ih (1 - color)

theorem other_color (color : UInt8) : 1 - color ≠ color := by
  intro same
  have parity := congrArg UInt8.toNat same
  have bound := color.toNat_lt
  rw [UInt8.toNat_sub] at parity
  have one : (1 : UInt8).toNat = 1 := rfl
  omega

theorem changes_alternating (color : UInt8) (count : Nat) :
    changes color 1 (alternating (1 - color) count) = count := by
  induction count generalizing color with
  | zero => rfl
  | succ count ih =>
      rw [alternating, changes, if_neg (other_color color), if_neg (by decide), ih (1 - color),
        Nat.add_comm]

theorem changes_alternating_line (color : UInt8) (count : Nat) :
    changes 0 0 (alternating color (count + 1)) = count := by
  rw [alternating, changes]
  by_cases transparent : color = 0
  · rw [if_pos transparent, transparent]
    exact changes_alternating 0 count
  · rw [if_neg transparent, if_pos (Nat.zero_mod _), Nat.zero_add]
    exact changes_alternating color count

theorem line_changes_alternating {w h y : Nat} (wPositive : 1 ≤ w) (line : y < h) :
    lineChanges (alternating 0 (w * h)) w y = w - 1 := by
  have offset : y * w % 2 ^ 32 ≤ y * w := Nat.mod_le _ _
  have inside : y * w + w ≤ w * h := by
    rw [← Nat.succ_mul, Nat.mul_comm w h]
    exact Nat.mul_le_mul_right w line
  rw [lineChanges]
  rcases Nat.exists_eq_add_of_le (show y * w % 2 ^ 32 + w ≤ w * h by omega) with ⟨more, size⟩
  rw [size, Nat.add_assoc]
  rcases drop_alternating 0 (y * w % 2 ^ 32) (w + more) with ⟨color, same⟩
  rw [same, take_alternating]
  have onward := changes_alternating_line color (w - 1)
  rw [Nat.sub_add_cancel wPositive] at onward
  exact onward

theorem changes_before_alternating {w h : Nat} (wPositive : 1 ≤ w) (lines : Nat)
    (inside : lines ≤ h) :
    changesBefore (alternating 0 (w * h)) w lines = lines * (w - 1) := by
  induction lines with
  | zero => rw [changes_before_zero, Nat.zero_mul]
  | succ lines ih =>
      rw [changes_before_succ, ih (Nat.le_of_succ_le inside), Nat.succ_mul,
        line_changes_alternating wPositive inside]

theorem changes_before_le (data : List UInt8) {w : Nat} (wPositive : 1 ≤ w) (lines : Nat) :
    changesBefore data w lines ≤ lines * (w - 1) := by
  induction lines with
  | zero => exact Nat.zero_le _
  | succ lines ih =>
      rw [changes_before_succ, Nat.succ_mul]
      exact Nat.add_le_add ih (line_changes_le data wPositive lines)

/-- The sizes for which `rle_compress` has room for every image. -/
theorem compress_always_inside_iff {w h : Nat} (wPositive : 1 ≤ w) (hPositive : 1 ≤ h)
    (hBound : h < 2 ^ 16) :
    (∀ data : List UInt8, w * h ≤ data.length → CompressInside data w h) ↔
      h ≤ 8128 ∧ w * h ≤ mostElements := by
  have pixels : h + h * (w - 1) = w * h := by
    rw [Nat.add_comm, ← Nat.mul_succ, Nat.succ_eq_add_one, Nat.sub_add_cancel wPositive,
      Nat.mul_comm]
  constructor
  · intro inside
    constructor
    · by_contra tall
      have uniform := inside (List.replicate (w * h) 0) (by rw [List.length_replicate])
      have keeps := ((compress_inside_iff _ w hPositive hBound).mp uniform).1 8128 (by omega)
      rw [changes_before_uniform] at keeps
      exact absurd keeps (by decide)
    · have turns := inside (alternating 0 (w * h)) (by rw [alternating_length])
      have keeps := ((compress_inside_iff _ w hPositive hBound).mp turns).2
      rw [changes_before_alternating wPositive h (Nat.le_refl h), pixels] at keeps
      exact keeps
  · intro bounds data _
    apply (compress_inside_iff data w hPositive hBound).mpr
    constructor
    · intro y line
      have below := Nat.lt_two_pow_self (n := changesBefore data w (y + 1))
      omega
    · have few := changes_before_le data wPositive h
      omega

end Xineliboutput.Osd
