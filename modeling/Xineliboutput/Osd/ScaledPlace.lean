import Xineliboutput.Osd.SetRle

/-!
# Where scaled windows lie

The geometry of `osdcmd_scale` in `xine/osd_manager.c`: start and end of a window are scaled
to the video size, whatever output size is asked for, and two lines are added to the end
before it is scaled.
-/

namespace Xineliboutput.Osd.Rle

set_option autoImplicit false

/-! ## One axis -/

/-- `new_x` for the extent and the video size. -/
def scaledStart (extent video x : Nat) : Int := (intOfUnsigned (x * video)).tdiv extent

/-- `x2` -/
def scaledEnd (extent video x w : Nat) : Int :=
  (intOfUnsigned ((x + w + 1 + 1) * video - 1)).tdiv extent

/-- `new_w` -/
def scaledSize (extent video x w : Nat) : Int :=
  scaledEnd extent video x w - scaledStart extent video x - 1

def scaledStop (extent video x w : Nat) : Int :=
  scaledStart extent video x + scaledSize extent video x w

/-- The number of lines that two scaled windows have in common, negative where they are apart. -/
def scaledCommon (extent video x w x' w' : Nat) : Int :=
  min (scaledStop extent video x w) (scaledStop extent video x' w') -
    max (scaledStart extent video x) (scaledStart extent video x')

theorem common_le {first last first' last' : Int} (near : last ≤ first' + 1) :
    min last last' - max first first' ≤ 1 := by
  omega

theorem scaled_common_comm (extent video x w x' w' : Nat) :
    scaledCommon extent video x w x' w' = scaledCommon extent video x' w' x w := by
  rw [scaledCommon, scaledCommon, Int.min_comm, Int.max_comm]

/-- What is asked of the scaled windows on one axis. `crosswise` is the output size on the
other one: an overlap of windows side by side is a single line of the picture if the picture
has no other. -/
structure AxisWell (extent video output crosswise : Nat) : Prop where
  solid : ∀ x w, 1 ≤ w → x + w ≤ extent → 1 ≤ scaledSize extent video x w
  inside : ∀ x w, 1 ≤ w → x + w ≤ extent →
    0 ≤ scaledStart extent video x ∧ scaledStop extent video x w ≤ output
  whole : scaledStart extent video 0 = 0 ∧ scaledStop extent video 0 extent = output
  apart : ∀ x w x' w', 1 ≤ w → 1 ≤ w' → x + w ≤ x' → x' + w' ≤ extent →
    scaledCommon extent video x w x' w' ≤ 1 ∨ crosswise ≤ 1

/-- The extent is a single line and the output, with two lines more, three times the video; or
the output has the video size, which is more than two thirds of the extent and not larger; or
the video is larger, the other axis of the output is a single line and the output is as much
larger than the video as the added lines make it. In each case no product overflows. -/
structure AxisFits (extent video output crosswise : Nat) : Prop where
  sizes : extent = 1 ∧ output + 2 = 3 * video ∨
    2 ≤ extent ∧ 2 * extent < 3 * video ∧ video ≤ extent ∧ output = video ∨
    2 ≤ extent ∧ extent < video ∧ crosswise ≤ 1 ∧
      (output + 1) * extent < (extent + 2) * video ∧ (extent + 2) * video ≤ (output + 2) * extent
  products : (extent + 2) * video ≤ 2 ^ 31

variable {extent video output crosswise : Nat}

theorem start_exact {x : Nat} (small : x * video < 2 ^ 31) :
    scaledStart extent video x = (x * video / extent : Nat) := by
  have value : intOfUnsigned ((x : Int) * video) = (x * video : Nat) := by
    rw [← Int.natCast_mul]
    exact int_of_unsigned_small small
  rw [scaledStart, value, ← Int.ofNat_tdiv]

theorem end_exact {x w : Nat} (shown : 0 < video) (small : (x + w + 2) * video ≤ 2 ^ 31) :
    scaledEnd extent video x w = (((x + w + 2) * video - 1) / extent : Nat) := by
  have positive : 0 < (x + w + 2) * video := Nat.mul_pos (by omega) shown
  have value : ((x : Int) + w + 1 + 1) * video - 1 = ((x + w + 2) * video - 1 : Nat) := by
    rw [Int.natCast_sub positive, Int.natCast_mul]
    rfl
  rw [scaledEnd, value, int_of_unsigned_small (by omega), ← Int.ofNat_tdiv]

theorem stop_eq (extent video x w : Nat) :
    scaledStop extent video x w = scaledEnd extent video x w - 1 := by
  unfold scaledStop scaledSize
  omega

theorem end_mul (x w : Nat) : (x + w + 2) * video = x * video + w * video + 2 * video := by
  rw [Nat.add_mul, Nat.add_mul]

theorem products_small (shown : 0 < video) (products : (extent + 2) * video ≤ 2 ^ 31) {x w : Nat}
    (within : x + w ≤ extent) : x * video < 2 ^ 31 ∧ (x + w + 2) * video ≤ 2 ^ 31 := by
  have largest : (x + w + 2) * video ≤ (extent + 2) * video :=
    Nat.mul_le_mul_right video (by omega)
  have start : x * video < (x + w + 2) * video := Nat.mul_lt_mul_of_pos_right (by omega) shown
  omega

/-- The two lines more make the end of the whole extent the line after the output. -/
theorem AxisFits.last (solid : 1 ≤ extent) (fits : AxisFits extent video output crosswise) :
    ((extent + 2) * video - 1) / extent = output + 1 := by
  rcases fits.sizes with ⟨rfl, odd⟩ | ⟨-, large, least, rfl⟩ | ⟨-, -, -, more, most⟩
  · rw [Nat.div_one]
    omega
  · have once : (2 * output - 1) / extent = 1 := by
      apply Nat.div_eq_of_lt_le
      · omega
      · omega
    have parts : (extent + 2) * output - 1 = 2 * output - 1 + extent * output := by
      rw [Nat.add_mul]
      omega
    rw [parts, Nat.add_mul_div_left _ _ solid, once, Nat.add_comm]
  · apply Nat.div_eq_of_lt_le
    · omega
    · rw [Nat.add_assoc]
      exact Nat.lt_of_lt_of_le (Nat.sub_one_lt (by omega)) most

theorem AxisFits.large (fits : AxisFits extent video output crosswise) (asked : 1 ≤ output) :
    2 * extent < 3 * video := by
  rcases fits.sizes with single | several | enlarged
  · omega
  · omega
  · omega

theorem AxisFits.well (solid : 1 ≤ extent) (asked : 1 ≤ output)
    (fits : AxisFits extent video output crosswise) :
    AxisWell extent video output crosswise := by
  have large : 2 * extent < 3 * video := fits.large asked
  have shown : 0 < video := by omega
  have start : ∀ x w, x + w ≤ extent →
      scaledStart extent video x = (x * video / extent : Nat) := by
    intro x w within
    apply start_exact
    exact (products_small shown fits.products within).1
  have stop : ∀ x w, x + w ≤ extent →
      scaledEnd extent video x w = (((x + w + 2) * video - 1) / extent : Nat) := by
    intro x w within
    apply end_exact shown
    exact (products_small shown fits.products within).2
  have whole : scaledEnd extent video 0 extent = output + 1 := by
    rw [stop 0 extent (by omega), Nat.zero_add, fits.last solid]
    rfl
  constructor
  case solid =>
    intro x w wide within
    have more : x * video / extent + 2 ≤ ((x + w + 2) * video - 1) / extent := by
      calc x * video / extent + 2
          = (x * video + extent * 2) / extent := (Nat.add_mul_div_left _ _ solid).symm
        _ ≤ ((x + w + 2) * video - 1) / extent := by
            apply Nat.div_le_div_right
            have line : video ≤ w * video := Nat.le_mul_of_pos_left video wide
            rw [end_mul]
            omega
    rw [scaledSize, start x w within, stop x w within]
    have cast : ((x * video / extent : Nat) : Int) + 2 ≤
        (((x + w + 2) * video - 1) / extent : Nat) := Int.ofNat_le.mpr more
    generalize ((x * video / extent : Nat) : Int) = first at cast ⊢
    generalize ((((x + w + 2) * video - 1) / extent : Nat) : Int) = last at cast ⊢
    omega
  case inside =>
    intro x w _ within
    have bound : ((x + w + 2) * video - 1) / extent ≤ output + 1 := by
      calc ((x + w + 2) * video - 1) / extent
          ≤ ((extent + 2) * video - 1) / extent := by
            apply Nat.div_le_div_right
            apply Nat.sub_le_sub_right
            exact Nat.mul_le_mul_right video (by omega)
        _ = output + 1 := fits.last solid
    rw [stop_eq, start x w within, stop x w within]
    constructor
    · exact Int.natCast_nonneg _
    · exact Int.sub_right_le_of_le_add (Int.ofNat_le.mpr bound)
  case whole =>
    rw [stop_eq, whole, start 0 0 (by omega), Nat.zero_mul, Nat.zero_div]
    constructor
    · rfl
    · exact Int.add_sub_cancel _ 1
  case apart =>
    intro x w x' w' wide wide' before within
    rcases fits.sizes with single | ⟨-, -, least, -⟩ | ⟨-, -, thin, -⟩
    · omega
    · left
      have near : ((x + w + 2) * video - 1) / extent ≤ x' * video / extent + 2 := by
        calc ((x + w + 2) * video - 1) / extent
            ≤ (x' * video + extent * 2) / extent := by
              apply Nat.div_le_div_right
              have later : (x + w) * video ≤ x' * video := Nat.mul_le_mul_right video before
              rw [Nat.add_mul] at later
              rw [end_mul]
              omega
          _ = x' * video / extent + 2 := Nat.add_mul_div_left _ _ solid
      have ends : scaledStop extent video x w ≤ scaledStart extent video x' + 1 := by
        rw [stop_eq, start x' w' within, stop x w (by omega)]
        exact Int.sub_right_le_of_le_add (Int.ofNat_le.mpr near)
      exact common_le ends
    · right
      exact thin

/-- Two windows side by side overlap by two lines where the video is larger than the extent. -/
theorem enlarged_overlap (several : 2 ≤ extent) (larger : extent < video) :
    ∃ line, 1 ≤ line ∧ line < extent ∧
      line * video / extent + 3 ≤ ((line + 2) * video - 1) / extent := by
  -- a line that is scaled to just before a multiple of the extent
  have enough : ∀ line, extent < line * video % extent + 2 * (video - extent) →
      line * video / extent + 3 ≤ ((line + 2) * video - 1) / extent := by
    intro line rest
    apply (Nat.le_div_iff_mul_le (by omega)).mpr
    have parts := Nat.div_add_mod (line * video) extent
    rw [Nat.add_mul, Nat.add_mul, Nat.mul_comm _ extent]
    omega
  by_cases double : extent < 2 * (video - extent)
  · refine ⟨1, Nat.le_refl 1, several, enough 1 ?_⟩
    omega
  · let step := video - extent
    have moves : 0 < step := Nat.sub_pos_of_lt larger
    let line := (extent - 1) / step
    have first : 1 ≤ line := by
      apply (Nat.le_div_iff_mul_le moves).mpr
      omega
    have last : line < extent := by
      calc line ≤ extent - 1 := Nat.div_le_self _ _
        _ < extent := by omega
    have below : line * step ≤ extent - 1 := Nat.div_mul_le_self _ _
    have close : extent - 1 < line * step + step := by
      have next := Nat.lt_mul_div_succ (extent - 1) moves
      rw [Nat.mul_comm, Nat.add_mul, Nat.one_mul] at next
      exact next
    have rest : line * video % extent = line * step := by
      have whole : video = step + extent := by omega
      rw [whole, Nat.mul_add, Nat.add_mul_mod_self_right, Nat.mod_eq_of_lt (by omega)]
    refine ⟨line, first, last, enough line ?_⟩
    rw [rest]
    omega

/-- With an overflow, or no video, the end of the whole extent is not positive. -/
theorem whole_overflow (solid : 1 ≤ extent) (narrow : extent < 2 ^ 16 ∧ video < 2 ^ 16)
    (overflow : 2 ^ 31 < (extent + 2) * video ∨ video = 0) :
    scaledEnd extent video 0 extent ≤ 0 := by
  have largest : (extent + 2) * video ≤ (2 ^ 16 + 1) * (2 ^ 16 - 1) :=
    Nat.mul_le_mul (by omega) (by omega)
  have product : ((0 : Nat) + (extent : Int) + 1 + 1) * video - 1 =
      ((extent + 2) * video : Nat) - 1 := by
    rw [Int.natCast_mul, Nat.cast_zero, Int.zero_add]
    rfl
  have negative : intOfUnsigned (((0 : Nat) + (extent : Int) + 1 + 1) * video - 1) ≤ 0 := by
    rw [product, intOfUnsigned, Int.bmod_def]
    rcases overflow with wraps | none
    · omega
    · rw [none, Nat.mul_zero]
      decide
  have opposite := Int.tdiv_nonneg (Int.neg_nonneg_of_nonpos negative) (Int.natCast_nonneg extent)
  rw [Int.neg_tdiv] at opposite
  exact Int.nonpos_of_neg_nonneg opposite

theorem AxisWell.fits (solid : 1 ≤ extent) (asked : 1 ≤ output)
    (narrow : extent < 2 ^ 16 ∧ video < 2 ^ 16) (well : AxisWell extent video output crosswise) :
    AxisFits extent video output crosswise := by
  have ends : scaledEnd extent video 0 extent = output + 1 := by
    have stop := well.whole.2
    rw [stop_eq] at stop
    omega
  have sane : ¬(2 ^ 31 < (extent + 2) * video ∨ video = 0) := by
    intro overflow
    have negative := whole_overflow solid narrow overflow
    omega
  have shown : 0 < video := by omega
  have products : (extent + 2) * video ≤ 2 ^ 31 := by omega
  have small : ∀ x w, x + w ≤ extent → x * video < 2 ^ 31 ∧ (x + w + 2) * video ≤ 2 ^ 31 :=
    fun x w within => products_small shown products within
  have last : ((extent + 2) * video - 1) / extent = output + 1 := by
    rw [end_exact shown (small 0 extent (by omega)).2, Nat.zero_add] at ends
    exact Int.ofNat_inj.mp ends
  have most : (extent + 2) * video ≤ (output + 2) * extent := by
    have next := Nat.lt_mul_div_succ ((extent + 2) * video - 1) solid
    rw [last, Nat.mul_comm extent] at next
    change _ < (output + 2) * extent at next
    omega
  have more : (output + 1) * extent < (extent + 2) * video := by
    have whole := Nat.div_mul_le_self ((extent + 2) * video - 1) extent
    have some : 0 < (extent + 2) * video := Nat.mul_pos (by omega) shown
    rw [last] at whole
    omega
  refine ⟨?_, products⟩
  by_cases several : 2 ≤ extent
  case neg =>
    left
    have single : extent = 1 := by omega
    subst single
    omega
  right
  have large : 2 * extent < 3 * video := by
    have line := well.solid 0 1 (Nat.le_refl 1) (by omega)
    rw [scaledSize, end_exact shown (small 0 1 (by omega)).2,
      start_exact (small 0 1 (by omega)).1, Nat.zero_mul, Nat.zero_div,
      Nat.zero_add] at line
    have two : 2 ≤ ((1 + 2) * video - 1) / extent := by omega
    have bound := (Nat.le_div_iff_mul_le solid).mp two
    omega
  by_cases larger : extent < video
  · right
    obtain ⟨line, first, before, overlap⟩ := enlarged_overlap several larger
    have apart := well.apart (line - 1) 1 line 1 (Nat.le_refl 1) (Nat.le_refl 1) (by omega)
      (by omega)
    have thin : crosswise ≤ 1 := by
      rcases apart with near | thin
      · have starts : (line - 1) * video / extent ≤ line * video / extent := by
          apply Nat.div_le_div_right
          exact Nat.mul_le_mul_right video (Nat.sub_le line 1)
        have stops : ((line + 2) * video - 1) / extent ≤ ((line + 1 + 2) * video - 1) / extent := by
          apply Nat.div_le_div_right
          apply Nat.sub_le_sub_right
          exact Nat.mul_le_mul_right video (by omega)
        rw [scaledCommon, stop_eq, stop_eq, end_exact shown (small (line - 1) 1 (by omega)).2,
          end_exact shown (small line 1 (by omega)).2,
          start_exact (small line 1 (by omega)).1,
          start_exact (small (line - 1) 1 (by omega)).1, Nat.sub_add_cancel first] at near
        omega
      · exact thin
    exact ⟨several, larger, thin, more, most⟩
  · left
    have parts : (extent + 2) * video - 1 = 2 * video - 1 + extent * video := by
      rw [Nat.add_mul]
      omega
    have once : (2 * video - 1) / extent = 1 := by
      apply Nat.div_eq_of_lt_le
      · omega
      · omega
    rw [parts, Nat.add_mul_div_left _ _ solid, once] at last
    exact ⟨several, large, by omega, by omega⟩

theorem AxisWell.beside (well : AxisWell extent video output crosswise) {x w x' w' : Nat}
    (wide : 1 ≤ w) (wide' : 1 ≤ w') (within : x + w ≤ extent) (within' : x' + w' ≤ extent)
    (apart : x + w ≤ x' ∨ x' + w' ≤ x) :
    scaledCommon extent video x w x' w' ≤ 1 ∨ crosswise ≤ 1 := by
  rcases apart with before | behind
  · exact well.apart x w x' w' wide wide' before within'
  · rw [scaled_common_comm]
    exact well.apart x' w' x w wide' wide behind within

theorem AxisWell.common_le_output (well : AxisWell extent video output crosswise)
    {x w x' w' : Nat} (wide : 1 ≤ w) (within : x + w ≤ extent) :
    scaledCommon extent video x w x' w' ≤ output := by
  have inside := well.inside x w wide within
  rw [scaledCommon]
  omega

/-! ## The window -/

/-- A window in the coordinates of the video: `new_x`, `new_y`, `new_w` and `new_h`. -/
structure Place where
  x : Int
  y : Int
  w : Int
  h : Int
  deriving DecidableEq

/-- Where `osdcmd_scale` puts a window. -/
def scaledPlace (extent video : Extent) (cmd : Command) : Place where
  x := scaledStart extent.width video.width cmd.x
  y := scaledStart extent.height video.height cmd.y
  w := scaledSize extent.width video.width cmd.x cmd.w
  h := scaledSize extent.height video.height cmd.y cmd.h

structure Command.Within (cmd : Command) (extent : Extent) : Prop where
  wide : 1 ≤ cmd.w
  high : 1 ≤ cmd.h
  columns : cmd.x + cmd.w ≤ extent.width
  rows : cmd.y + cmd.h ≤ extent.height

def Command.Disjoint (cmd cmd' : Command) : Prop :=
  (cmd.x + cmd.w ≤ cmd'.x ∨ cmd'.x + cmd'.w ≤ cmd.x) ∨
    (cmd.y + cmd.h ≤ cmd'.y ∨ cmd'.y + cmd'.h ≤ cmd.y)

def Place.right (place : Place) : Int := place.x + place.w

def Place.bottom (place : Place) : Int := place.y + place.h

/-- The number of columns that two windows have in common, negative where they are apart. -/
def Place.commonColumns (place place' : Place) : Int :=
  min place.right place'.right - max place.x place'.x

/-- The number of rows that two windows have in common, negative where they are apart. -/
def Place.commonRows (place place' : Place) : Int :=
  min place.bottom place'.bottom - max place.y place'.y

abbrev Extent.Narrow (extent : Extent) : Prop := extent.width < 2 ^ 16 ∧ extent.height < 2 ^ 16

abbrev Extent.Positive (extent : Extent) : Prop := 1 ≤ extent.width ∧ 1 ≤ extent.height

/-- What is asked of the scaled windows, for an output size. -/
structure PlacedWell (extent video output : Extent) : Prop where
  solid : ∀ cmd, cmd.Within extent →
    1 ≤ (scaledPlace extent video cmd).w ∧ 1 ≤ (scaledPlace extent video cmd).h
  inside : ∀ cmd, cmd.Within extent →
    (0 ≤ (scaledPlace extent video cmd).x ∧ (scaledPlace extent video cmd).right ≤ output.width) ∧
      0 ≤ (scaledPlace extent video cmd).y ∧
        (scaledPlace extent video cmd).bottom ≤ output.height
  whole : ∀ cmd, cmd.x = 0 → cmd.y = 0 → cmd.w = extent.width → cmd.h = extent.height →
    scaledPlace extent video cmd = ⟨0, 0, output.width, output.height⟩
  apart : ∀ cmd cmd', cmd.Within extent → cmd'.Within extent → cmd.Disjoint cmd' →
    (scaledPlace extent video cmd).commonColumns (scaledPlace extent video cmd') ≤ 1 ∨
      (scaledPlace extent video cmd).commonRows (scaledPlace extent video cmd') ≤ 1

/-- And the command gets the window that is computed: 16 bits hold it. -/
structure ScalesWell (extent video output : Extent) : Prop
    extends PlacedWell extent video output where
  held : ∀ cmd scaled, cmd.Within extent → osdcmdScale extent video cmd = .ok scaled →
    Place.mk scaled.x scaled.y scaled.w scaled.h = scaledPlace extent video cmd

theorem osdcmd_scale_fields {extent video : Extent} {cmd scaled : Command}
    (done : osdcmdScale extent video cmd = .ok scaled) :
    scaled.x = ((scaledPlace extent video cmd).x % 2 ^ 16).toNat ∧
      scaled.y = ((scaledPlace extent video cmd).y % 2 ^ 16).toNat ∧
      scaled.w = ((scaledPlace extent video cmd).w % 2 ^ 16).toNat ∧
      scaled.h = ((scaledPlace extent video cmd).h % 2 ^ 16).toNat := by
  unfold osdcmdScale at done
  split at done
  · cases done
  · dsimp only at done
    split at done
    · cases done
    · rw [← Except.ok.inj done]
      simp only [scaledPlace, scaledSize, scaledEnd, scaledStart, and_self]

def bareWindow (x y w h : Nat) : Command where
  x
  y
  w
  h
  datalen := 0
  data := none
  colors := 0
  palette := none
  flags := 0
  scaling := 0

section
variable {extent video output : Extent}

theorem scaled_place_right (cmd : Command) :
    (scaledPlace extent video cmd).right =
      scaledStop extent.width video.width cmd.x cmd.w := by
  simp only [Place.right, scaledPlace, scaledStop]

theorem scaled_place_bottom (cmd : Command) :
    (scaledPlace extent video cmd).bottom =
      scaledStop extent.height video.height cmd.y cmd.h := by
  simp only [Place.bottom, scaledPlace, scaledStop]

theorem scaled_place_columns (cmd cmd' : Command) :
    (scaledPlace extent video cmd).commonColumns (scaledPlace extent video cmd') =
      scaledCommon extent.width video.width cmd.x cmd.w cmd'.x cmd'.w := by
  rw [Place.commonColumns, scaled_place_right, scaled_place_right]
  simp only [scaledPlace, scaledCommon]

theorem scaled_place_rows (cmd cmd' : Command) :
    (scaledPlace extent video cmd).commonRows (scaledPlace extent video cmd') =
      scaledCommon extent.height video.height cmd.y cmd.h cmd'.y cmd'.h := by
  rw [Place.commonRows, scaled_place_bottom, scaled_place_bottom]
  simp only [scaledPlace, scaledCommon]

/-! Rows and columns exchanged. -/

def Extent.transposed (extent : Extent) : Extent := ⟨extent.height, extent.width⟩

def Command.transposed (cmd : Command) : Command :=
  { cmd with x := cmd.y, y := cmd.x, w := cmd.h, h := cmd.w }

theorem Command.Within.transposed {cmd : Command} (within : cmd.Within extent.transposed) :
    cmd.transposed.Within extent :=
  ⟨within.high, within.wide, within.rows, within.columns⟩

def Place.transposed (place : Place) : Place := ⟨place.y, place.x, place.h, place.w⟩

section
variable (place place' : Place)

@[simp]
theorem Place.x_transposed : place.transposed.x = place.y := rfl

@[simp]
theorem Place.y_transposed : place.transposed.y = place.x := rfl

@[simp]
theorem Place.right_transposed : place.transposed.right = place.bottom := rfl

@[simp]
theorem Place.bottom_transposed : place.transposed.bottom = place.right := rfl

@[simp]
theorem Place.common_columns_transposed :
    place.transposed.commonColumns place'.transposed = place.commonRows place' := rfl

@[simp]
theorem Place.common_rows_transposed :
    place.transposed.commonRows place'.transposed = place.commonColumns place' := rfl

end

theorem scaled_place_transposed (cmd : Command) :
    scaledPlace extent.transposed video.transposed cmd =
      (scaledPlace extent video cmd.transposed).transposed := by
  simp only [scaledPlace, Extent.transposed, Command.transposed, Place.transposed]

theorem PlacedWell.transposed (well : PlacedWell extent video output) :
    PlacedWell extent.transposed video.transposed output.transposed := by
  constructor
  case solid =>
    intro cmd within
    rw [scaled_place_transposed]
    exact (well.solid _ within.transposed).symm
  case inside =>
    intro cmd within
    have lies := well.inside _ within.transposed
    rw [scaled_place_transposed, Place.right_transposed, Place.bottom_transposed,
      Place.x_transposed, Place.y_transposed]
    exact lies.symm
  case whole =>
    intro cmd first top columns rows
    rw [scaled_place_transposed, well.whole cmd.transposed top first rows columns]
    rfl
  case apart =>
    intro cmd cmd' within within' disjoint
    have apart := well.apart _ _ within.transposed within'.transposed disjoint.symm
    rw [scaled_place_transposed, scaled_place_transposed, Place.common_columns_transposed,
      Place.common_rows_transposed]
    exact apart.symm

theorem PlacedWell.width (solid : extent.Positive) (well : PlacedWell extent video output) :
    AxisWell extent.width video.width output.width output.height := by
  have within : ∀ x w, 1 ≤ w → x + w ≤ extent.width →
      (bareWindow x 0 w extent.height).Within extent := by
    intro x w wide columns
    exact ⟨wide, solid.2, columns, Nat.le_of_eq (Nat.zero_add _)⟩
  have whole := well.whole (bareWindow 0 0 extent.width extent.height) rfl rfl rfl rfl
  have first := congrArg Place.x whole
  have columns := congrArg Place.w whole
  have top := congrArg Place.y whole
  have rows := congrArg Place.h whole
  simp only [scaledPlace, bareWindow] at first columns top rows
  constructor
  case solid =>
    intro x w wide lies
    have drawn := well.solid _ (within x w wide lies)
    simp only [scaledPlace, bareWindow] at drawn
    exact drawn.1
  case inside =>
    intro x w wide lies
    have drawn := well.inside _ (within x w wide lies)
    simp only [Place.right, scaledPlace, bareWindow] at drawn
    exact drawn.1
  case whole =>
    rw [scaledStop, first, columns, Int.zero_add]
    exact ⟨rfl, rfl⟩
  case apart =>
    intro x w x' w' wide wide' before lies
    have apart := well.apart _ _ (within x w wide (by omega)) (within x' w' wide' lies)
      (.inl (.inl before))
    rw [scaled_place_columns, scaled_place_rows] at apart
    have all : scaledCommon extent.height video.height 0 extent.height 0 extent.height =
        output.height := by
      rw [scaledCommon, scaledStop, top, rows]
      omega
    simp only [bareWindow, all] at apart
    rcases apart with columns | rows
    · exact .inl columns
    · exact .inr (Int.ofNat_le.mp rows)

theorem AxisWell.placed (width : AxisWell extent.width video.width output.width output.height)
    (height : AxisWell extent.height video.height output.height output.width) :
    PlacedWell extent video output := by
  constructor
  case solid =>
    intro cmd within
    exact ⟨width.solid _ _ within.wide within.columns, height.solid _ _ within.high within.rows⟩
  case inside =>
    intro cmd within
    have columns := width.inside _ _ within.wide within.columns
    have rows := height.inside _ _ within.high within.rows
    rw [scaled_place_right, scaled_place_bottom]
    simp only [scaledPlace]
    exact ⟨columns, rows⟩
  case whole =>
    intro cmd first top columns rows
    rcases width.whole with ⟨left, wide⟩
    rcases height.whole with ⟨up, high⟩
    rw [scaledStop, left, Int.zero_add] at wide
    rw [scaledStop, up, Int.zero_add] at high
    rw [scaledPlace, first, top, columns, rows, left, up, wide, high]
  case apart =>
    intro cmd cmd' within within' disjoint
    rw [scaled_place_columns, scaled_place_rows]
    rcases disjoint with beside | beneath
    · rcases width.beside within.wide within'.wide within.columns within'.columns beside with
        columns | thin
      · exact .inl columns
      · right
        apply Int.le_trans (height.common_le_output within.high within.rows)
        exact Int.ofNat_le.mpr thin
    · rcases height.beside within.high within'.high within.rows within'.rows beneath with
        rows | thin
      · exact .inr rows
      · left
        apply Int.le_trans (width.common_le_output within.wide within.columns)
        exact Int.ofNat_le.mpr thin

theorem AxisFits.placed (designed : extent.Positive) (asked : output.Positive)
    (width : AxisFits extent.width video.width output.width output.height)
    (height : AxisFits extent.height video.height output.height output.width) :
    PlacedWell extent video output :=
  AxisWell.placed (width.well designed.1 asked.1) (height.well designed.2 asked.2)

theorem PlacedWell.held (narrow : output.Narrow) (well : PlacedWell extent video output)
    {cmd scaled : Command} (within : cmd.Within extent)
    (done : osdcmdScale extent video cmd = .ok scaled) :
    Place.mk scaled.x scaled.y scaled.w scaled.h = scaledPlace extent video cmd := by
  have solid := well.solid cmd within
  have inside := well.inside cmd within
  have fields := osdcmd_scale_fields done
  generalize scaledPlace extent video cmd = place at solid inside fields ⊢
  rcases narrow with ⟨wide, high⟩
  rcases place with ⟨x, y, w, h⟩
  simp only [Place.right, Place.bottom] at solid inside fields
  simp only [fields, Place.mk.injEq]
  omega

/-- For all sizes of 16 bits, the scaled windows are as asked exactly where the sizes fit on
both axes. -/
theorem scaled_place_well_iff (designed : extent.Positive) (asked : output.Positive)
    (narrow : extent.Narrow ∧ video.Narrow ∧ output.Narrow) :
    ScalesWell extent video output ↔
      AxisFits extent.width video.width output.width output.height ∧
        AxisFits extent.height video.height output.height output.width := by
  rcases narrow with ⟨extentNarrow, videoNarrow, outputNarrow⟩
  constructor
  case mp =>
    intro well
    have width := well.toPlacedWell.width designed
    have turned : extent.transposed.Positive := ⟨designed.2, designed.1⟩
    have height := well.toPlacedWell.transposed.width turned
    exact ⟨width.fits designed.1 asked.1 ⟨extentNarrow.1, videoNarrow.1⟩,
      height.fits designed.2 asked.2 ⟨extentNarrow.2, videoNarrow.2⟩⟩
  case mpr =>
    intro fits
    have placed := AxisFits.placed designed asked fits.1 fits.2
    exact ⟨placed, fun _ _ within done => placed.held outputNarrow within done⟩

end

/-- The narrow video of a satellite channel, for which images are scaled down. -/
theorem scaled_place_narrow_video :
    scales ⟨false, false⟩ ⟨720, 576⟩ ⟨544, 576⟩ ⟨0, 0⟩
        { bareWindow 0 0 720 576 with scaling := 1 } = true ∧
      ScalesWell ⟨720, 576⟩ ⟨544, 576⟩ ⟨544, 576⟩ := by
  constructor
  · decide
  · apply (scaled_place_well_iff (by decide) (by decide) (by decide)).mpr
    constructor
    · exact ⟨.inr (.inl (by decide)), by decide⟩
    · exact ⟨.inr (.inl (by decide)), by decide⟩

/-- In a window of 1920x1080 pixels, an unscaled image that covers the extent is scaled to the
video size. -/
theorem whole_extent_in_corner :
    let cmd : Command := { bareWindow 0 0 720 576 with flags := unscaled, scaling := 1 }
    scales ⟨true, false⟩ ⟨720, 576⟩ ⟨720, 576⟩ ⟨1920, 1080⟩ cmd = true ∧
      usesUnscaled ⟨true, false⟩ ⟨720, 576⟩ ⟨720, 576⟩ cmd.flags = true ∧
      scaledPlace ⟨720, 576⟩ ⟨720, 576⟩ cmd = ⟨0, 0, 720, 576⟩ ∧
      ¬ScalesWell ⟨720, 576⟩ ⟨720, 576⟩ ⟨1920, 1080⟩ := by
  have place : scaledPlace ⟨720, 576⟩ ⟨720, 576⟩ (bareWindow 0 0 720 576) =
      ⟨0, 0, 720, 576⟩ := by
    decide
  refine ⟨by decide, by decide, by decide, ?_⟩
  intro well
  have whole := well.whole (bareWindow 0 0 720 576) rfl rfl rfl rfl
  rw [place] at whole
  exact absurd whole (by decide)

end Xineliboutput.Osd.Rle
