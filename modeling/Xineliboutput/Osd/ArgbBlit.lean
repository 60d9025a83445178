import Mathlib.Tactic.LinearCombination
import Xineliboutput.Osd.RemoteReads

/-!
# Where an ARGB image is stored

The blit of `exec_osd_set_argb` in `xine/osd_manager.c`. The clip is computed once; the
copy of a plain image keeps to it, and the decoder of a compressed one is given the width
of the command, and the number of lines as an unsigned number. The place of the first
pixel is a product of `int`s. Memory goes on behind the data of the command, where an
element that is cut off is read on.
-/

namespace Xineliboutput.Osd.Remote

open Xineliboutput.Foundation Xineliboutput.Osd.Rle

set_option autoImplicit false

/-- One `memcpy`, `memset` or loop of the blit: so many pixels of a line of the image,
stored from `start` on, as seen from the first pixel of the command. -/
structure Blit where
  line : Nat
  start : Nat
  count : Nat
  deriving DecidableEq

def blitsOf (line : Nat) (fills : List (Fill UInt32)) : List Blit :=
  fills.map fun fill => ⟨line, fill.start, fill.length⟩

/-- The loop of `rle_uncompress_argbrle` with `behind` bytes of memory behind its data. -/
def elementBlits (w h stride behind : Nat) : Nat → Cursor → List UInt8 → List Blit
  | 0, _, _ => []
  | remaining + 1, cursor, memory =>
      if h ≤ cursor.y then []
      else if memory.length ≤ behind then []
      else
        match decodeElement w stride cursor memory with
        | .stopped fills _ => blitsOf cursor.y fills
        | .moved fills next rest =>
            blitsOf cursor.y fills ++ elementBlits w h stride behind remaining next rest

variable (received : ReceivedCommand) (extent : Extent)

/-- `cmd->y * osd->extent_width + cmd->x` -/
def firstPixel : Nat := received.command.y.toNat * extent.width + received.command.x.toNat

def decodedLines : Nat := (argbLines received extent % 2 ^ 32).toNat

/-- What `exec_osd_set_argb` stores. -/
def argbBlits (behind : List UInt8) : List Blit :=
  if received.command.cmd = osdSetArgbrle then
    received.data.elim [] fun raw =>
      elementBlits received.command.w.toNat (decodedLines received extent) extent.width
        behind.length received.command.numRle.toNat ⟨0, 0, 0⟩ (raw ++ behind)
  else
    (List.range (argbLines received extent).toNat).map fun line =>
      ⟨line, line * extent.width, argbStride received extent⟩

/-- The cell is one of that line of the image, inside of the command and of the extent. -/
def InRectangle (line : Nat) (index : Int) : Prop :=
  line < received.command.h.toNat ∧ received.command.y.toNat + line < extent.height ∧
    ∃ column, received.command.x.toNat ≤ column ∧
      column < received.command.x.toNat + received.command.w.toNat ∧ column < extent.width ∧
      index = ((received.command.y.toNat + line) * extent.width + column : Nat)

/-- Every pixel is stored in its line of the rectangle and in the buffer. -/
def BlitsInside (behind : List UInt8) : Prop :=
  ∀ blit ∈ argbBlits received extent behind, ∀ pixel < blit.count,
    let index := intOfUnsigned (firstPixel received extent) + blit.start + pixel
    InRectangle received extent blit.line index ∧
      0 ≤ index ∧ index < (extent.width * extent.height : Nat)

/-! ## The condition -/

def storedPixels (w column : Nat) : Element → Nat
  | .endOfLine =>
      if column < sub32 w 1 then sub32 (sub32 w column) 1 * 4 % 2 ^ 32 / 4 else 0
  | .plain _ => 1
  | .clear len => len
  | .colored _ len => len

/-- From a place on, the decoder gets to an element, and stores so many pixels for it. -/
def StoresAt (w h behind remaining : Nat) (place : Place) (memory : List UInt8) (final : Place)
    (count : Nat) : Prop :=
  ∃ before left element rest, Walk w h place memory before final left ∧ before < remaining ∧
    behind < left.length ∧ final.row < h ∧ readElement left = .whole element rest ∧
    ¬ Element.Refused w final.column element ∧ count = storedPixels w final.column element

structure RunInside (line column count : Nat) : Prop where
  lines : line < received.command.h.toNat
  bottom : received.command.y.toNat + line < extent.height
  width : column + count ≤ received.command.w.toNat
  right : received.command.x.toNat + column + count ≤ extent.width

/-- No pixel of a compressed image lies outside of the clip, and the first pixel of an
image that is not clipped away altogether has an `int` for its place. -/
def Contained (behind : List UInt8) : Prop :=
  if received.command.cmd = osdSetArgbrle then
    ∀ raw ∈ received.data, ∀ place count, 0 < count →
      StoresAt received.command.w.toNat (decodedLines received extent) behind.length
        received.command.numRle.toNat ⟨0, 0⟩ (raw ++ behind) place count →
      RunInside received extent place.row place.column count ∧
        firstPixel received extent < 2 ^ 31
  else
    RunInside received extent 0 0 1 → firstPixel received extent < 2 ^ 31

/-! ## The stores of the decoder -/

section Decoder

variable {w h stride behind : Nat}

theorem read_element_shorter {data rest : List UInt8} {element : Element}
    (read : readElement data = .whole element rest) : rest.length ≤ data.length := by
  have color {bytes left : List UInt8} {pixel : UInt32}
      (found : readU32Argb bytes = some (pixel, left)) : left.length ≤ bytes.length := by
    unfold readU32Argb at found
    split at found
    · cases found
      simp only [List.length_cons]
      omega
    · cases found
  unfold readElement at read
  split at read
  · cases read
  · split at read
    · cases read
    · split at read
      · cases read
      · rename_i decoded
        have shorter := decode_len_shorter decoded
        simp only [List.length_cons] at shorter ⊢
        split at read
        · split at read
          all_goals
            cases read
            omega
        · split at read
          · cases read
          · rename_i found
            cases read
            have less := color found
            omega
  · split at read
    · cases read
    · rename_i found
      cases read
      exact color found

theorem walk_shorter {place final : Place} {data left : List UInt8} {count : Nat}
    (walk : Walk w h place data count final left) : left.length ≤ data.length := by
  induction walk with
  | here => exact Nat.le_refl _
  | through row read fits onward ih => exact Nat.le_trans ih (read_element_shorter read)

theorem stores_at_stopped {remaining : Nat} {place final : Place} {memory : List UInt8}
    {count : Nat} (stops : h ≤ place.row ∨ memory.length ≤ behind ∨ remaining = 0) :
    ¬ StoresAt w h behind remaining place memory final count := by
  intro stored
  obtain ⟨before, left, element, rest, walk, few, present, row, -⟩ := stored
  have shorter := walk_shorter walk
  cases walk with
  | here => omega
  | through inside => omega

theorem stores_at_cut {remaining : Nat} {place final : Place} {memory : List UInt8}
    {count : Nat} {len : Option Nat} (read : readElement memory = .cut len) :
    ¬ StoresAt w h behind remaining place memory final count := by
  intro stored
  obtain ⟨before, left, element, rest, walk, -, -, -, found, -⟩ := stored
  cases walk with
  | here =>
      rw [read] at found
      cases found
  | through inside other =>
      rw [read] at other
      cases other

theorem stores_at_step {remaining : Nat} {place final : Place} {memory rest : List UInt8}
    {count : Nat} {element : Element} (row : place.row < h) (present : behind < memory.length)
    (read : readElement memory = .whole element rest) :
    StoresAt w h behind (remaining + 1) place memory final count ↔
      (¬ Element.Refused w place.column element ∧ final = place ∧
        count = storedPixels w place.column element) ∨
      ((place.column + element.pixels) % 2 ^ 32 ≤ w ∧
        StoresAt w h behind remaining (place.after element) rest final count) := by
  constructor
  · intro stored
    obtain ⟨before, left, other, last, walk, few, within, inside, found, accepted, counted⟩ :=
      stored
    cases walk with
    | here =>
        rw [read] at found
        cases found
        exact .inl ⟨accepted, rfl, counted⟩
    | @through _ _ _ _ _ _ count _ again fits onward =>
        rw [read] at again
        cases again
        exact .inr ⟨fits, count, left, other, last, onward, Nat.lt_of_succ_lt_succ few, within,
          inside, found, accepted, counted⟩
  · intro either
    cases either with
    | inl here =>
        obtain ⟨accepted, rfl, counted⟩ := here
        exact ⟨0, memory, element, rest, .here _ _, Nat.succ_pos _, present, row, read, accepted,
          counted⟩
    | inr later =>
        obtain ⟨fits, before, left, other, last, walk, few, found⟩ := later
        exact ⟨before + 1, left, other, last, .through row read fits walk, Nat.succ_lt_succ few,
          found⟩

theorem element_blits_mem (place : Place) (element : Element) {blit : Blit}
    (some_pixels : 0 < blit.count) :
    blit ∈ blitsOf place.row (element.stores w stride place) ↔
      blit = ⟨place.row, place.row * stride + place.column,
        storedPixels w place.column element⟩ := by
  cases element with
  | endOfLine =>
      simp only [Element.stores, storedPixels]
      by_cases short : place.column < sub32 w 1
      · rw [if_pos short, if_pos short]
        simp [blitsOf]
      · rw [if_neg short, if_neg short]
        simp only [blitsOf, List.map_nil, List.not_mem_nil, false_iff]
        intro same
        rw [same] at some_pixels
        exact Nat.lt_irrefl 0 some_pixels
  | plain color => simp [Element.stores, storedPixels, blitsOf]
  | clear len => simp [Element.stores, storedPixels, blitsOf]
  | colored color len => simp [Element.stores, storedPixels, blitsOf]

/-- The first element of the rest is stored here, or what is stored comes from later ones. -/
theorem stored_here_or_later {remaining : Nat} {place : Place} {memory rest : List UInt8}
    {element : Element} {blit : Blit} (some_pixels : 0 < blit.count) (row : place.row < h)
    (present : behind < memory.length) (read : readElement memory = .whole element rest) :
    (∃ final, StoresAt w h behind (remaining + 1) place memory final blit.count ∧
        blit = ⟨final.row, final.row * stride + final.column, blit.count⟩) ↔
      (¬ Element.Refused w place.column element ∧
        blit ∈ blitsOf place.row (element.stores w stride place)) ∨
      ((place.column + element.pixels) % 2 ^ 32 ≤ w ∧
        ∃ final, StoresAt w h behind remaining (place.after element) rest final blit.count ∧
          blit = ⟨final.row, final.row * stride + final.column, blit.count⟩) := by
  rw [element_blits_mem place element some_pixels]
  simp only [stores_at_step row present read]
  constructor
  · intro stored
    obtain ⟨final, either, same⟩ := stored
    cases either with
    | inl here =>
        obtain ⟨accepted, rfl, counted⟩ := here
        exact .inl ⟨accepted, counted ▸ same⟩
    | inr later => exact .inr ⟨later.1, final, later.2, same⟩
  · intro either
    cases either with
    | inl here =>
        have counted := congrArg Blit.count here.2
        exact ⟨place, .inl ⟨here.1, rfl, counted⟩, counted ▸ here.2⟩
    | inr later =>
        obtain ⟨fits, final, stored, same⟩ := later
        exact ⟨final, .inr ⟨fits, stored⟩, same⟩

theorem blits_stored (wBound : w < 2 ^ 32) (remaining : Nat) {place : Place}
    (inside : place.column ≤ w) (memory : List UInt8) {blit : Blit}
    (some_pixels : 0 < blit.count) :
    blit ∈ elementBlits w h stride behind remaining (place.cursor stride) memory ↔
      ∃ final, StoresAt w h behind remaining place memory final blit.count ∧
        blit = ⟨final.row, final.row * stride + final.column, blit.count⟩ := by
  induction remaining generalizing place memory with
  | zero =>
      constructor
      · intro member
        cases member
      · intro stored
        obtain ⟨final, stored, -⟩ := stored
        exact absurd stored (stores_at_stopped (.inr (.inr rfl)))
  | succ remaining ih =>
      by_cases stops : h ≤ place.row ∨ memory.length ≤ behind
      · have none_stored : elementBlits w h stride behind (remaining + 1) (place.cursor stride)
            memory = [] := by
          rw [elementBlits]
          cases stops with
          | inl ends => exact if_pos ends
          | inr used =>
              rw [if_pos used]
              exact ite_self _
        rw [none_stored]
        constructor
        · intro member
          cases member
        · intro stored
          obtain ⟨final, stored, -⟩ := stored
          exact absurd stored (stores_at_stopped (stops.imp_right .inl))
      · obtain ⟨row, present⟩ := not_or.mp stops
        have row' : ¬ h ≤ (place.cursor stride).y := row
        rw [elementBlits, if_neg row', if_neg present]
        cases read : readElement memory with
        | cut len =>
            rw [decode_element_cut _ read]
            constructor
            · intro member
              cases member
            · intro stored
              obtain ⟨final, stored, -⟩ := stored
              exact absurd stored (stores_at_cut read)
        | whole element rest =>
            rw [stored_here_or_later some_pixels (Nat.lt_of_not_le row)
              (Nat.lt_of_not_le present) read, decode_element_stores stride wBound inside read]
            by_cases fits : (place.column + element.pixels) % 2 ^ 32 ≤ w
            · have accepted := not_refused fits
              rw [if_neg accepted, if_neg (Nat.not_lt.mpr fits)]
              simp only [List.mem_append, accepted, fits, not_false_eq_true, true_and,
                ih (after_column_le fits) rest]
              rfl
            · simp only [fits, false_and, or_false]
              by_cases refused : Element.Refused w place.column element
              · rw [if_pos refused]
                simp [refused, blitsOf]
              · rw [if_neg refused, if_pos (Nat.lt_of_not_le fits)]
                simp only [refused, not_false_eq_true, true_and]
                rfl

theorem stores_at_column {remaining : Nat} {place final : Place} {memory : List UInt8}
    {count : Nat} (stored : StoresAt w h behind remaining place memory final count)
    (inside : place.column ≤ w) : final.column ≤ w := by
  obtain ⟨before, left, element, rest, walk, -⟩ := stored
  exact walk.column_le inside

end Decoder

/-! ## The places of the pixels -/

section Places

variable {received : ReceivedCommand} {extent : Extent}

theorem first_pixel_lt (wide : extent.width < 2 ^ 16) : firstPixel received extent < 2 ^ 32 := by
  have y := received.command.y.toNat_lt
  have x := received.command.x.toNat_lt
  have product : received.command.y.toNat * extent.width ≤ (2 ^ 16 - 1) * (2 ^ 16 - 1) :=
    Nat.mul_le_mul (by omega) (by omega)
  rw [firstPixel]
  omega

theorem int_of_unsigned_carry {value : Nat} (large : 2 ^ 31 ≤ value) (bound : value < 2 ^ 32) :
    intOfUnsigned value = value - 2 ^ 32 := by
  rw [intOfUnsigned, Int.bmod_def]
  split <;> omega

theorem in_rectangle_index {line : Nat} {index : Int}
    (inside : InRectangle received extent line index) :
    0 ≤ index ∧ index < (extent.width * extent.height : Nat) := by
  obtain ⟨-, bottom, column, -, -, right, rfl⟩ := inside
  have rows := Nat.mul_le_mul_right extent.width (Nat.succ_le_of_lt bottom)
  rw [Nat.succ_mul, Nat.mul_comm extent.height] at rows
  omega

/-- A run is stored in its rectangle if it is within the clip and begins at an `int`. -/
theorem run_in_rectangle_iff (wide : extent.width < 2 ^ 16) {line column count : Nat}
    (some_pixels : 0 < count) (within : column ≤ received.command.w.toNat) :
    (∀ pixel < count, InRectangle received extent line
      (intOfUnsigned (firstPixel received extent) + (line * extent.width + column : Nat) + pixel)) ↔
      RunInside received extent line column count ∧ firstPixel received extent < 2 ^ 31 := by
  have x := received.command.x.toNat_lt
  have w := received.command.w.toNat_lt
  constructor
  · intro stored
    obtain ⟨lines, bottom, cell, left, width, right, same⟩ := stored 0 some_pixels
    have last := stored (count - 1) (by omega)
    obtain ⟨-, -, lastCell, -, lastWidth, lastRight, lastSame⟩ := last
    rw [Nat.add_mul] at same lastSame
    by_cases small : firstPixel received extent < 2 ^ 31
    · rw [int_of_unsigned_small small, firstPixel] at same lastSame
      exact ⟨⟨lines, bottom, by omega, by omega⟩, small⟩
    · -- the first pixel is far in front of the buffer
      rw [int_of_unsigned_carry (Nat.le_of_not_lt small) (first_pixel_lt wide), firstPixel] at same
      have far : ((received.command.x.toNat + column : Nat) : Int) = (cell + 2 ^ 32 : Nat) := by
        simp only [Nat.cast_add, Nat.cast_zero] at same
        push_cast
        linear_combination same
      have near : received.command.x.toNat + column < 2 ^ 32 :=
        Nat.lt_of_lt_of_le (Nat.add_lt_add x (Nat.lt_of_le_of_lt within w)) (by decide)
      exact absurd (Nat.le_trans (Nat.le_add_left _ cell) (Nat.le_of_eq (Int.ofNat.inj far).symm))
        (Nat.not_le.mpr near)
  · intro contained pixel inside
    obtain ⟨run, small⟩ := contained
    have right := run.right
    have width := run.width
    rw [int_of_unsigned_small small, firstPixel]
    refine ⟨run.lines, run.bottom, received.command.x.toNat + column + pixel, by omega, by omega,
      by omega, ?_⟩
    rw [Nat.add_mul]
    omega

theorem copied_run_inside {line : Nat} (copied : line < (argbLines received extent).toNat)
    (some_pixels : 0 < argbStride received extent) :
    RunInside received extent line 0 (argbStride received extent) := by
  unfold argbLines at copied
  unfold argbStride at some_pixels ⊢
  constructor
  · split at copied <;> omega
  · split at copied <;> omega
  · split <;> omega
  · split at some_pixels
    · rw [if_pos (by assumption)]
      omega
    · rw [if_neg (by assumption)]
      omega

theorem clip_nonempty_iff :
    (0 < (argbLines received extent).toNat ∧ 0 < argbStride received extent) ↔
      RunInside received extent 0 0 1 := by
  constructor
  · intro copied
    have run := copied_run_inside copied.1 copied.2
    have width := run.width
    have right := run.right
    exact ⟨run.lines, run.bottom, by omega, by omega⟩
  · intro run
    obtain ⟨lines, bottom, width, right⟩ := run
    unfold argbLines argbStride
    constructor
    · split <;> omega
    · split <;> omega

end Places

def RunsInRectangle (received : ReceivedCommand) (extent : Extent) (behind : List UInt8) : Prop :=
  ∀ blit ∈ argbBlits received extent behind, ∀ pixel < blit.count,
    InRectangle received extent blit.line
      (intOfUnsigned (firstPixel received extent) + blit.start + pixel)

theorem blits_inside_rectangle (received : ReceivedCommand) (extent : Extent)
    (behind : List UInt8) :
    BlitsInside received extent behind ↔ RunsInRectangle received extent behind := by
  constructor
  · intro inside blit member pixel within
    exact (inside blit member pixel within).1
  · intro inside blit member pixel within
    have place := inside blit member pixel within
    exact ⟨place, in_rectangle_index place⟩

theorem compressed_inside_iff (received : ReceivedCommand) {extent : Extent}
    (wide : extent.width < 2 ^ 16) (behind : List UInt8)
    (compressed : received.command.cmd = osdSetArgbrle) :
    RunsInRectangle received extent behind ↔ Contained received extent behind := by
  have wBound : received.command.w.toNat < 2 ^ 32 :=
    Nat.lt_trans received.command.w.toNat_lt (by decide)
  have start : (⟨0, 0, 0⟩ : Cursor) = Place.cursor ⟨0, 0⟩ extent.width := by
    simp [Place.cursor]
  rw [RunsInRectangle, Contained, argbBlits, if_pos compressed, if_pos compressed]
  cases received.data with
  | none => simp
  | some raw =>
      simp only [Option.elim_some, Option.mem_def, Option.some.injEq, forall_eq', start]
      constructor
      · intro inside place count some_pixels stored
        apply (run_in_rectangle_iff wide some_pixels
          (stores_at_column stored (Nat.zero_le _))).mp
        apply inside ⟨place.row, place.row * extent.width + place.column, count⟩
        apply (blits_stored wBound _ (Nat.zero_le _) _ some_pixels).mpr
        exact ⟨place, stored, rfl⟩
      · intro contained blit member pixel within
        have some_pixels := Nat.zero_lt_of_lt within
        obtain ⟨place, stored, same⟩ :=
          (blits_stored wBound _ (Nat.zero_le _) _ some_pixels).mp member
        have rectangle := (run_in_rectangle_iff wide some_pixels
          (stores_at_column stored (Nat.zero_le _))).mpr (contained place _ some_pixels stored)
        rw [same]
        exact rectangle pixel within

theorem plain_inside_iff (received : ReceivedCommand) {extent : Extent}
    (wide : extent.width < 2 ^ 16) (behind : List UInt8)
    (plain : received.command.cmd ≠ osdSetArgbrle) :
    RunsInRectangle received extent behind ↔ Contained received extent behind := by
  rw [RunsInRectangle, Contained, argbBlits, if_neg plain, if_neg plain]
  simp only [List.mem_map, List.mem_range, forall_exists_index, and_imp,
    forall_apply_eq_imp_iff₂]
  constructor
  · intro inside run
    obtain ⟨lines, stride⟩ := clip_nonempty_iff.mpr run
    exact ((run_in_rectangle_iff wide stride (Nat.zero_le _)).mp (inside 0 lines)).2
  · intro contained line copied pixel within
    have some_pixels := Nat.zero_lt_of_lt within
    have small := contained (clip_nonempty_iff.mp ⟨Nat.zero_lt_of_lt copied, some_pixels⟩)
    exact (run_in_rectangle_iff wide some_pixels (Nat.zero_le _)).mpr
      ⟨copied_run_inside copied some_pixels, small⟩ pixel within

/-- The blit stays inside exactly if a compressed image needs no clipping and the place of
the first pixel is an `int`; a plain image is always clipped. -/
theorem blits_inside_iff (received : ReceivedCommand) {extent : Extent}
    (wide : extent.width < 2 ^ 16) (behind : List UInt8) :
    BlitsInside received extent behind ↔ Contained received extent behind := by
  rw [blits_inside_rectangle]
  by_cases compressed : received.command.cmd = osdSetArgbrle
  · exact compressed_inside_iff received wide behind compressed
  · exact plain_inside_iff received wide behind compressed

def argbImage (cmd : UInt8) (x y w h : UInt16) (numRle : UInt32) (raw : List UInt8) :
    ReceivedCommand where
  command := {
    size := 62
    cmd
    wnd := 0
    layer := 0
    pts := 0
    delayMs := 0
    x
    y
    w
    h
    datalen := .ofNat raw.length
    numRle
    data := ⟨List.replicate 8 0, List.length_replicate⟩
    colors := 0
    palette := ⟨List.replicate 8 0, List.length_replicate⟩
    dirtyArea := ⟨0, 0, 0, 0⟩
    flags := 0
    scaling := 0 }
  palette := none
  data := some raw

theorem blits_inside_iff_cropped :
    BlitsInside (argbImage osdSetArgb 718 575 4 4 0 (List.replicate 64 0xff)) ⟨720, 576⟩ [] := by
  apply (blits_inside_iff _ (by decide) []).mpr
  rw [Contained, if_neg (by decide)]
  exact fun _ => by decide

/-- A run of two pixels at the right edge goes on in the next line, and the pixel of a
command below the extent lies behind the buffer. -/
theorem compressed_image_not_clipped :
    ¬ BlitsInside (argbImage osdSetArgbrle 719 0 2 1 2 [0, 0x82, 0xff, 1, 2, 3, 0, 0])
        ⟨720, 576⟩ [] ∧
      ¬ BlitsInside (argbImage osdSetArgbrle 0 577 1 1 1 [0xff, 1, 2, 3]) ⟨720, 576⟩ [] := by
  constructor
  · intro inside
    obtain ⟨-, -, column, -, -, right, same⟩ := (inside ⟨0, 0, 2⟩ (by decide) 1 (by decide)).1
    have index : intOfUnsigned (firstPixel (argbImage osdSetArgbrle 719 0 2 1 2
        [0, 0x82, 0xff, 1, 2, 3, 0, 0]) ⟨720, 576⟩) + (0 : Nat) + (1 : Nat) = 720 := by decide
    rw [index] at same
    simp [argbImage] at same right
    omega
  · intro inside
    have below := (inside ⟨0, 0, 1⟩ (by decide) 0 (by decide)).2.2
    exact absurd below (by decide)

end Xineliboutput.Osd.Remote
