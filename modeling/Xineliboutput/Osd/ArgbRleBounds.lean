import Mathlib.Tactic.SplitIfs
import Xineliboutput.Osd.ArgbRle

/-!
# What the overlay decoder touches

The bytes of an overlay are read as a sequence of elements. A walk follows the
elements the decoder accepts, by column and row; the three ways in which malformed
bytes get past the checks of `rle_uncompress_argbrle` are conditions on the element
that stands at the end of a walk.
-/

namespace Xineliboutput.Osd

open Xineliboutput.Foundation

set_option autoImplicit false

/-! ## Elements -/

inductive Element where
  | plain (color : UInt32)
  | clear (len : Nat)
  | endOfLine
  | colored (color : UInt32) (len : Nat)

def Element.pixels : Element → Nat
  | .plain _ => 1
  | .clear len => len
  | .endOfLine => 0
  | .colored _ len => len

/-- The first element of the data, or that it is cut off by the end of the data,
with the length of its run where that has been read. -/
inductive Reading where
  | whole (element : Element) (rest : List UInt8)
  | cut (len : Option Nat)

def readElement : List UInt8 → Reading
  | [] => .cut none
  | 0 :: rest =>
      match rest with
      | [] => .cut none
      | code :: _ =>
          match decodeLen rest with
          | none => .cut none
          | some (len, rest) =>
              if code &&& 0x80 = 0 then
                if len = 0 then .whole .endOfLine rest else .whole (.clear len) rest
              else
                match readU32Argb rest with
                | none => .cut (some len)
                | some (color, rest) => .whole (.colored color len) rest
  | first :: rest =>
      match readU32Argb (first :: rest) with
      | none => .cut none
      | some (color, rest) => .whole (.plain color) rest

/-- The data starts with so many elements, the rest of so many rows of at most `w`
pixels each, the first of them from the given column on. -/
inductive Pictures (w : Nat) : Nat → Nat → Nat → List UInt8 → Prop where
  | done (data : List UInt8) : Pictures w 0 0 0 data
  | pixels {rows column count : Nat} {data rest : List UInt8} {element : Element}
      (read : readElement data = .whole element rest) (some_pixels : element ≠ .endOfLine)
      (fits : column + element.pixels ≤ w)
      (onward : Pictures w (rows + 1) (column + element.pixels) count rest) :
      Pictures w (rows + 1) column (count + 1) data
  | line {rows column count : Nat} {data rest : List UInt8}
      (read : readElement data = .whole .endOfLine rest) (onward : Pictures w rows 0 count rest) :
      Pictures w (rows + 1) column (count + 1) data

def WellFormed (w h numRle : Nat) (data : List UInt8) : Prop := Pictures w h 0 numRle data

/-! ## Walks -/

structure Place where
  column : Nat
  row : Nat

def Place.cursor (place : Place) (stride : Nat) : Cursor :=
  ⟨place.column, place.row, place.row * stride⟩

def Place.after (place : Place) : Element → Place
  | .endOfLine => ⟨0, place.row + 1⟩
  | element => ⟨(place.column + element.pixels) % 2 ^ 32, place.row⟩

/-- So many elements read one after the other, none of which ends behind the line. -/
inductive Walk (w h : Nat) : Place → List UInt8 → Nat → Place → List UInt8 → Prop where
  | here (place : Place) (data : List UInt8) : Walk w h place data 0 place data
  | through {place final : Place} {data rest left : List UInt8} {element : Element} {count : Nat}
      (inside : place.row < h) (read : readElement data = .whole element rest)
      (fits : (place.column + element.pixels) % 2 ^ 32 ≤ w)
      (onward : Walk w h (place.after element) rest count final left) :
      Walk w h place data (count + 1) final left

/-- The end of a run is compared with the line before the run is written. -/
def Element.Refused (w column : Nat) : Element → Prop
  | .clear len => w < (column + len) % 2 ^ 32
  | .colored _ len => w < (column + len) % 2 ^ 32
  | .plain _ => False
  | .endOfLine => False

instance (w column : Nat) : DecidablePred (Element.Refused w column)
  | .clear len => inferInstanceAs (Decidable (w < (column + len) % 2 ^ 32))
  | .colored _ len => inferInstanceAs (Decidable (w < (column + len) % 2 ^ 32))
  | .plain _ => inferInstanceAs (Decidable False)
  | .endOfLine => inferInstanceAs (Decidable False)

/-- The condition under which the data does no harm, on the elements of its walks. -/
structure Harmless (w h stride numRle : Nat) (data : List UInt8) : Prop where
  /-- An element that is cut off is a run whose length is there and refused. -/
  cut : ∀ count place rest len, Walk w h ⟨0, 0⟩ data count place rest → count < numRle →
    place.row < h → rest ≠ [] → readElement rest = .cut len →
    ∃ pixels, len = some pixels ∧ w < (place.column + pixels) % 2 ^ 32
  /-- An element that ends behind the line is refused, or spills into the next row. -/
  spill : ∀ count place rest element left, Walk w h ⟨0, 0⟩ data count place rest →
    count < numRle → place.row < h → readElement rest = .whole element left →
    w < place.column + element.pixels →
    Element.Refused w place.column element ∨ (stride = w ∧ place.row + 1 < h)
  /-- Elements missing behind the last row are too few or too many for the result to
  turn positive, and if none is missing, no column has been reduced. -/
  ended : ∀ count place rest, Walk w h ⟨0, 0⟩ data count place rest → h ≤ place.row →
    count ≤ numRle →
    ¬ (2 ^ 31 - 100000 < numRle - count ∧ numRle - count ≤ 2 ^ 32 - 100000) ∧
      (count = numRle → WellFormed w h numRle data ∨ 2 ^ 31 ≤ numRle)

structure StaysInside (w h stride numRle : Nat) (data : List UInt8) : Prop where
  reads : ∃ value, (rleUncompressArgbrle w h stride data numRle).2 = .returned value
  writes : ∀ fill ∈ (rleUncompressArgbrle w h stride data numRle).1,
    ∀ place, fill.Covers place → ∃ y < h, ∃ x < w, place = y * stride + x
  reported : ¬ WellFormed w h numRle data →
    ∀ value, (rleUncompressArgbrle w h stride data numRle).2 = .returned value → value < 0

/-! ## One element -/

def Element.fills (w stride : Nat) (place : Place) : Element → List (Fill UInt32)
  | .plain color => [⟨place.row * stride + place.column, 1, color⟩]
  | .clear len => [⟨place.row * stride + place.column, len, 0⟩]
  | .endOfLine =>
      if place.column < w - 1 then
        [⟨place.row * stride + place.column, (w - place.column - 1) * 4 % 2 ^ 32 / 4, 0⟩]
      else []
  | .colored color len => [⟨place.row * stride + place.column, len, color⟩]

def cutOutcome (w column : Nat) : Option Nat → Outcome
  | none => .overread
  | some pixels => if w < (column + pixels) % 2 ^ 32 then .returned (-9999) else .overread

section Decoder

variable {w h stride numRle : Nat}

theorem decode_element_cut (cursor : Cursor) {data : List UInt8} {len : Option Nat}
    (read : readElement data = .cut len) :
    decodeElement w stride cursor data = .stopped [] (cutOutcome w cursor.x len) := by
  unfold readElement at read
  unfold decodeElement
  split at read
  · cases read
    rfl
  · split at read
    · cases read
      rfl
    · split at read
      · rename_i unread
        cases read
        simp only [unread, cutOutcome]
      · rename_i code _ _ pixels rest decoded
        simp only [decoded]
        split at read
        · split at read <;> cases read
        · rename_i colored
          split at read
          · rename_i missing
            cases read
            simp only [if_neg colored, missing, cutOutcome]
            split_ifs <;> rfl
          · cases read
  · split at read
    · rename_i missing
      cases read
      simp only [missing, cutOutcome]
    · cases read

def performElement (w stride : Nat) (place : Place) (element : Element) (rest : List UInt8) :
    Progress :=
  if Element.Refused w place.column element then .stopped [] (.returned (-9999))
  else if w < (place.column + element.pixels) % 2 ^ 32 then
    .stopped (element.fills w stride place) (.returned (-99))
  else .moved (element.fills w stride place) ((place.after element).cursor stride) rest

/-- What the decoder writes for an element, for every width as its unsigned numbers give
it. -/
def Element.stores (w stride : Nat) (place : Place) : Element → List (Fill UInt32)
  | .endOfLine =>
      if place.column < sub32 w 1 then
        [⟨place.row * stride + place.column,
          sub32 (sub32 w place.column) 1 * 4 % 2 ^ 32 / 4, 0⟩]
      else []
  | .plain color => [⟨place.row * stride + place.column, 1, color⟩]
  | .clear len => [⟨place.row * stride + place.column, len, 0⟩]
  | .colored color len => [⟨place.row * stride + place.column, len, color⟩]

/-- Where the line is not empty, the unsigned numbers are the natural ones. -/
theorem element_stores (wPositive : 1 ≤ w) (wBound : w < 2 ^ 32) {place : Place}
    (inside : place.column ≤ w) (element : Element) :
    element.stores w stride place = element.fills w stride place := by
  cases element with
  | endOfLine =>
      have below : sub32 w 1 = w - 1 := by
        unfold sub32
        omega
      simp only [Element.stores, Element.fills, below]
      by_cases short : place.column < w - 1
      · have gap : sub32 (sub32 w place.column) 1 = w - place.column - 1 := by
          unfold sub32
          omega
        rw [if_pos short, if_pos short, gap]
      · rw [if_neg short, if_neg short]
  | plain color => rfl
  | clear len => rfl
  | colored color len => rfl

variable (stride) in
theorem decode_element_stores (wBound : w < 2 ^ 32) {place : Place} (inside : place.column ≤ w)
    {data rest : List UInt8} {element : Element} (read : readElement data = .whole element rest) :
    decodeElement w stride (place.cursor stride) data =
      if Element.Refused w place.column element then .stopped [] (.returned (-9999))
      else if w < (place.column + element.pixels) % 2 ^ 32 then
        .stopped (element.stores w stride place) (.returned (-99))
      else .moved (element.stores w stride place) ((place.after element).cursor stride) rest := by
  unfold readElement at read
  unfold decodeElement
  split at read
  · cases read
  · split at read
    · cases read
    · split at read
      · cases read
      · rename_i code _ _ pixels left decoded
        simp only [decoded]
        split at read
        · rename_i transparent
          split at read
          · rename_i ends
            cases read
            subst ends
            have kept : ¬ w < (place.column + 0) % 2 ^ 32 := by omega
            rw [if_neg (c := w < ((place.cursor stride).x + 0) % 2 ^ 32) kept, if_pos transparent,
              if_neg (not_not.mpr rfl),
              if_neg (show ¬ Element.Refused w place.column .endOfLine from id), Element.pixels,
              if_neg kept]
            simp only [Place.cursor, Place.after, Element.stores, Nat.add_mul, Nat.one_mul]
            rfl
          · rename_i longer
            cases read
            simp only [if_pos transparent, if_pos longer, Element.Refused, advance,
              Element.pixels, Element.stores, Place.after, Place.cursor]
            rfl
        · rename_i colored
          split at read
          · cases read
          · rename_i missing
            cases read
            simp only [if_neg colored, missing, Element.Refused, advance,
              Element.pixels, Element.stores, Place.after, Place.cursor]
            rfl
  · split at read
    · cases read
    · rename_i found
      cases read
      simp only [found, Element.Refused, advance, Element.pixels, Element.stores,
        Place.after, Place.cursor]
      rfl

theorem decode_element_whole (wPositive : 1 ≤ w) (wBound : w < 2 ^ 32) {place : Place}
    (inside : place.column ≤ w) {data rest : List UInt8} {element : Element}
    (read : readElement data = .whole element rest) :
    decodeElement w stride (place.cursor stride) data = performElement w stride place element rest := by
  rw [decode_element_stores stride wBound inside read, performElement,
    element_stores wPositive wBound inside]

/-! ## Walks of the decoder -/

theorem cut_outcome_negative {column : Nat} {len : Option Nat} {value : Int}
    (result : cutOutcome w column len = .returned value) : value < 0 := by
  cases len with
  | none => nomatch result
  | some pixels =>
      rw [cutOutcome] at result
      split_ifs at result
      cases result
      decide

theorem after_column_le {place : Place} {element : Element}
    (fits : (place.column + element.pixels) % 2 ^ 32 ≤ w) : (place.after element).column ≤ w := by
  cases element with
  | endOfLine => exact Nat.zero_le w
  | plain color => exact fits
  | clear len => exact fits
  | colored color len => exact fits

theorem Walk.column_le {place final : Place} {data left : List UInt8}
    {count : Nat} (walk : Walk w h place data count final left) (inside : place.column ≤ w) :
    final.column ≤ w := by
  induction walk with
  | here => exact inside
  | through _ _ fits _ ih => exact ih (after_column_le fits)

theorem not_refused {place : Place} {element : Element}
    (fits : (place.column + element.pixels) % 2 ^ 32 ≤ w) :
    ¬ Element.Refused w place.column element := by
  cases element with
  | plain color => exact id
  | endOfLine => exact id
  | clear len => exact Nat.not_lt.mpr fits
  | colored color len => exact Nat.not_lt.mpr fits

theorem uncompress_elements_whole (wPositive : 1 ≤ w) (wBound : w < 2 ^ 32) {place : Place}
    (inside : place.column ≤ w) (row : place.row < h) {data rest : List UInt8} {element : Element}
    (read : readElement data = .whole element rest) (remaining : Nat) :
    uncompressElements w h stride numRle (remaining + 1) (place.cursor stride) data =
      match performElement w stride place element rest with
      | .stopped fills outcome => (fills, outcome)
      | .moved fills cursor rest =>
          (fills ++ (uncompressElements w h stride numRle remaining cursor rest).1,
            (uncompressElements w h stride numRle remaining cursor rest).2) := by
  have present : data.isEmpty = false := by
    cases data with
    | nil => nomatch read
    | cons first data => rfl
  have below : ¬ h ≤ (place.cursor stride).y := Nat.not_le.mpr row
  cases performed : performElement w stride place element rest with
  | stopped fills outcome =>
      rw [uncompressElements, if_neg below, present, if_neg (by decide),
        decode_element_whole wPositive wBound inside read, performed]
  | moved fills cursor rest =>
      rw [uncompressElements, if_neg below, present, if_neg (by decide),
        decode_element_whole wPositive wBound inside read, performed]

theorem uncompress_elements_through (wPositive : 1 ≤ w) (wBound : w < 2 ^ 32) {place : Place}
    (inside : place.column ≤ w) (row : place.row < h) {data rest : List UInt8} {element : Element}
    (read : readElement data = .whole element rest)
    (fits : (place.column + element.pixels) % 2 ^ 32 ≤ w) (remaining : Nat) :
    uncompressElements w h stride numRle (remaining + 1) (place.cursor stride) data =
      (element.fills w stride place ++
          (uncompressElements w h stride numRle remaining
            ((place.after element).cursor stride) rest).1,
        (uncompressElements w h stride numRle remaining
          ((place.after element).cursor stride) rest).2) := by
  rw [uncompress_elements_whole wPositive wBound inside row read, performElement,
    if_neg (not_refused fits), if_neg (Nat.not_lt.mpr fits)]

variable (stride numRle) in
theorem Walk.elements (wPositive : 1 ≤ w) (wBound : w < 2 ^ 32) {place final : Place}
    {data left : List UInt8} {count : Nat} (walk : Walk w h place data count final left)
    (inside : place.column ≤ w) (remaining : Nat) :
    ∃ before, uncompressElements w h stride numRle (remaining + count) (place.cursor stride) data =
      (before ++ (uncompressElements w h stride numRle remaining (final.cursor stride) left).1,
        (uncompressElements w h stride numRle remaining (final.cursor stride) left).2) := by
  induction walk with
  | here => exact ⟨[], rfl⟩
  | @through place final data rest left element count row read fits onward ih =>
      obtain ⟨before, later⟩ := ih (after_column_le fits)
      refine ⟨element.fills w stride place ++ before, ?_⟩
      rw [← Nat.add_assoc, uncompress_elements_through wPositive wBound inside row read fits, later,
        List.append_assoc]

/-- What the loop does, told by the walk at whose end it stops. -/
inductive Stops (w h numRle remaining : Nat) (place : Place) (rest : List UInt8) :
    Outcome → Prop where
  | finished (ends : h ≤ place.row) (none_missing : remaining = 0) :
      Stops w h numRle remaining place rest (.returned (intOfUnsigned numRle))
  | missing (ends : h ≤ place.row) (some_missing : remaining ≠ 0) :
      Stops w h numRle remaining place rest (.returned (intOfUnsigned (-100000 - remaining)))
  | rejected (row : place.row < h) {value : Int} (negative : value < 0) :
      Stops w h numRle remaining place rest (.returned value)
  | overread (row : place.row < h) (some_missing : remaining ≠ 0) (present : rest ≠ [])
      {len : Option Nat} (read : readElement rest = .cut len)
      (unread : cutOutcome w place.column len = .overread) :
      Stops w h numRle remaining place rest .overread

variable (h stride numRle) in
theorem uncompress_elements_stops (wPositive : 1 ≤ w) (wBound : w < 2 ^ 32) (remaining : Nat)
    (place : Place) (data : List UInt8) (inside : place.column ≤ w) :
    ∃ count final left missing, Walk w h place data count final left ∧
      missing + count = remaining ∧
      Stops w h numRle missing final left
        (uncompressElements w h stride numRle remaining (place.cursor stride) data).2 := by
  induction remaining generalizing place data with
  | zero =>
      refine ⟨0, place, data, 0, .here _ _, rfl, ?_⟩
      unfold uncompressElements
      by_cases ends : h ≤ place.row
      · rw [if_pos (c := h ≤ (place.cursor stride).y) ends]
        exact .finished ends rfl
      · rw [if_neg (c := h ≤ (place.cursor stride).y) ends]
        exact .rejected (Nat.lt_of_not_le ends) (by split_ifs <;> decide)
  | succ remaining ih =>
      by_cases ends : h ≤ place.row
      · refine ⟨0, place, data, remaining + 1, .here _ _, rfl, ?_⟩
        rw [uncompressElements, if_pos (c := h ≤ (place.cursor stride).y) ends]
        exact .missing ends (Nat.succ_ne_zero remaining)
      · have row : place.row < h := Nat.lt_of_not_le ends
        by_cases present : data = []
        · refine ⟨0, place, data, remaining + 1, .here _ _, rfl, ?_⟩
          rw [uncompressElements, if_neg (c := h ≤ (place.cursor stride).y) ends, present]
          exact .rejected row (by decide)
        · cases read : readElement data with
          | cut len =>
              refine ⟨0, place, data, remaining + 1, .here _ _, rfl, ?_⟩
              rw [uncompressElements, if_neg (c := h ≤ (place.cursor stride).y) ends,
                if_neg (by simpa using present), decode_element_cut _ read]
              cases result : cutOutcome w (place.cursor stride).x len with
              | overread => exact .overread row (Nat.succ_ne_zero remaining) present read result
              | returned value => exact .rejected row (cut_outcome_negative result)
          | whole element rest =>
              by_cases fits : (place.column + element.pixels) % 2 ^ 32 ≤ w
              · obtain ⟨count, final, left, missing, walk, total, stops⟩ :=
                  ih (place.after element) rest (after_column_le fits)
                refine ⟨count + 1, final, left, missing, .through row read fits walk, ?_, ?_⟩
                · rw [← Nat.add_assoc, total]
                · rw [uncompress_elements_through wPositive wBound inside row read fits]
                  exact stops
              · refine ⟨0, place, data, remaining + 1, .here _ _, rfl, ?_⟩
                rw [uncompress_elements_whole wPositive wBound inside row read, performElement]
                by_cases refused : Element.Refused w place.column element
                · rw [if_pos refused]
                  exact .rejected row (by decide)
                · rw [if_neg refused, if_pos (Nat.lt_of_not_le fits)]
                  exact .rejected row (by decide)

theorem uncompress_elements_writes (wPositive : 1 ≤ w) (wBound : w < 2 ^ 32) (remaining : Nat)
    (place : Place) (data : List UInt8) (inside : place.column ≤ w) :
    ∀ fill ∈ (uncompressElements w h stride numRle remaining (place.cursor stride) data).1,
      ∃ count final left element rest, Walk w h place data count final left ∧ count < remaining ∧
        final.row < h ∧ readElement left = .whole element rest ∧
        ¬ Element.Refused w final.column element ∧ fill ∈ element.fills w stride final := by
  induction remaining generalizing place data with
  | zero =>
      intro fill member
      unfold uncompressElements at member
      split_ifs at member <;> nomatch member
  | succ remaining ih =>
      intro fill member
      by_cases ends : h ≤ place.row
      · rw [uncompressElements, if_pos (c := h ≤ (place.cursor stride).y) ends] at member
        nomatch member
      · have row : place.row < h := Nat.lt_of_not_le ends
        by_cases present : data = []
        · rw [uncompressElements, if_neg (c := h ≤ (place.cursor stride).y) ends, present] at member
          nomatch member
        · cases read : readElement data with
          | cut len =>
              rw [uncompressElements, if_neg (c := h ≤ (place.cursor stride).y) ends,
                if_neg (by simpa using present), decode_element_cut _ read] at member
              nomatch member
          | whole element rest =>
              rw [uncompress_elements_whole wPositive wBound inside row read, performElement]
                at member
              split_ifs at member with refused long
              · nomatch member
              · exact ⟨0, place, data, element, rest, .here _ _, Nat.succ_pos remaining, row, read,
                  refused, member⟩
              · have fits := Nat.le_of_not_lt long
                rcases List.mem_append.mp member with here | later
                · exact ⟨0, place, data, element, rest, .here _ _, Nat.succ_pos remaining, row, read,
                    refused, here⟩
                · obtain ⟨count, final, left, last, end_rest, walk, bound, found⟩ :=
                    ih (place.after element) rest (after_column_le fits) fill later
                  exact ⟨count + 1, final, left, last, end_rest, .through row read fits walk,
                    Nat.succ_lt_succ bound, found⟩

/-! ## Where an element is written -/

theorem decode_len_lt {data rest : List UInt8} {len : Nat}
    (decoded : decodeLen data = some (len, rest)) : len < 2 ^ 14 := by
  have six (byte : UInt8) : (byte &&& 0x3f).toNat < 2 ^ 6 :=
    Nat.lt_of_le_of_lt Nat.and_le_right (by decide)
  cases data with
  | nil => nomatch decoded
  | cons byte data =>
      unfold decodeLen at decoded
      by_cases short : byte &&& 0x40 = 0
      · simp only [if_pos short] at decoded
        cases decoded
        exact Nat.lt_trans (six byte) (by decide)
      · simp only [if_neg short] at decoded
        cases data with
        | nil => nomatch decoded
        | cons low data =>
            cases decoded
            rw [Nat.shiftLeft_eq]
            have high : (byte &&& 0x3f).toNat * 2 ^ 8 < 2 ^ 14 := by
              have := six byte
              omega
            exact Nat.or_lt_two_pow high (Nat.lt_trans low.toNat_lt (by decide))

theorem read_element_pixels {data rest : List UInt8} {element : Element}
    (read : readElement data = .whole element rest) : element.pixels < 2 ^ 14 := by
  unfold readElement at read
  split at read
  · nomatch read
  · split at read
    · nomatch read
    · split at read
      · nomatch read
      · rename_i decoded
        have bound := decode_len_lt decoded
        split_ifs at read
        · cases read
          decide
        · cases read
          exact bound
        · split at read
          · nomatch read
          · cases read
            exact bound
  · split at read
    · nomatch read
    · cases read
      exact Nat.one_lt_two_pow (by decide)

theorem element_fills_place {place : Place} (inside : place.column ≤ w) {element : Element}
    {fill : Fill UInt32} (member : fill ∈ element.fills w stride place) :
    fill.start = place.row * stride + place.column ∧
      (place.column + fill.length ≤ w ∨ fill.length = element.pixels) := by
  cases element with
  | plain color =>
      rw [List.mem_singleton.mp member]
      exact ⟨rfl, .inr rfl⟩
  | clear len =>
      rw [List.mem_singleton.mp member]
      exact ⟨rfl, .inr rfl⟩
  | colored color len =>
      rw [List.mem_singleton.mp member]
      exact ⟨rfl, .inr rfl⟩
  | endOfLine =>
      unfold Element.fills at member
      split_ifs at member
      · rw [List.mem_singleton.mp member]
        refine ⟨rfl, .inl ?_⟩
        show place.column + (w - place.column - 1) * 4 % 2 ^ 32 / 4 ≤ w
        omega
      · nomatch member

/-- A run that passes the check although it ends behind the line has wrapped around. -/
theorem spilling_pixels (wPositive : 1 ≤ w) {place : Place} (inside : place.column ≤ w)
    {data rest : List UInt8} {element : Element} (read : readElement data = .whole element rest)
    (written : ¬ Element.Refused w place.column element)
    (long : w < place.column + element.pixels) : element.pixels ≤ w ∧ element.pixels ≠ 0 := by
  have bound := read_element_pixels read
  cases element with
  | plain color => exact ⟨wPositive, Nat.one_ne_zero⟩
  | endOfLine =>
      simp only [Element.pixels] at long
      omega
  | clear len =>
      simp only [Element.Refused, Element.pixels] at written long bound ⊢
      omega
  | colored color len =>
      simp only [Element.Refused, Element.pixels] at written long bound ⊢
      omega

variable (stride) in
theorem spilled_fill {place : Place} {element : Element} (inside : place.column ≤ w)
    (long : w < place.column + element.pixels) :
    ∃ fill ∈ element.fills w stride place, fill.Covers (place.row * stride + w) := by
  cases element with
  | plain color =>
      refine ⟨_, List.mem_singleton.mpr rfl, ?_⟩
      simp only [Element.pixels] at long
      constructor <;> simp only [] <;> omega
  | clear len =>
      refine ⟨_, List.mem_singleton.mpr rfl, ?_⟩
      simp only [Element.pixels] at long
      constructor <;> simp only [] <;> omega
  | colored color len =>
      refine ⟨_, List.mem_singleton.mpr rfl, ?_⟩
      simp only [Element.pixels] at long
      constructor <;> simp only [] <;> omega
  | endOfLine =>
      simp only [Element.pixels] at long
      omega

/-! ## Pictures are walks -/

theorem Pictures.walk (wBound : w < 2 ^ 32) {rows column count : Nat} {data : List UInt8}
    (pictures : Pictures w rows column count data) {row : Nat} (total : row + rows = h)
    (inside : column ≤ w) :
    ∃ final left, Walk w h ⟨column, row⟩ data count final left ∧ h ≤ final.row := by
  induction pictures generalizing row with
  | done data => exact ⟨⟨0, row⟩, data, .here _ _, Nat.le_of_eq total.symm⟩
  | @pixels rows column count data rest element read somePixels fits onward ih =>
      obtain ⟨final, left, walk, ends⟩ := ih total fits
      have unwrapped : (column + element.pixels) % 2 ^ 32 = column + element.pixels :=
        Nat.mod_eq_of_lt (Nat.lt_of_le_of_lt fits wBound)
      have moved : Place.after ⟨column, row⟩ element = ⟨column + element.pixels, row⟩ := by
        cases element with
        | endOfLine => exact absurd rfl somePixels
        | plain color => exact congrArg (Place.mk · row) unwrapped
        | clear len => exact congrArg (Place.mk · row) unwrapped
        | colored color len => exact congrArg (Place.mk · row) unwrapped
      refine ⟨final, left, .through (by simp only []; omega) read ?_ (moved ▸ walk), ends⟩
      exact Nat.le_trans (Nat.mod_le _ _) fits
  | @line rows column count data rest read onward ih =>
      obtain ⟨final, left, walk, ends⟩ :=
        @ih (row + 1) (by rw [← total, Nat.add_right_comm, Nat.add_assoc]) (Nat.zero_le w)
      refine ⟨final, left, .through (by simp only []; omega) read ?_ walk, ends⟩
      exact Nat.le_trans (Nat.mod_le _ _) inside

theorem Walk.same_count {place final other : Place} {data left right : List UInt8} {count steps : Nat}
    (walk : Walk w h place data count final left) (ends : h ≤ final.row)
    (second : Walk w h place data steps other right) (second_ends : h ≤ other.row) :
    count = steps := by
  induction walk generalizing steps with
  | here =>
      cases second with
      | here => rfl
      | through inside => exact absurd inside (Nat.not_lt.mpr ends)
  | through inside read fits onward ih =>
      cases second with
      | here => exact absurd inside (Nat.not_lt.mpr second_ends)
      | through inside' read' fits' onward' =>
          rw [read] at read'
          cases read'
          rw [ih ends onward']

/-! ## The conditions -/

/-- The result for elements that are missing behind the last row is negative, unless so
many are that the 32-bit difference wraps around. -/
theorem missing_negative_iff {missing : Nat} (bound : missing < 2 ^ 32) :
    intOfUnsigned (-100000 - missing) < 0 ↔
      ¬ (2 ^ 31 - 100000 < missing ∧ missing ≤ 2 ^ 32 - 100000) := by
  unfold intOfUnsigned Int.bmod
  simp only []
  omega

theorem finished_negative_iff (bound : numRle < 2 ^ 32) :
    intOfUnsigned numRle < 0 ↔ 2 ^ 31 ≤ numRle := by
  unfold intOfUnsigned Int.bmod
  simp only []
  omega

theorem uncompress_as_walk (data : List UInt8) :
    rleUncompressArgbrle w h stride data numRle =
      uncompressElements w h stride numRle numRle (Place.cursor ⟨0, 0⟩ stride) data := by
  simp only [rleUncompressArgbrle, Place.cursor, Nat.zero_mul]

section Conditions

variable (wPositive : 1 ≤ w) (wBound : w < 2 ^ 32) (numRleBound : numRle < 2 ^ 32)
  {data : List UInt8}

include wPositive wBound

theorem Harmless.reads (harmless : Harmless w h stride numRle data) :
    ∃ value, (rleUncompressArgbrle w h stride data numRle).2 = .returned value := by
  obtain ⟨count, final, left, missing, walk, total, stops⟩ :=
    uncompress_elements_stops h stride numRle wPositive wBound numRle
      ⟨0, 0⟩ data (Nat.zero_le w)
  rw [uncompress_as_walk]
  generalize (uncompressElements w h stride numRle numRle _ data).2 = outcome at stops
  cases stops with
  | finished => exact ⟨_, rfl⟩
  | missing => exact ⟨_, rfl⟩
  | rejected => exact ⟨_, rfl⟩
  | @overread row someMissing present len read unread =>
      obtain ⟨pixels, rfl, refused⟩ :=
        harmless.cut count final left len walk (by omega) row present read
      simp only [cutOutcome, if_pos refused] at unread
      nomatch unread

theorem Harmless.writes (fits : w ≤ stride) (harmless : Harmless w h stride numRle data) :
    ∀ fill ∈ (rleUncompressArgbrle w h stride data numRle).1,
      ∀ place, fill.Covers place → ∃ y < h, ∃ x < w, place = y * stride + x := by
  intro fill member place covered
  rw [uncompress_as_walk] at member
  obtain ⟨count, final, left, element, rest, walk, bound, row, read, written, own⟩ :=
    uncompress_elements_writes wPositive wBound numRle ⟨0, 0⟩ data (Nat.zero_le w) fill member
  have inside := walk.column_le (Nat.zero_le w)
  obtain ⟨starts, extent⟩ := element_fills_place inside own
  obtain ⟨from_start, to_end⟩ := covered
  by_cases short : place < final.row * stride + w
  · exact ⟨final.row, row, place - final.row * stride, by omega, by omega⟩
  · have long : w < final.column + element.pixels := by omega
    obtain ⟨rfl, nextRow⟩ :=
      (harmless.spill count final left element rest walk bound row read long).resolve_left written
    have few := (spilling_pixels wPositive inside read written long).1
    refine ⟨final.row + 1, nextRow, place - (final.row + 1) * stride, ?_, ?_⟩
    · rw [Nat.add_mul, Nat.one_mul]
      omega
    · rw [Nat.add_mul, Nat.one_mul]
      omega

include numRleBound in
theorem Harmless.reported (harmless : Harmless w h stride numRle data)
    (malformed : ¬ WellFormed w h numRle data) (value : Int)
    (result : (rleUncompressArgbrle w h stride data numRle).2 = .returned value) : value < 0 := by
  obtain ⟨count, final, left, missing, walk, total, stops⟩ :=
    uncompress_elements_stops h stride numRle wPositive wBound numRle
      ⟨0, 0⟩ data (Nat.zero_le w)
  rw [uncompress_as_walk] at result
  rw [result] at stops
  generalize same : Outcome.returned value = outcome at stops
  cases stops with
  | finished ends none_missing =>
      rw [Outcome.returned.inj same]
      have wraps := (harmless.ended count final left walk ends (by omega)).2 (by omega)
      exact (finished_negative_iff numRleBound).mpr (wraps.resolve_left malformed)
  | missing ends some_missing =>
      rw [Outcome.returned.inj same]
      have counted := (harmless.ended count final left walk ends (by omega)).1
      rw [show numRle - count = missing by omega] at counted
      exact (missing_negative_iff (by omega)).mpr counted
  | rejected row negative =>
      rw [Outcome.returned.inj same]
      exact negative
  | overread => nomatch same

variable (stride numRle) in
theorem outcome_at_end {count : Nat} {final : Place} {left : List UInt8}
    (walk : Walk w h ⟨0, 0⟩ data count final left) (bound : count ≤ numRle) :
    ∃ before, rleUncompressArgbrle w h stride data numRle =
      (before ++ (uncompressElements w h stride numRle (numRle - count)
          (final.cursor stride) left).1,
        (uncompressElements w h stride numRle (numRle - count) (final.cursor stride) left).2) := by
  obtain ⟨before, same⟩ := walk.elements stride numRle wPositive wBound
    (Nat.zero_le w) (numRle - count)
  refine ⟨before, ?_⟩
  rw [uncompress_as_walk, ← same, Nat.sub_add_cancel bound]

theorem StaysInside.cut (safe : StaysInside w h stride numRle data) {count : Nat} {final : Place}
    {left : List UInt8} {len : Option Nat} (walk : Walk w h ⟨0, 0⟩ data count final left)
    (bound : count < numRle) (row : final.row < h) (present : left ≠ [])
    (read : readElement left = .cut len) :
    ∃ pixels, len = some pixels ∧ w < (final.column + pixels) % 2 ^ 32 := by
  obtain ⟨before, same⟩ := outcome_at_end stride numRle wPositive wBound walk
    (Nat.le_of_lt bound)
  obtain ⟨remaining, missing⟩ := Nat.exists_eq_add_of_lt bound
  obtain ⟨value, returned⟩ := safe.reads
  rw [same, show numRle - count = remaining + 1 by omega, uncompressElements,
    if_neg (c := h ≤ (final.cursor stride).y) (Nat.not_le.mpr row), if_neg (by simpa using present),
    decode_element_cut _ read] at returned
  cases len with
  | none => nomatch returned
  | some pixels =>
      refine ⟨pixels, rfl, ?_⟩
      by_contra inside
      have unread : cutOutcome w (final.cursor stride).x (some pixels) = .overread := if_neg inside
      rw [unread] at returned
      nomatch returned

theorem StaysInside.spill (fits : w ≤ stride) (safe : StaysInside w h stride numRle data)
    {count : Nat} {final : Place} {left rest : List UInt8} {element : Element}
    (walk : Walk w h ⟨0, 0⟩ data count final left) (bound : count < numRle) (row : final.row < h)
    (read : readElement left = .whole element rest) (long : w < final.column + element.pixels) :
    Element.Refused w final.column element ∨ (stride = w ∧ final.row + 1 < h) := by
  by_cases refused : Element.Refused w final.column element
  · exact .inl refused
  · right
    have inside := walk.column_le (Nat.zero_le w)
    obtain ⟨before, same⟩ := outcome_at_end stride numRle wPositive wBound
      walk (Nat.le_of_lt bound)
    obtain ⟨remaining, missing⟩ := Nat.exists_eq_add_of_lt bound
    obtain ⟨fill, own, covers⟩ := spilled_fill stride inside long
    have written : fill ∈ (rleUncompressArgbrle w h stride data numRle).1 := by
      rw [same, show numRle - count = remaining + 1 by omega,
        uncompress_elements_whole wPositive wBound inside row read, performElement, if_neg refused]
      by_cases stops : w < (final.column + element.pixels) % 2 ^ 32
      · rw [if_pos stops]
        exact List.mem_append_right _ own
      · rw [if_neg stops]
        exact List.mem_append_right _ (List.mem_append_left _ own)
    obtain ⟨y, yBound, x, xBound, place⟩ := safe.writes fill written _ covers
    -- the cell behind the line belongs to the image only where the rows are adjacent
    rcases Nat.lt_or_eq_of_le fits with padded | rfl
    · have column := congrArg (· % stride) place
      simp only [Nat.mul_add_mod_of_lt padded, Nat.mul_add_mod_of_lt (Nat.lt_trans xBound padded)]
        at column
      omega
    · have next := congrArg (· / w) place
      simp only [Nat.mul_comm _ w, Nat.mul_add_div wPositive, Nat.div_self wPositive,
        Nat.div_eq_of_lt xBound] at next
      exact ⟨rfl, by omega⟩

theorem StaysInside.ended (safe : StaysInside w h stride numRle data) {count : Nat} {final : Place}
    {left : List UInt8} (walk : Walk w h ⟨0, 0⟩ data count final left) (ends : h ≤ final.row)
    (bound : count ≤ numRle) (numRleBound : numRle < 2 ^ 32) :
    ¬ (2 ^ 31 - 100000 < numRle - count ∧ numRle - count ≤ 2 ^ 32 - 100000) ∧
      (count = numRle → WellFormed w h numRle data ∨ 2 ^ 31 ≤ numRle) := by
  obtain ⟨before, same⟩ := outcome_at_end stride numRle wPositive wBound walk
    bound
  constructor
  · rw [← missing_negative_iff (by omega)]
    by_cases all : numRle - count = 0
    · rw [all]
      decide
    · obtain ⟨remaining, missing⟩ := Nat.exists_eq_succ_of_ne_zero all
      apply safe.reported
      · intro wellFormed
        obtain ⟨other, right, second, second_ends⟩ :=
          Pictures.walk (h := h) wBound wellFormed (Nat.zero_add h) (Nat.zero_le w)
        have counts := walk.same_count ends second second_ends
        omega
      · rw [same, missing, uncompressElements, if_pos (c := h ≤ (final.cursor stride).y) ends]
        rfl
  · intro all
    by_contra neither
    obtain ⟨malformed, small⟩ := not_or.mp neither
    have negative := safe.reported malformed (intOfUnsigned numRle) (by
      rw [same, all, Nat.sub_self, uncompressElements,
        if_pos (c := h ≤ (final.cursor stride).y) ends])
    exact small ((finished_negative_iff numRleBound).mp negative)

end Conditions

/-- The decoder keeps to its input and to the image, and reports what is malformed,
if and only if no element of the data gets past its checks. -/
theorem stays_inside_iff_harmless (wPositive : 1 ≤ w) (wBound : w < 2 ^ 32) (fits : w ≤ stride)
    (numRleBound : numRle < 2 ^ 32) (data : List UInt8) :
    StaysInside w h stride numRle data ↔ Harmless w h stride numRle data := by
  constructor
  · intro safe
    exact {
      cut := fun _ _ _ _ walk bound row present read =>
        safe.cut wPositive wBound walk bound row present read
      spill := fun _ _ _ _ _ walk bound row read long =>
        safe.spill wPositive wBound fits walk bound row read long
      ended := fun _ _ _ walk ends bound =>
        safe.ended wPositive wBound walk ends bound numRleBound }
  · intro harmless
    exact {
      reads := harmless.reads wPositive wBound
      writes := harmless.writes wPositive wBound fits
      reported := harmless.reported wPositive wBound numRleBound }


theorem stays_inside_iff_harmless_one_pixel :
    StaysInside 1 1 1 2 [0xff, 0x12, 0x34, 0x56, 0, 0] ∧
      Harmless 1 1 1 2 [0xff, 0x12, 0x34, 0x56, 0, 0] := by
  have safe : StaysInside 1 1 1 2 [0xff, 0x12, 0x34, 0x56, 0, 0] := by
    refine ⟨⟨2, by decide⟩, ?_, ?_⟩
    · intro fill member place covers
      have only : fill = ⟨0, 1, 0xff123456⟩ := by
        simpa [show (rleUncompressArgbrle 1 1 1 [0xff, 0x12, 0x34, 0x56, 0, 0] 2).1 =
          [⟨0, 1, 0xff123456⟩] by decide] using member
      subst only
      exact ⟨0, Nat.one_pos, 0, Nat.one_pos, Nat.lt_one_iff.mp covers.2⟩
    · intro malformed
      exact absurd (.pixels rfl nofun (by decide) (.line rfl (.done []))) malformed
  exact ⟨safe, (stays_inside_iff_harmless (by decide) (by decide) (by decide) (by decide) _).mp safe⟩

/-- Three bytes behind a pixel that is cut off are read. -/
theorem truncated_pixel_read_past_end : ¬ StaysInside 1 1 1 1 [0xff] := by
  intro safe
  obtain ⟨value, returned⟩ := safe.reads
  exact absurd returned (by nofun)

end Decoder

end Xineliboutput.Osd
