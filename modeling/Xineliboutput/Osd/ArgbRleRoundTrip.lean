import Mathlib.Data.List.GetD
import Xineliboutput.Osd.ArgbRle

/-!
# The overlay codec round trip

Each code word is decoded to the fill it stands for, and by induction over a line
its code words paint the line. The decoder fills one pixel too few at the
end-of-line marker, so a line that ends transparent keeps the old content of its
last column.
-/

namespace Xineliboutput.Osd

open Xineliboutput.Foundation

set_option autoImplicit false

/-- A pixel as the decoder reproduces it: transparent pixels lose their colour. -/
def visible (color : UInt32) : UInt32 := if alpha color = 0 then 0 else color

theorem visible_eq_zero_iff (color : UInt32) : visible color = 0 ↔ alpha color = 0 := by
  unfold visible
  by_cases transparent : alpha color = 0
  · simp [transparent]
  · rw [if_neg transparent]
    constructor
    · intro zero
      rw [zero]
      rfl
    · exact fun zero => absurd zero transparent

theorem alpha_or_eq_zero (left right : UInt32) :
    alpha (left ||| right) = 0 ↔ alpha left = 0 ∧ alpha right = 0 := by
  simp only [alpha, UInt32.toNat_or, ← Nat.shiftRight_eq_div_pow, Nat.shiftRight_or_distrib]
  exact Nat.or_eq_zero_iff

/-! ## Code words -/

theorem code_bits (flags : Nat) (flagged : flags = 0 ∨ flags = 0x80) (bits : Nat)
    (bound : bits < 64) :
    (UInt8.ofNat (flags ||| bits) &&& 0x40 = 0 ∧
      (UInt8.ofNat (flags ||| bits) &&& 0x3f).toNat = bits ∧
      (UInt8.ofNat (flags ||| bits) &&& 0x80 = 0 ↔ flags = 0)) ∧
    (UInt8.ofNat (flags ||| 0x40 ||| bits) &&& 0x40 ≠ 0 ∧
      (UInt8.ofNat (flags ||| 0x40 ||| bits) &&& 0x3f).toNat = bits ∧
      (UInt8.ofNat (flags ||| 0x40 ||| bits) &&& 0x80 = 0 ↔ flags = 0)) := by
  rcases flagged with rfl | rfl
  · revert bits
    decide
  · revert bits
    decide

/-- A written length is read back, and its first byte tells the kind of the run. -/
theorem decode_len_write (flags : Nat) (flagged : flags = 0 ∨ flags = 0x80) (len : Nat)
    (bound : len ≤ 0x3fff) (tail : List UInt8) :
    ∃ code rest, writeLength flags len ++ tail = code :: rest ∧
      (code &&& 0x80 = 0 ↔ flags = 0) ∧ decodeLen (code :: rest) = some (len, tail) := by
  by_cases short : len < 64
  · obtain ⟨⟨small, value, kind⟩, -⟩ := code_bits flags flagged len short
    refine ⟨_, tail, ?_, kind, ?_⟩
    · simp only [writeLength, if_pos short, List.singleton_append]
    · simp only [decodeLen, if_pos small, value]
  · have highBits : (len >>> 8) &&& 0x3f = len / 256 := by
      rw [show (0x3f : Nat) = 2 ^ 6 - 1 from rfl, Nat.and_two_pow_sub_one_eq_mod,
        Nat.shiftRight_eq_div_pow]
      omega
    have lowBits : len &&& 0xff = len % 256 := by
      rw [show (0xff : Nat) = 2 ^ 8 - 1 from rfl, Nat.and_two_pow_sub_one_eq_mod]
    obtain ⟨-, large, value, kind⟩ := code_bits flags flagged (len / 256) (by omega)
    refine ⟨_, UInt8.ofNat (len % 256) :: tail, ?_, kind, ?_⟩
    · simp only [writeLength, if_neg short, highBits, lowBits, List.cons_append, List.nil_append]
    · have together : (len / 256) <<< 8 ||| (UInt8.ofNat (len % 256)).toNat = len := by
        rw [UInt8.toNat_ofNat', Nat.mod_mod_of_dvd _ (by decide),
          ← Nat.shiftLeft_add_eq_or_of_lt (by omega), Nat.shiftLeft_eq]
        omega
      simp only [decodeLen, if_neg large, value, together]

theorem read_u32_write (color : UInt32) (tail : List UInt8) :
    readU32Argb (writeU32 color ++ tail) = some (color, tail) := by
  have value : bigEndianValue (writeU32 color) = color.toNat :=
    big_endian_value_encode 4 color.toNat (by simpa using color.toNat_lt)
  have bytes : writeU32 color ++ tail = UInt8.ofNat (color.toNat / 256 / 256 / 256) ::
      UInt8.ofNat (color.toNat / 256 / 256) :: UInt8.ofNat (color.toNat / 256) ::
      UInt8.ofNat color.toNat :: tail := rfl
  rw [bytes, readU32Argb]
  congr 2
  exact (congrArg UInt32.ofNat value).trans (by simp)

theorem write_u32_head (color : UInt32) (solid : alpha color ≠ 0) :
    ∃ first rest, writeU32 color = first :: rest ∧ first ≠ 0 := by
  refine ⟨_, _, rfl, ?_⟩
  intro zero
  apply solid
  have bound := color.toNat_lt
  have value := congrArg UInt8.toNat zero
  simp only [UInt8.toNat_ofNat', UInt8.toNat_zero] at value
  unfold alpha
  omega

theorem decode_plain (w stride : Nat) (cursor : Cursor) {first : UInt8} (solid : first ≠ 0)
    (rest : List UInt8) {color : UInt32} {tail : List UInt8}
    (read : readU32Argb (first :: rest) = some (color, tail)) :
    decodeElement w stride cursor (first :: rest) =
      advance w cursor 1 ⟨cursor.dst + cursor.x, 1, color⟩ tail := by
  unfold decodeElement
  split
  · simp_all
  · simp_all
  · rename_i same
    rw [← same, read]

theorem advance_inside (w : Nat) (cursor : Cursor) (len : Nat) (fill : Fill UInt32)
    (rest : List UInt8) (wBound : w ≤ 0x3fff) (inside : cursor.x + len ≤ w) :
    advance w cursor len fill rest = .moved [fill] { cursor with x := cursor.x + len } rest := by
  have unwrapped : (cursor.x + len) % 2 ^ 32 = cursor.x + len := Nat.mod_eq_of_lt (by omega)
  simp only [advance, unwrapped, if_neg (Nat.not_lt.mpr inside)]

theorem decode_run (w stride : Nat) (cursor : Cursor) (color : UInt32) (len : Nat)
    (tail : List UInt8) (wBound : w ≤ 0x3fff) (some_pixels : 1 ≤ len)
    (inside : cursor.x + len ≤ w) :
    decodeElement w stride cursor (writeRleArgb color len ++ tail) =
      .moved [⟨cursor.dst + cursor.x, len, visible color⟩]
        { cursor with x := cursor.x + len } tail := by
  have unwrapped : (cursor.x + len) % 2 ^ 32 = cursor.x + len := Nat.mod_eq_of_lt (by omega)
  have fits : ¬ w < cursor.x + len := Nat.not_lt.mpr inside
  by_cases transparent : alpha color = 0
  · obtain ⟨code, rest, bytes, kind, value⟩ := decode_len_write 0 (.inl rfl) len (by omega) tail
    have written : writeRleArgb color len ++ tail = 0 :: code :: rest := by
      rw [← bytes]
      simp [writeRleArgb, transparent]
    rw [written, decodeElement]
    simp only [value, unwrapped, if_neg fits, kind.mpr rfl, if_true,
      if_pos (show len ≠ 0 by omega), visible, if_pos transparent]
    exact advance_inside w cursor len _ tail wBound inside
  · by_cases single : len < 2
    · obtain rfl : len = 1 := by omega
      obtain ⟨first, rest, head, solid⟩ := write_u32_head color transparent
      have written : writeRleArgb color 1 ++ tail = first :: (rest ++ tail) := by
        simp [writeRleArgb, transparent, head]
      have read : readU32Argb (first :: (rest ++ tail)) = some (color, tail) := by
        rw [← List.cons_append, ← head]
        exact read_u32_write color tail
      rw [written, decode_plain w stride cursor solid _ read, visible, if_neg transparent]
      exact advance_inside w cursor 1 _ tail wBound inside
    · obtain ⟨code, rest, bytes, kind, value⟩ :=
        decode_len_write 0x80 (.inr rfl) len (by omega) (writeU32 color ++ tail)
      have written : writeRleArgb color len ++ tail = 0 :: code :: rest := by
        rw [← bytes]
        simp [writeRleArgb, transparent, single]
      have colored : ¬ code &&& 0x80 = 0 := fun zero => by simpa using kind.mp zero
      rw [written, decodeElement]
      simp only [value, unwrapped, if_neg fits, if_neg colored, read_u32_write, visible,
        if_neg transparent]
      exact advance_inside w cursor len _ tail wBound inside

def endOfLineFill (w : Nat) (cursor : Cursor) : List (Fill UInt32) :=
  if cursor.x + 1 < w then [⟨cursor.dst + cursor.x, w - cursor.x - 1, 0⟩] else []

theorem decode_end_of_line (w stride : Nat) (cursor : Cursor) (tail : List UInt8) (wPos : 1 ≤ w)
    (wBound : w ≤ 0x3fff) (inside : cursor.x ≤ w) :
    decodeElement w stride cursor (writeRleArgb 0 0 ++ tail) =
      .moved (endOfLineFill w cursor) ⟨0, cursor.y + 1, cursor.dst + stride⟩ tail := by
  have written : writeRleArgb 0 0 ++ tail = 0 :: 0 :: tail := rfl
  have value : decodeLen (0 :: tail) = some (0, tail) := rfl
  have unwrapped : (cursor.x + 0) % 2 ^ 32 = cursor.x := Nat.mod_eq_of_lt (by omega)
  have lastColumn : sub32 w 1 = w - 1 := by
    unfold sub32
    omega
  rw [written, decodeElement]
  simp only [value, unwrapped, if_neg (Nat.not_lt.mpr inside), UInt8.zero_and, if_true, ne_eq,
    not_true_eq_false, if_false, lastColumn, endOfLineFill]
  by_cases tailLeft : cursor.x + 1 < w
  · have length : sub32 (sub32 w cursor.x) 1 * 4 % 2 ^ 32 / 4 = w - cursor.x - 1 := by
      unfold sub32
      omega
    rw [if_pos tailLeft, if_pos (show cursor.x < w - 1 by omega), length]
  · rw [if_neg tailLeft, if_neg (show ¬ cursor.x < w - 1 by omega)]

/-! ## Lines -/

/-- What a decoded line leaves in memory: the pixels shown, but for a transparent
one in the last column, which keeps what was there. -/
def lineAfter (shown : List UInt32) (start : Nat) (memory : Nat → UInt32) (place : Nat) : UInt32 :=
  if start ≤ place ∧ place < start + shown.length then
    let value := shown.getD (place - start) 0
    if place + 1 = start + shown.length ∧ value = 0 then memory place else value
  else memory place

theorem line_after_run (value : UInt32) (len : Nat) (rest : List UInt32) (more : rest ≠ [])
    (start : Nat) (memory : Nat → UInt32) :
    lineAfter rest (start + len) ((Fill.mk start len value).apply memory) =
      lineAfter (List.replicate len value ++ rest) start memory := by
  have restLength : 0 < rest.length := List.length_pos_iff.mpr more
  funext place
  simp only [lineAfter, List.length_append, List.length_replicate]
  by_cases inRun : start ≤ place ∧ place < start + len
  · rw [if_neg (by omega), Fill.apply_covered ⟨start, len, value⟩ _ inRun, if_pos (by omega),
      List.getD_append _ _ _ _ (by simp; omega), List.getD_replicate _ (by omega), if_neg]
    omega
  · rw [Fill.apply_elsewhere ⟨start, len, value⟩ _ inRun]
    by_cases inRest : start + len ≤ place ∧ place < start + len + rest.length
    · rw [if_pos inRest,
        if_pos (show start ≤ place ∧ place < start + (len + rest.length) by omega),
        List.getD_append_right _ _ _ _ (by simp; omega)]
      simp only [List.length_replicate, show place - (start + len) = place - start - len by omega,
        show start + len + rest.length = start + (len + rest.length) by omega]
    · rw [if_neg inRest, if_neg (by omega)]

theorem end_of_line_after_solid (value : UInt32) (solid : value ≠ 0) (len start : Nat)
    (memory : Nat → UInt32) :
    (Fill.mk start len value).apply memory =
      lineAfter (List.replicate len value) start memory := by
  funext place
  simp only [lineAfter, List.length_replicate]
  by_cases inRun : start ≤ place ∧ place < start + len
  · rw [Fill.apply_covered ⟨start, len, value⟩ _ inRun, if_pos inRun, List.getD_replicate _ (by omega),
      if_neg (by simp [solid])]
  · rw [Fill.apply_elsewhere ⟨start, len, value⟩ _ inRun, if_neg inRun]

theorem end_of_line_after_transparent (w : Nat) (cursor : Cursor) (len : Nat)
    (whole : cursor.x + len = w) (memory : Nat → UInt32) :
    paint (endOfLineFill w cursor) memory =
      lineAfter (List.replicate len 0) (cursor.dst + cursor.x) memory := by
  funext place
  simp only [lineAfter, List.length_replicate]
  have filled : paint (endOfLineFill w cursor) memory place =
      if cursor.dst + cursor.x ≤ place ∧ place + 1 < cursor.dst + cursor.x + len then 0
      else memory place := by
    by_cases tailLeft : cursor.x + 1 < w
    · simp only [endOfLineFill, if_pos tailLeft, paint_cons, paint_nil, Fill.apply,
        show place < cursor.dst + cursor.x + (w - cursor.x - 1) ↔
          place + 1 < cursor.dst + cursor.x + len by omega]
    · rw [endOfLineFill, if_neg tailLeft, paint_nil, if_neg (by omega)]
  rw [filled]
  by_cases inRun : cursor.dst + cursor.x ≤ place ∧ place < cursor.dst + cursor.x + len
  · rw [if_pos inRun, List.getD_replicate _ (by omega)]
    by_cases last : place + 1 = cursor.dst + cursor.x + len
    · rw [if_neg (by omega), if_pos ⟨last, rfl⟩]
    · rw [if_pos (by omega), if_neg (fun both => last both.1)]
  · rw [if_neg (by omega), if_neg inRun]

def withFills (fills : List (Fill UInt32)) (result : List (Fill UInt32) × Outcome) :
    List (Fill UInt32) × Outcome := (fills ++ result.1, result.2)

theorem with_fills_append (first second : List (Fill UInt32))
    (result : List (Fill UInt32) × Outcome) :
    withFills first (withFills second result) = withFills (first ++ second) result := by
  simp [withFills]

theorem uncompress_step (w h stride numRle remaining : Nat) {cursor next : Cursor}
    {data rest : List UInt8} {fills : List (Fill UInt32)} (row : cursor.y < h)
    (decoded : decodeElement w stride cursor data = .moved fills next rest) :
    uncompressElements w h stride numRle (remaining + 1) cursor data =
      withFills fills (uncompressElements w h stride numRle remaining next rest) := by
  cases data with
  | nil => simp [decodeElement] at decoded
  | cons byte data =>
      rw [uncompressElements, if_neg (Nat.not_le.mpr row)]
      simp [decoded, withFills]

/-- The code words of a line paint that line and leave the decoder at the next one.
The induction follows the encoder: `len` pixels of the open run, then the rest. -/
theorem uncompress_pixels (w h stride numRle remaining : Nat) (wBound : w ≤ 0x3fff)
    (tail : List UInt8) (rest : List UInt32) (color : UInt32) (len : Nat) (cursor : Cursor)
    (some_pixels : 1 ≤ len) (whole : cursor.x + len + rest.length = w) (row : cursor.y < h) :
    ∃ fills,
      uncompressElements w h stride numRle ((compressPixels color len rest).2 + remaining) cursor
          ((compressPixels color len rest).1 ++ tail) =
        withFills fills (uncompressElements w h stride numRle remaining
          ⟨0, cursor.y + 1, cursor.dst + stride⟩ tail) ∧
      ∀ memory, paint fills memory =
        lineAfter ((List.replicate len color ++ rest).map visible) (cursor.dst + cursor.x)
          memory := by
  induction rest generalizing color len cursor with
  | nil =>
      rw [List.length_nil, Nat.add_zero] at whole
      by_cases solid : alpha color = 0
      · have closed := decode_end_of_line w stride cursor tail (by omega) wBound (by omega)
        refine ⟨endOfLineFill w cursor, ?_, ?_⟩
        · simp only [compressPixels, solid, ne_eq, not_true_eq_false, and_false, if_false]
          rw [Nat.add_comm]
          exact uncompress_step w h stride numRle remaining row closed
        · intro memory
          rw [end_of_line_after_transparent w cursor len whole memory, List.append_nil,
            List.map_replicate, (visible_eq_zero_iff color).mpr solid]
      · have painted := decode_run w stride cursor color len (writeRleArgb 0 0 ++ tail) wBound
          some_pixels (by omega)
        have closed := decode_end_of_line w stride { cursor with x := cursor.x + len } tail
          (by omega) wBound (by simp only; omega)
        have atEnd : endOfLineFill w { cursor with x := cursor.x + len } = [] := by
          simp only [endOfLineFill, whole]
          exact if_neg (by omega)
        have sameRow : ({ cursor with x := cursor.x + len } : Cursor).y < h := row
        rw [atEnd] at closed
        refine ⟨[⟨cursor.dst + cursor.x, len, visible color⟩] ++ [], ?_, ?_⟩
        · simp only [compressPixels, solid, ne_eq, not_false_eq_true, and_true,
            if_pos (show ¬ len = 0 by omega), List.append_assoc]
          rw [show 2 + remaining = remaining + 1 + 1 by omega,
            uncompress_step w h stride numRle (remaining + 1) row painted,
            uncompress_step w h stride numRle remaining sameRow closed, with_fills_append]
        · intro memory
          rw [List.append_nil, paint_cons, paint_nil, List.append_nil, List.map_replicate]
          exact end_of_line_after_solid _ (fun zero => solid ((visible_eq_zero_iff color).mp zero))
            _ _ _
  | cons pixel rest ih =>
      rw [List.length_cons] at whole
      by_cases same : pixel = color
      · obtain ⟨fills, decoded, painted⟩ := ih color (len + 1) cursor (by omega) (by omega) row
        refine ⟨fills, ?_, ?_⟩
        · simpa only [compressPixels, if_pos same] using decoded
        · intro memory
          rw [painted, List.replicate_succ', List.append_assoc, List.singleton_append, same]
      · by_cases merged : alpha (pixel ||| color) = 0
        · obtain ⟨fills, decoded, painted⟩ := ih color (len + 1) cursor (by omega) (by omega) row
          have both := (alpha_or_eq_zero pixel color).mp merged
          have alike : visible pixel = visible color := by
            rw [(visible_eq_zero_iff pixel).mpr both.1, (visible_eq_zero_iff color).mpr both.2]
          refine ⟨fills, ?_, ?_⟩
          · simpa only [compressPixels, if_neg same, if_pos merged] using decoded
          · intro memory
            rw [painted, List.replicate_succ']
            simp only [List.map_append, List.map_cons, alike, List.append_assoc,
              List.singleton_append]
        · have run := decode_run w stride cursor color len
            ((compressPixels pixel 1 rest).1 ++ tail) wBound some_pixels (by omega)
          obtain ⟨fills, decoded, painted⟩ := ih pixel 1 { cursor with x := cursor.x + len }
            (Nat.le_refl _) (by simp only; omega) row
          refine ⟨[⟨cursor.dst + cursor.x, len, visible color⟩] ++ fills, ?_, ?_⟩
          · simp only [compressPixels, if_neg same, if_neg merged, List.append_assoc]
            rw [show (compressPixels pixel 1 rest).2 + 1 + remaining =
                (compressPixels pixel 1 rest).2 + remaining + 1 by omega,
              uncompress_step w h stride numRle _ row run, decoded, with_fills_append]
          · intro memory
            rw [List.singleton_append, paint_cons, painted, ← Nat.add_assoc,
              line_after_run _ _ _ (by simp)]
            simp

/-! ## Images -/

def linePixels (data : List UInt32) (w row : Nat) : List UInt32 := (data.drop (row * w)).take w

theorem line_after_congr (shown : List UInt32) (start : Nat) {memory other : Nat → UInt32}
    {place : Nat} (same : memory place = other place) :
    lineAfter shown start memory place = lineAfter shown start other place := by
  simp only [lineAfter, same]

theorem line_after_outside (shown : List UInt32) (start : Nat) (memory : Nat → UInt32)
    {place : Nat} (outside : ¬ (start ≤ place ∧ place < start + shown.length)) :
    lineAfter shown start memory place = memory place :=
  if_neg outside

theorem uncompress_line (w h stride numRle remaining : Nat) (wPos : 1 ≤ w) (wBound : w ≤ 0x3fff)
    (line : List UInt32) (whole : line.length = w) (tail : List UInt8) (y dst : Nat)
    (row : y < h) :
    ∃ fills,
      uncompressElements w h stride numRle ((compressLine line).2 + remaining) ⟨0, y, dst⟩
          ((compressLine line).1 ++ tail) =
        withFills fills
          (uncompressElements w h stride numRle remaining ⟨0, y + 1, dst + stride⟩ tail) ∧
      ∀ memory, paint fills memory = lineAfter (line.map visible) dst memory := by
  cases line with
  | nil =>
      rw [List.length_nil] at whole
      omega
  | cons color rest =>
      rw [List.length_cons] at whole
      exact uncompress_pixels w h stride numRle remaining wBound tail rest color 1 ⟨0, y, dst⟩
        (Nat.le_refl _) (by simp only; omega) row

/-- All lines of an image: each row is painted as its line, nothing else changes. -/
theorem uncompress_lines (w h stride numRle : Nat) (wPos : 1 ≤ w) (wBound : w ≤ 0x3fff)
    (wide : w ≤ stride) (lines : Nat) (data : List UInt32) (whole : data.length = lines * w)
    (y dst : Nat) (rows : y + lines = h) :
    ∃ fills,
      uncompressElements w h stride numRle (compressLines w lines data).2 ⟨0, y, dst⟩
          (compressLines w lines data).1 = (fills, .returned (intOfUnsigned numRle)) ∧
      ∀ memory,
        (∀ row, row < lines → ∀ x, x < w →
          paint fills memory (dst + row * stride + x) =
            lineAfter ((linePixels data w row).map visible) (dst + row * stride) memory
              (dst + row * stride + x)) ∧
        ∀ place, (∀ row, row < lines →
            ¬ (dst + row * stride ≤ place ∧ place < dst + row * stride + w)) →
          paint fills memory place = memory place := by
  induction lines generalizing data y dst with
  | zero =>
      refine ⟨[], ?_, ?_⟩
      · have done : h ≤ y := by omega
        simp [compressLines, uncompressElements, done]
      · intro memory
        exact ⟨fun row bound => absurd bound (Nat.not_lt_zero row), fun place _ => rfl⟩
  | succ lines ih =>
      rw [Nat.succ_mul] at whole
      obtain ⟨later, decodedLater, paintedLater⟩ := ih (data.drop w) (by simp [whole]) (y + 1)
        (dst + stride) (by omega)
      have firstLength : (data.take w).length = w := by
        rw [List.length_take]
        omega
      obtain ⟨first, decodedFirst, paintedFirst⟩ := uncompress_line w h stride numRle
        (compressLines w lines (data.drop w)).2 wPos wBound (data.take w) firstLength
        (compressLines w lines (data.drop w)).1 y dst (by omega)
      refine ⟨first ++ later, ?_, ?_⟩
      · simp only [compressLines]
        rw [decodedFirst, decodedLater, withFills]
      · intro memory
        obtain ⟨rowsLater, untouchedLater⟩ := paintedLater (paint first memory)
        have shown : ((data.take w).map visible).length = w := by rw [List.length_map, firstLength]
        have behind (row : Nat) : dst + stride + row * stride = dst + (row + 1) * stride := by
          rw [Nat.succ_mul]
          omega
        constructor
        · intro row bound x inside
          rw [paint_append]
          cases row with
          | zero =>
              rw [untouchedLater]
              · rw [paintedFirst]
                simp [linePixels]
              · intro row _
                rw [behind, Nat.succ_mul]
                omega
          | succ row =>
              have painted := rowsLater row (by omega) x inside
              rw [behind] at painted
              rw [painted, linePixels, List.drop_drop, show w + row * w = (row + 1) * w by
                rw [Nat.succ_mul]; omega]
              apply line_after_congr
              rw [paintedFirst]
              apply line_after_outside
              rw [shown, Nat.succ_mul]
              omega
        · intro place outside
          rw [paint_append, untouchedLater]
          · rw [paintedFirst]
            apply line_after_outside
            rw [shown]
            simpa using outside 0 (by omega)
          · intro row bound
            rw [behind]
            exact outside (row + 1) (by omega)

/-- The element count comes back, every pixel is shown, and memory outside the rows
is as before. -/
def RoundTrip (data : List UInt32) (w h stride : Nat) (memory : Nat → UInt32) : Prop :=
  ∃ bytes count, rleCompressArgbrle data w h = some (bytes, count) ∧
    (rleUncompressArgbrle w h stride bytes count).2 = .returned (intOfUnsigned count) ∧
    (∀ row, row < h → ∀ x, x < w →
      paint (rleUncompressArgbrle w h stride bytes count).1 memory (row * stride + x) =
        visible (data.getD (row * w + x) 0)) ∧
    ∀ place, (∀ row, row < h → ¬ (row * stride ≤ place ∧ place < row * stride + w)) →
      paint (rleUncompressArgbrle w h stride bytes count).1 memory place = memory place

theorem line_pixel (data : List UInt32) (w h row x : Nat) (whole : data.length = h * w)
    (bound : row < h) (inside : x < w) :
    ((linePixels data w row).map visible).length = w ∧
      ((linePixels data w row).map visible).getD x 0 = visible (data.getD (row * w + x) 0) := by
  have rowEnd : (row + 1) * w ≤ h * w := Nat.mul_le_mul_right w bound
  rw [Nat.succ_mul] at rowEnd
  constructor
  · simp only [linePixels, List.length_map, List.length_take, List.length_drop]
    omega
  · have zero : visible 0 = 0 := rfl
    rw [← zero, List.getD_map, linePixels, zero]
    congr 1
    simp only [List.getD_eq_getElem?_getD, List.getElem?_take, if_pos inside, List.getElem?_drop]

/-- The image comes back just if in every row the last pixel is not transparent or
the last column of the destination was empty before. -/
theorem argb_round_trip_iff (data : List UInt32) (w h stride : Nat) (memory : Nat → UInt32)
    (wPos : 1 ≤ w) (wBound : w ≤ 0x3fff) (wide : w ≤ stride) (whole : data.length = h * w) :
    RoundTrip data w h stride memory ↔
      ∀ row, row < h → alpha (data.getD (row * w + (w - 1)) 0) ≠ 0 ∨
        memory (row * stride + (w - 1)) = 0 := by
  obtain ⟨fills, decoded, painted⟩ := uncompress_lines w h stride (compressLines w h data).2 wPos
    wBound wide h data whole 0 0 (Nat.zero_add h)
  obtain ⟨rows, untouched⟩ := painted memory
  simp only [Nat.zero_add] at rows untouched
  have compressed : rleCompressArgbrle data w h = some (compressLines w h data) :=
    if_neg (by omega)
  have shown (row : Nat) (bound : row < h) (x : Nat) (inside : x < w) :
      paint fills memory (row * stride + x) =
        if x + 1 = w ∧ visible (data.getD (row * w + x) 0) = 0 then memory (row * stride + x)
        else visible (data.getD (row * w + x) 0) := by
    obtain ⟨length, pixel⟩ := line_pixel data w h row x whole bound inside
    rw [rows row bound x inside, lineAfter, length, if_pos (by omega),
      Nat.add_sub_cancel_left, pixel]
    simp only [show row * stride + x + 1 = row * stride + w ↔ x + 1 = w by omega]
  constructor
  · rintro ⟨bytes, count, result, -, pixels, -⟩ row bound
    rw [compressed, Option.some.injEq] at result
    obtain rfl : (compressLines w h data).1 = bytes := congrArg Prod.fst result
    obtain rfl : (compressLines w h data).2 = count := congrArg Prod.snd result
    by_cases solid : alpha (data.getD (row * w + (w - 1)) 0) = 0
    · apply Or.inr
      have pixel := pixels row bound (w - 1) (by omega)
      have stays := shown row bound (w - 1) (by omega)
      have transparent := (visible_eq_zero_iff _).mpr solid
      rw [if_pos ⟨by omega, transparent⟩] at stays
      rw [rleUncompressArgbrle, decoded] at pixel
      rw [← stays, ← transparent, ← pixel]
    · exact .inl solid
  · intro each
    refine ⟨_, _, compressed, ?_⟩
    rw [rleUncompressArgbrle, decoded]
    refine ⟨rfl, ?_, untouched⟩
    intro row bound x inside
    rw [shown row bound x inside]
    split
    · rename_i last
      rcases each row bound with solid | empty
      · rw [show w - 1 = x by omega] at solid
        exact absurd ((visible_eq_zero_iff _).mp last.2) solid
      · rw [show w - 1 = x by omega] at empty
        rw [empty, last.2]
    · rfl

theorem argb_round_trip_solid_last : RoundTrip [0x00ffffff, 0xff000001] 2 1 3 fun _ => 7 :=
  (argb_round_trip_iff [0x00ffffff, 0xff000001] 2 1 3 (fun _ => 7) (by decide) (by decide) (by decide)
    rfl).mpr (by decide)

/-- A transparent pixel at the end of its row leaves the old pixel in place. -/
theorem transparent_last_column_stays :
    ¬ ∀ (data : List UInt32) (w h stride : Nat) (memory : Nat → UInt32), 1 ≤ w → w ≤ 0x3fff →
      1 ≤ h → w ≤ stride → data.length = h * w → RoundTrip data w h stride memory := by
  intro claimed
  obtain ⟨bytes, count, result, -, pixels, -⟩ := claimed [0xff000001, 0x00ffffff] 2 1 2
    (fun _ => 7) (by decide) (by decide) (by decide) (by decide) rfl
  have compressed : rleCompressArgbrle [0xff000001, 0x00ffffff] 2 1 =
      some ([0xff, 0, 0, 1, 0, 0], 2) := by decide
  rw [compressed, Option.some.injEq, Prod.mk.injEq] at result
  obtain ⟨rfl, rfl⟩ := result
  have pixel := pixels 0 (by decide) 1 (by decide)
  revert pixel
  decide

end Xineliboutput.Osd
