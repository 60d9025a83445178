import Xineliboutput.Server.FileAuthorisation

/-!
# File names in MRLs

`EscapeString` of `tools/playlist.c` writes a file name with `%xx` in place of the
characters that mean something in an MRL; `unescape_filename` of `xine_input_vdr.c`
and `unescape_uri` of `tools/http.c` read it back. The sizes are of type `int`, 32
bits wide; an assignment that does not fit wraps around, an addition that does not
fit has no result.
-/

namespace Xineliboutput.Playlist

open Xineliboutput.Foundation Xineliboutput.Server

set_option autoImplicit false

/-! ## `EscapeString` -/

def isEscaped (byte : UInt8) : Bool :=
  (1 ≤ byte.toNat && byte.toNat ≤ 32) || 127 ≤ byte.toNat ||
    (ascii "#%?:;'\"()".toList).contains byte

def escapeByte (byte : UInt8) : List UInt8 :=
  if isEscaped byte = true then [37, hexDigit (byte.toNat / 16), hexDigit (byte.toNat % 16)]
  else [byte]

def escaped (text : List UInt8) : List UInt8 := text.flatMap escapeByte

/-- `if(size-7 < i) buf = realloc(buf, (size=size+16))` -/
def grow (size : Int) (i : Nat) : Option Int :=
  if size - 7 < -2 ^ 31 then none
  else if size - 7 < i then
    if size + 16 < 2 ^ 31 then some (size + 16) else none
  else some size

/-- The loop, with the bytes written so far. A write at or behind `size` has no result;
neither has one through the NULL that `realloc` returns for a negative size. -/
def escapeLoop : Int → List UInt8 → List UInt8 → Option (List UInt8)
  | size, written, [] => if written.length < size then some written else none
  | size, written, byte :: rest =>
      (grow size written.length).bind fun size =>
        if (written ++ escapeByte byte).length ≤ size then
          escapeLoop size (written ++ escapeByte byte) rest
        else none

def escapeString (s : List UInt8) : Option (List UInt8) :=
  escapeLoop (Int.bmod (s.length + 16) (2 ^ 32)) [] s

/-! ## `unescape_filename` -/

def unescapeFilename : List UInt8 → List UInt8
  | byte :: first :: second :: rest =>
      if byte = 35 then []
      else if byte = 37 then
        match scanHex (first :: second :: rest) with
        | some value => charOf value :: unescapeFilename rest
        | none => byte :: unescapeFilename (first :: second :: rest)
      else byte :: unescapeFilename (first :: second :: rest)
  | text => text.takeWhile (notByte 35)

/-! ## What comes back -/

/-- Bytes that may stand in an MRL: no blank, control or non-ASCII byte, and none of
the characters with a meaning of their own. -/
def isPlainByte (byte : UInt8) : Bool :=
  33 ≤ byte.toNat && byte.toNat ≤ 126 && !(ascii "#?:;'\"()".toList).contains byte

theorem hex_digit_plain : ∀ value < 16, isPlainByte (hexDigit value) = true := by
  decide

theorem escape_byte_plain (byte : UInt8) (notNul : byte ≠ 0) :
    ∀ written ∈ escapeByte byte, isPlainByte written = true := by
  have small : byte.toNat < 256 := byte.toNat_lt
  unfold escapeByte
  split
  · intro written member
    simp only [List.mem_cons, List.not_mem_nil, or_false] at member
    rcases member with rfl | rfl | rfl
    · decide
    · exact hex_digit_plain _ (by omega)
    · exact hex_digit_plain _ (by omega)
  · rename_i unescaped
    intro written member
    obtain rfl := List.mem_singleton.mp member
    have positive : written.toNat ≠ 0 := fun zero => notNul (UInt8.toNat_inj.mp zero)
    simp only [isEscaped, Bool.not_eq_true, Bool.or_eq_false_iff, Bool.and_eq_false_iff,
      decide_eq_false_iff_not] at unescaped
    obtain ⟨⟨noBlank, ascii_byte⟩, noSpecial⟩ := unescaped
    have noOther : (ascii "#?:;'\"()".toList).contains written = false := by
      rw [List.contains_eq_mem, decide_eq_false_iff_not] at noSpecial ⊢
      intro special
      exact noSpecial (List.Sublist.mem special (by decide))
    simp only [isPlainByte, noOther, Bool.not_false, Bool.and_true, Bool.and_eq_true,
      decide_eq_true_eq]
    omega

theorem escaped_plain (text : List UInt8) (nulFree : (0 : UInt8) ∉ text) :
    ∀ byte ∈ escaped text, isPlainByte byte = true := by
  intro byte member
  obtain ⟨source, inside, written⟩ := List.mem_flatMap.mp member
  exact escape_byte_plain source (fun nul => nulFree (nul ▸ inside)) byte written

theorem scan_escape_digits (byte : UInt8) (rest : List UInt8) :
    scanHex (hexDigit (byte.toNat / 16) :: hexDigit (byte.toNat % 16) :: rest) =
      some (byte.toNat : Int) := by
  have small : byte.toNat < 256 := byte.toNat_lt
  have value := scan_hex_digits (byte.toNat / 16) (byte.toNat % 16) (by omega) (by omega) rest
  have whole : (16 * (byte.toNat / 16 : Nat) + (byte.toNat % 16 : Nat) : Int) = byte.toNat := by
    omega
  rwa [whole] at value

theorem unescaped_ne {byte special : UInt8} (unescaped : ¬ isEscaped byte = true)
    (escaped : isEscaped special = true) : byte ≠ special := by
  rintro rfl
  exact unescaped escaped

/-- `%` itself is escaped, so that each `%` begins an escape of the encoder. -/
theorem unescape_uri_byte (byte : UInt8) (rest : List UInt8) :
    unescapeUri (escapeByte byte ++ rest) = byte :: unescapeUri rest := by
  unfold escapeByte
  split
  · simp only [List.cons_append, List.nil_append, unescapeUri, if_true, scan_escape_digits,
      char_of_nat]
  · rename_i unescaped
    have noPercent : byte ≠ 37 := unescaped_ne unescaped (by decide)
    rcases rest with - | ⟨first, - | ⟨second, rest⟩⟩
    · rfl
    · rfl
    · rw [List.singleton_append, unescapeUri, if_neg noPercent]

theorem unescape_filename_byte (byte : UInt8) (rest : List UInt8) :
    unescapeFilename (escapeByte byte ++ rest) = byte :: unescapeFilename rest := by
  unfold escapeByte
  split
  · simp only [List.cons_append, List.nil_append, unescapeFilename, if_true, scan_escape_digits,
      char_of_nat]
    rfl
  · rename_i unescaped
    have noPercent : byte ≠ 37 := unescaped_ne unescaped (by decide)
    have noHash : byte ≠ 35 := unescaped_ne unescaped (by decide)
    rcases rest with - | ⟨first, - | ⟨second, rest⟩⟩
    · simp [unescapeFilename, notByte, noHash, List.takeWhile_cons]
    · simp [unescapeFilename, notByte, noHash, List.takeWhile_cons]
    · rw [List.singleton_append, unescapeFilename, if_neg noHash, if_neg noPercent]

theorem unescape_uri_escaped (text rest : List UInt8) :
    unescapeUri (escaped text ++ rest) = text ++ unescapeUri rest := by
  induction text with
  | nil => rfl
  | cons byte text ih =>
      rw [escaped, List.flatMap_cons, List.append_assoc, unescape_uri_byte, ← escaped, ih]
      rfl

theorem unescape_filename_escaped (text rest : List UInt8) :
    unescapeFilename (escaped text ++ rest) = text ++ unescapeFilename rest := by
  induction text with
  | nil => rfl
  | cons byte text ih =>
      rw [escaped, List.flatMap_cons, List.append_assoc, unescape_filename_byte, ← escaped, ih]
      rfl

theorem unescape_filename_hash (rest : List UInt8) : unescapeFilename (35 :: rest) = [] := by
  match rest with
  | [] | [_] | _ :: _ :: _ => simp [unescapeFilename, notByte]

theorem plain_cut {text : List UInt8} (plain : ∀ byte ∈ text, isPlainByte byte = true)
    {delimiter : UInt8} (special : isPlainByte delimiter = false) (rest : List UInt8) :
    (text ++ delimiter :: rest).takeWhile (notByte delimiter) = text := by
  have kept : ∀ byte ∈ text, notByte delimiter byte = true := by
    intro byte member
    simp only [notByte, bne_iff_ne]
    rintro rfl
    rw [plain byte member] at special
    cases special
  rw [List.takeWhile_append_of_pos kept]
  simp [notByte]

/-! ## The buffer -/

/-- Some number of extensions leaves seven bytes free behind `used`, with a size that
is still an `int`. -/
def Fits (size : Int) (used : Nat) : Prop :=
  ∃ blocks : Nat, used + 7 ≤ size + 16 * blocks ∧ size + 16 * blocks < 2 ^ 31

theorem Fits.grown {size : Int} {used : Nat} (fits : Fits (size + 16) used) : Fits size used := by
  obtain ⟨blocks, free, bounded⟩ := fits
  exact ⟨blocks + 1, by omega, by omega⟩

theorem escape_byte_length (byte : UInt8) :
    1 ≤ (escapeByte byte).length ∧ (escapeByte byte).length ≤ 3 := by
  unfold escapeByte
  split <;> simp

theorem grow_spec {size : Int} {i : Nat} (room : i + 4 ≤ size) (bounded : size < 2 ^ 31)
    {used : Nat} (later : i ≤ used) :
    (∀ next, grow size i = some next →
      i + 7 ≤ next ∧ next < 2 ^ 31 ∧ (Fits next used → Fits size used) ∧ Fits size i) ∧
    (Fits size used → ∃ next, grow size i = some next ∧ Fits next used) := by
  unfold grow
  rw [if_neg (by omega)]
  by_cases short : size - 7 < i
  · rw [if_pos short]
    constructor
    · intro next extended
      split at extended
      · obtain rfl := Option.some.inj extended
        exact ⟨by omega, by omega, Fits.grown, 1, by omega, by omega⟩
      · cases extended
    · rintro ⟨blocks, free, limit⟩
      have extends_ : 1 ≤ blocks := by omega
      rw [if_pos (by omega)]
      exact ⟨_, rfl, blocks - 1, by omega, by omega⟩
  · rw [if_neg short]
    constructor
    · intro next same
      obtain rfl := Option.some.inj same
      exact ⟨by omega, bounded, id, 0, by omega, by omega⟩
    · intro fits
      exact ⟨size, rfl, fits⟩

/-- With four bytes free at the loop head, the loop writes the whole escaped text if
the buffer can be extended far enough for the last character, and fails otherwise. -/
theorem escape_loop_some_iff {size : Int} {written text result : List UInt8}
    (room : written.length + 4 ≤ size) (bounded : size < 2 ^ 31) :
    escapeLoop size written text = some result ↔
      result = written ++ escaped text ∧
        (text = [] ∨ Fits size (written ++ escaped text.dropLast).length) := by
  induction text generalizing size written with
  | nil =>
      rw [escapeLoop, if_pos (by omega)]
      simp [escaped, eq_comm]
  | cons byte rest ih =>
      have width := escape_byte_length byte
      have later : written.length ≤ (written ++ escaped (byte :: rest).dropLast).length := by simp
      obtain ⟨extended, extensible⟩ := grow_spec room bounded later
      have same : written ++ escaped (byte :: rest) =
          (written ++ escapeByte byte) ++ escaped rest := by
        simp [escaped]
      have onward : ∀ next : Int, written.length + 7 ≤ next → next < 2 ^ 31 →
          ((if ((written ++ escapeByte byte).length : Int) ≤ next then
              escapeLoop next (written ++ escapeByte byte) rest else none) = some result ↔
            result = (written ++ escapeByte byte) ++ escaped rest ∧
              (rest = [] ∨ Fits next (written ++ escaped (byte :: rest).dropLast).length)) := by
        intro next free limit
        have nextRoom : (written ++ escapeByte byte).length + 4 ≤ next := by
          rw [List.length_append]
          omega
        rw [if_pos (by omega), ih nextRoom limit]
        cases rest with
        | nil => simp
        | cons second rest => simp [escaped]
      rw [escapeLoop, same]
      constructor
      · intro done
        obtain ⟨next, grown, written_⟩ := Option.bind_eq_some_iff.mp done
        obtain ⟨free, limit, back, here⟩ := extended next grown
        obtain ⟨result_eq, last⟩ := (onward next free limit).mp written_
        refine ⟨result_eq, .inr ?_⟩
        rcases last with rfl | fits
        · simpa [escaped] using here
        · exact back fits
      · rintro ⟨result_eq, empty | fits⟩
        · cases empty
        · obtain ⟨next, grown, nextFits⟩ := extensible fits
          obtain ⟨free, limit, -⟩ := extended next grown
          rw [grown, Option.bind_some]
          exact (onward next free limit).mpr ⟨result_eq, .inr nextFits⟩

/-- What is written stays below the size, which is an `int`. -/
theorem escape_loop_length {size : Int} {written text result : List UInt8}
    (bounded : size < 2 ^ 31) (done : escapeLoop size written text = some result) :
    written.length + text.length + 1 < 2 ^ 31 := by
  induction text generalizing size written with
  | nil =>
      rw [escapeLoop] at done
      split at done
      · simp only [List.length_nil]
        omega
      · cases done
  | cons byte rest ih =>
      have width := escape_byte_length byte
      obtain ⟨next, grown, onward⟩ := Option.bind_eq_some_iff.mp done
      have limit : next < 2 ^ 31 := by
        unfold grow at grown
        grind
      split at onward
      · have rest_length := ih limit onward
        rw [List.length_append] at rest_length
        simp only [List.length_cons]
        omega
      · cases onward

theorem escape_loop_negative {size : Int} (negative : size + 16 ≤ 0) (written : List UInt8)
    (byte : UInt8) (rest : List UInt8) : escapeLoop size written (byte :: rest) = none := by
  have width := escape_byte_length byte
  rw [escapeLoop, Option.bind_eq_none_iff]
  intro next grown
  have still : next ≤ 0 := by
    unfold grow at grown
    grind
  apply if_neg
  rw [List.length_append]
  omega

theorem escape_string_some_iff (s result : List UInt8) :
    escapeString s = some result ↔
      result = escaped s ∧ Fits (s.length + 16) (escaped s.dropLast).length := by
  rcases Nat.lt_or_ge (s.length + 16) (2 ^ 31) with small | large
  · have size : Int.bmod (s.length + 16) (2 ^ 32) = s.length + 16 := by
      rw [Int.bmod_def]
      omega
    rw [escapeString, size, escape_loop_some_iff (by simp; omega) (by omega)]
    simp only [List.nil_append]
    apply and_congr_right
    intro _
    constructor
    · rintro (rfl | fits)
      · exact ⟨0, by simp [escaped], by simp⟩
      · exact fits
    · exact .inr
  · have noFit : ¬ Fits (s.length + 16) (escaped s.dropLast).length := by
      rintro ⟨blocks, -, bounded⟩
      omega
    have wrapped : Int.bmod (s.length + 16) (2 ^ 32) < 2 ^ 31 := by
      rw [Int.bmod_def]
      omega
    simp only [noFit, and_false, iff_false]
    intro done
    have short := escape_loop_length wrapped done
    cases s with
    | nil => simp at large
    | cons byte rest =>
        rw [escapeString, escape_loop_negative] at done
        · cases done
        · simp only [List.length_nil] at short
          rw [Int.bmod_def]
          omega

/-- The name comes back from both decoders, also with something behind a `#`, and the
text is one token of plain bytes. -/
def RoundTrips (s : List UInt8) : Prop :=
  ∃ text, escapeString s = some text ∧ unescapeFilename text = s ∧ unescapeUri text = s ∧
    (∀ byte ∈ text, isPlainByte byte = true) ∧
    (∀ rest, unescapeFilename (text ++ 35 :: rest) = s) ∧
    ∀ delimiter rest, isPlainByte delimiter = false →
      (text ++ delimiter :: rest).takeWhile (notByte delimiter) = text

theorem escaped_length (text : List UInt8) :
    (escaped text).length = text.length + 2 * text.countP isEscaped := by
  induction text with
  | nil => rfl
  | cons byte text ih =>
      rw [escaped, List.flatMap_cons, List.length_append, ← escaped, ih, List.countP_cons]
      unfold escapeByte
      split <;> simp_all <;> omega

/-- The round trip of file names works exactly as long as the buffer has a size. Each
escaped character in front of the last one takes two bytes more. -/
theorem escape_round_trips_iff (s : List UInt8) (nulFree : (0 : UInt8) ∉ s) :
    RoundTrips s ↔ ∃ blocks : Nat,
      s.dropLast.length + 2 * s.dropLast.countP isEscaped + 7 ≤ s.length + 16 + 16 * blocks ∧
        s.length + 16 + 16 * blocks < 2 ^ 31 := by
  have sizes : Fits (s.length + 16) (escaped s.dropLast).length ↔ ∃ blocks : Nat,
      s.dropLast.length + 2 * s.dropLast.countP isEscaped + 7 ≤ s.length + 16 + 16 * blocks ∧
        s.length + 16 + 16 * blocks < 2 ^ 31 := by
    rw [escaped_length]
    apply exists_congr
    intro blocks
    omega
  rw [← sizes]
  constructor
  · rintro ⟨text, encoded, -⟩
    exact ((escape_string_some_iff s text).mp encoded).2
  · intro fits
    have filename := unescape_filename_escaped s []
    have uri := unescape_uri_escaped s []
    refine ⟨escaped s, (escape_string_some_iff s _).mpr ⟨rfl, fits⟩, ?_, ?_,
      escaped_plain s nulFree, ?_, ?_⟩
    · simpa [unescapeFilename] using filename
    · simpa [unescapeUri] using uri
    · intro rest
      rw [unescape_filename_escaped, unescape_filename_hash, List.append_nil]
    · intro delimiter rest special
      exact plain_cut (escaped_plain s nulFree) special rest

theorem escape_round_trips_iff_percent_name :
    RoundTrips (ascii "a b#50%.mpg".toList) ↔ ∃ blocks : Nat,
      (ascii "a b#50%.mpg".toList).dropLast.length +
          2 * (ascii "a b#50%.mpg".toList).dropLast.countP isEscaped + 7 ≤
          (ascii "a b#50%.mpg".toList).length + 16 + 16 * blocks ∧
        (ascii "a b#50%.mpg".toList).length + 16 + 16 * blocks < 2 ^ 31 :=
  escape_round_trips_iff (ascii "a b#50%.mpg".toList) (by decide)

/-- A name of nearly 2 GiB: `strlen(s) + 16` is no `int`. -/
theorem long_name_not_escaped :
    ¬ ∀ s : List UInt8, (0 : UInt8) ∉ s → RoundTrips s := by
  intro claimed
  obtain ⟨text, encoded, -⟩ := claimed (List.replicate (2 ^ 31 - 16) 97)
    (fun nul => by simpa using List.eq_of_mem_replicate nul)
  obtain ⟨-, blocks, -, bounded⟩ := (escape_string_some_iff _ text).mp encoded
  rw [List.length_replicate] at bounded
  omega

end Xineliboutput.Playlist
