import Xineliboutput.Elementary.Scanners
import Xineliboutput.Elementary.SpsTotal
import Xineliboutput.Elementary.UnescapeBounds

/-!
# What the scanners read

On a buffer that ends where the memory ends. Comparisons with start codes have values where
enough bytes are left, so that each scanner is a search with a known body.
-/

namespace Xineliboutput.Elementary

open Xineliboutput.Foundation
open Xineliboutput.Ts (VideoSize sequenceSize)

set_option autoImplicit false

/-! ## Start codes -/

/-- Behind a difference fewer than four bytes are enough, where they are read one by one. -/
def Comparable (arch : Architecture) (code text : List UInt8) : Prop :=
  4 ≤ text.length ∨ arch = .other ∧ ¬text <+: code

instance (arch : Architecture) (code text : List UInt8) : Decidable (Comparable arch code text) :=
  inferInstanceAs (Decidable (_ ∨ _))

section Codes

variable {arch : Architecture} {buf code : List UInt8} {i : Nat}

theorem prefix_cons {byte read : UInt8} {rest : List UInt8} (same : read = byte) :
    (byte :: code).isPrefixOf (read :: rest) = code.isPrefixOf rest := by
  rw [same, List.isPrefixOf_cons_cons_self]

/-- The comparison reads outside where the memory ends in the middle of the code. -/
theorem bytes_at_eq (buf code : List UInt8) (i : Nat) :
    bytesAt buf code i =
      if code.length ≤ (buf.drop i).length ∨ ¬buf.drop i <+: code then
        some (code.isPrefixOf (buf.drop i))
      else none := by
  induction code generalizing i with
  | nil => rw [bytesAt, if_pos (.inl (Nat.zero_le _)), List.isPrefixOf_nil_left]
  | cons byte code ih =>
      rw [bytesAt]
      cases there : buf.drop i with
      | nil =>
          have outside : buf[i]? = none := by
            rw [read_first there]
            rfl
          rw [outside, if_neg]
          · rfl
          · simp
      | cons read rest =>
          have next : buf.drop (i + 1) = rest := drop_further [read] there
          rw [read_first there, List.getElem?_cons_zero, Option.bind_some, ih, next]
          by_cases same : read = byte
          · rw [if_pos same, prefix_cons same]
            simp only [List.length_cons, Nat.succ_le_succ_iff, List.cons_prefix_cons, same,
              true_and]
          · rw [if_neg same, if_pos]
            · simp [List.isPrefixOf, Ne.symm same]
            · right
              rw [List.cons_prefix_cons]
              exact fun both => same both.1

theorem bytes_at_within (within : i + code.length ≤ buf.length) :
    bytesAt buf code i = some (code.isPrefixOf (buf.drop i)) := by
  rw [bytes_at_eq, if_pos]
  rw [List.length_drop]
  omega

theorem is_start_code_eq (four : code.length = 4) :
    isStartCode arch code buf i =
      if Comparable arch code (buf.drop i) then some (code.isPrefixOf (buf.drop i)) else none := by
  cases arch with
  | x86 =>
      have same : Comparable .x86 code (buf.drop i) ↔ i + 4 ≤ buf.length := by
        simp only [Comparable, List.length_drop, reduceCtorEq, false_and, or_false]
        omega
      simp only [isStartCode, same]
  | other => simp only [isStartCode, bytes_at_eq, Comparable, four, true_and]

theorem is_start_code_within (four : code.length = 4) (within : i + 4 ≤ buf.length) :
    isStartCode arch code buf i = some (code.isPrefixOf (buf.drop i)) := by
  rw [is_start_code_eq four, if_pos]
  left
  rw [List.length_drop]
  omega

theorem code_elsewhere {text : List UInt8} (other : ¬code <+: text) : code.isPrefixOf text = false := by
  rw [← Bool.not_eq_true, List.isPrefixOf_iff_prefix]
  exact other

theorem is_start_code_found (four : code.length = 4) (within : i + 4 ≤ buf.length)
    (starts : code <+: buf.drop i) : isStartCode arch code buf i = some true := by
  rw [is_start_code_within four within, List.isPrefixOf_iff_prefix.mpr starts]

theorem is_start_code_other (four : code.length = 4) (within : i + 4 ≤ buf.length)
    (other : ¬code <+: buf.drop i) : isStartCode arch code buf i = some false := by
  rw [is_start_code_within four within, code_elsewhere other]

theorem is_start_code_nil (four : code.length = 4) :
    isStartCode arch code ([] : List UInt8) 0 = none := by
  rw [is_start_code_eq four, if_neg]
  simp [Comparable]

theorem is_start_code_isSome (four : code.length = 4) :
    (isStartCode arch code buf i).isSome = true ↔ Comparable arch code (buf.drop i) := by
  rw [is_start_code_eq four]
  split
  · next comparable => simp [comparable]
  · next not => simp [not]

end Codes

/-! ## Picture types -/

section Types

variable {arch : Architecture} {buf : List UInt8} {i : Nat}

theorem read_inside (inside : i < buf.length) : ∃ byte, buf[i]? = some byte :=
  ⟨buf[i], List.getElem?_eq_getElem inside⟩

theorem mpeg2_type_at_isSome (inside : i + 5 < buf.length) :
    (mpeg2TypeAt arch buf i).isSome = true := by
  obtain ⟨byte, read⟩ := read_inside inside
  rw [mpeg2TypeAt, is_start_code_within rfl (by omega), Option.bind_eq_bind, Option.bind_some,
    read]
  split <;> rfl

theorem mpeg2_get_picture_type_isSome (arch : Architecture) (buf : List UInt8) :
    (mpeg2GetPictureType arch buf buf.length).isSome = true := by
  rw [mpeg2GetPictureType]
  split
  · rw [Option.isSome_map]
    apply search_isSome
    intro i _ below
    exact mpeg2_type_at_isSome (by omega)
  · rfl

def Delimits (buf : List UInt8) (i : Nat) (type : Nat) : Prop :=
  nalAud <+: buf.drop i ∧ ∃ byte, buf[i + 4]? = some byte ∧
    delimiterType (byte.toNat >>> 5) = some type

/-- The first delimiter, if it does not lie too close to the end, says that an I-frame follows. -/
def IntraDelimited (buf : List UInt8) : Prop :=
  ∃ i, i + 5 < buf.length ∧ Delimits buf i iFrame ∧ ∀ j < i, ¬nalAud <+: buf.drop j

/-- The `switch` knows every number of three bits. -/
theorem delimiter_type_some {type : Nat} (small : type < 8) :
    ∃ said, delimiterType type = some said := by
  unfold delimiterType
  split
  · exact ⟨_, rfl⟩
  split
  · exact ⟨_, rfl⟩
  split
  · exact ⟨_, rfl⟩
  · omega

theorem h264_type_at_other (inside : i + 5 < buf.length) (other : ¬nalAud <+: buf.drop i) :
    h264TypeAt arch buf i = some none := by
  rw [h264TypeAt, is_start_code_other rfl (by omega) other]
  rfl

theorem h264_type_at_delimiter (arch : Architecture) (inside : i + 5 < buf.length)
    (starts : nalAud <+: buf.drop i) :
    ∃ type, h264TypeAt arch buf i = some (some type) ∧ Delimits buf i type := by
  obtain ⟨byte, read⟩ := read_inside (Nat.lt_of_succ_lt inside)
  have small : byte.toNat >>> 5 < 8 := by
    have octet := byte.toNat_lt
    rw [Nat.shiftRight_eq_div_pow]
    omega
  obtain ⟨type, means⟩ := delimiter_type_some small
  refine ⟨type, ?_, starts, byte, read, means⟩
  rw [h264TypeAt, is_start_code_found rfl (by omega) starts, Option.bind_eq_bind,
    Option.bind_some, if_pos rfl, read, Option.bind_eq_bind, Option.bind_some, means]

theorem h264_type_at_isSome (inside : i + 5 < buf.length) :
    (h264TypeAt arch buf i).isSome = true := by
  by_cases starts : nalAud <+: buf.drop i
  · obtain ⟨type, found, _⟩ := h264_type_at_delimiter arch inside starts
    rw [found]
    rfl
  · rw [h264_type_at_other inside starts]
    rfl

theorem h264_get_picture_type_isSome (arch : Architecture) {len : Nat}
    (within : len ≤ buf.length) : (h264GetPictureType arch buf len).isSome = true := by
  rw [h264GetPictureType]
  split
  · rw [Option.isSome_map]
    apply search_isSome
    intro i _ below
    exact h264_type_at_isSome (by omega)
  · rfl

theorem h264_type_at_none_iff (inside : i + 5 < buf.length) :
    h264TypeAt arch buf i = some none ↔ ¬nalAud <+: buf.drop i := by
  constructor
  · intro nothing starts
    obtain ⟨type, found, _⟩ := h264_type_at_delimiter arch inside starts
    rw [nothing] at found
    cases found
  · exact h264_type_at_other inside

theorem h264_type_at_some_iff (inside : i + 5 < buf.length) (type : Nat) :
    h264TypeAt arch buf i = some (some type) ↔ Delimits buf i type := by
  constructor
  · intro found
    by_cases starts : nalAud <+: buf.drop i
    · obtain ⟨other, found', delimits⟩ := h264_type_at_delimiter arch inside starts
      obtain rfl : other = type := by
        rw [found] at found'
        exact (Option.some.inj (Option.some.inj found')).symm
      exact delimits
    · rw [h264_type_at_other inside starts] at found
      cases found
  · intro delimits
    obtain ⟨other, found, _, byte, read, means⟩ :=
      h264_type_at_delimiter arch inside delimits.1
    obtain ⟨_, byte', read', means'⟩ := delimits
    obtain rfl := Option.some.inj (read.symm.trans read')
    rw [found, Option.some.inj (means.symm.trans means')]

theorem h264_search_intra_iff (arch : Architecture) (long : 5 < buf.length) :
    searchRange (h264TypeAt arch buf) (buf.length - 5) 0 = some (some iFrame) ↔
      IntraDelimited buf := by
  rw [search_stops_iff (by simp)]
  constructor
  · rintro ⟨i, _, below, found, before⟩
    have inside : i + 5 < buf.length := by omega
    refine ⟨i, inside, (h264_type_at_some_iff inside iFrame).mp found, ?_⟩
    intro j lower
    exact (h264_type_at_none_iff (by omega)).mp (before j (Nat.zero_le j) lower)
  · rintro ⟨i, inside, delimits, before⟩
    refine ⟨i, Nat.zero_le i, by omega, (h264_type_at_some_iff inside iFrame).mpr delimits, ?_⟩
    intro j _ lower
    exact h264_type_at_other (by omega) (before j lower)

theorem getD_iff {found : Option Nat} : found.getD noPicture = iFrame ↔ found = some iFrame := by
  cases found with
  | none => decide
  | some type => simp

theorem h264_get_picture_type_iff (arch : Architecture) (buf : List UInt8) :
    h264GetPictureType arch buf buf.length = some iFrame ↔ IntraDelimited buf := by
  rw [h264GetPictureType]
  split
  · next long =>
      rw [← h264_search_intra_iff arch long]
      cases searchRange (h264TypeAt arch buf) (buf.length - 5) 0 with
      | none => simp
      | some found => rw [Option.map_some, Option.some_inj, getD_iff, Option.some_inj]
  · next short =>
      constructor
      · intro same
        cases same
      · rintro ⟨i, inside, _⟩
        omega

theorem h264_get_picture_type_nil {len : Nat} (long : 5 < len) :
    h264GetPictureType arch [] len = none := by
  obtain ⟨rounds, counted⟩ : ∃ rounds, len - 5 = rounds + 1 := ⟨len - 6, by omega⟩
  rw [h264GetPictureType, if_pos long, counted, search_ends_here]
  · rw [h264TypeAt, is_start_code_nil rfl]
    rfl
  · rw [h264TypeAt, is_start_code_nil rfl]
    intro same
    cases same

end Types

/-! ## Video sizes -/

section Sizes

variable {arch : Architecture} {buf : List UInt8} {i : Nat}

theorem mpeg2_size_at_other (inside : i + 6 < buf.length)
    (other : ¬scSequence <+: buf.drop i) : mpeg2SizeAt arch buf i = some none := by
  rw [mpeg2SizeAt, is_start_code_other rfl (by omega) other]
  rfl

theorem mpeg2_size_at_sequence (arch : Architecture) (inside : i + 6 < buf.length)
    (starts : scSequence <+: buf.drop i) :
    ∃ byte4 byte5 byte6, mpeg2SizeAt arch buf i =
      buf[i + 7]?.map fun byte7 => some (sequenceSize byte4 byte5 byte6 byte7) := by
  obtain ⟨byte4, read4⟩ := read_inside (show i + 4 < buf.length by omega)
  obtain ⟨byte5, read5⟩ := read_inside (show i + 5 < buf.length by omega)
  obtain ⟨byte6, read6⟩ := read_inside inside
  refine ⟨byte4, byte5, byte6, ?_⟩
  rw [mpeg2SizeAt, is_start_code_found rfl (by omega) starts, Option.bind_eq_bind,
    Option.bind_some, if_pos rfl, read4, read5, read6]
  cases buf[i + 7]? <;> rfl

theorem mpeg2_size_at_none_iff (inside : i + 6 < buf.length) :
    mpeg2SizeAt arch buf i = some none ↔ ¬scSequence <+: buf.drop i := by
  constructor
  · intro nothing starts
    obtain ⟨byte4, byte5, byte6, found⟩ := mpeg2_size_at_sequence arch inside starts
    rw [nothing] at found
    cases read : buf[i + 7]? with
    | none =>
        rw [read] at found
        cases found
    | some byte7 =>
        rw [read] at found
        cases found
  · exact mpeg2_size_at_other inside

theorem mpeg2_size_at_isSome_iff (inside : i + 6 < buf.length) :
    (mpeg2SizeAt arch buf i).isSome = true ↔
      (scSequence <+: buf.drop i → i + 7 < buf.length) := by
  by_cases starts : scSequence <+: buf.drop i
  · obtain ⟨byte4, byte5, byte6, found⟩ := mpeg2_size_at_sequence arch inside starts
    rw [found, Option.isSome_map]
    simp [starts]
  · rw [mpeg2_size_at_other inside starts]
    simp [starts]

def UnitAt (isType : UInt8 → Bool) (buf : List UInt8) (i : Nat) : Prop :=
  [0, 0, 1] <+: buf.drop i ∧ ∃ header, buf[i + 3]? = some header ∧ isType header = true

theorem unit_at_within (isType : UInt8 → Bool) (inside : i + 4 ≤ buf.length) :
    ∃ found, unitAt buf isType i = some found ∧ (found = true ↔ UnitAt isType buf i) := by
  obtain ⟨header, read⟩ := read_inside (Nat.lt_of_succ_le inside)
  rw [unitAt, bytes_at_within (Nat.le_of_succ_le inside), Option.bind_eq_bind, Option.bind_some]
  by_cases starts : [0, 0, 1] <+: buf.drop i
  · rw [List.isPrefixOf_iff_prefix.mpr starts, if_pos rfl, read]
    refine ⟨isType header, rfl, ?_⟩
    constructor
    · intro typed
      exact ⟨starts, header, read, typed⟩
    · rintro ⟨_, other, read', typed⟩
      rw [Option.some.inj (read.symm.trans read')]
      exact typed
  · rw [code_elsewhere starts, if_neg Bool.false_ne_true]
    refine ⟨false, rfl, ?_⟩
    constructor
    · intro same
      cases same
    · intro unit
      exact absurd unit.1 starts

theorem h264_size_of_isSome (nalData : List UInt8) : (h264SizeOf nalData).isSome = true := by
  rw [h264SizeOf]
  split
  · obtain ⟨set, parsed⟩ := Option.isSome_iff_exists.mp
      (h264_parse_sps_isSome (nalData.take (nalLen nalData).toNat) ⟨0, 0, ⟨0, 0⟩⟩)
    rw [parsed]
    rfl
  · rfl

theorem h265_size_of_isSome (nalData : List UInt8) : (h265SizeOf nalData).isSome = true := by
  rw [h265SizeOf]
  split
  · obtain ⟨set, parsed⟩ := Option.isSome_iff_exists.mp
      (h265_parse_sps_isSome (nalData.take (nalLen nalData).toNat))
    rw [parsed]
    rfl
  · rfl

def isH264Sps (header : UInt8) : Bool := header &&& 0x1f == 0x07

def isH265Sps (header : UInt8) : Bool := header >>> 1 == 0x21

theorem h264_size_at_tested {found : Bool} (tested : unitAt buf isH264Sps i = some found)
    (len : Nat) :
    h264SizeAt buf len i =
      if found then (h264NalUnescape (buf.drop (i + 4)) (len - i - 4) len).bind h264SizeOf
      else some none := by
  rw [h264SizeAt]
  exact congrArg (Option.bind · _) tested

theorem h264_size_at_eq (inside : i + 4 < buf.length) :
    (¬UnitAt isH264Sps buf i → h264SizeAt buf buf.length i = some none) ∧
      (UnitAt isH264Sps buf i →
        h264SizeAt buf buf.length i = (withoutEscapes (buf.drop (i + 4))).bind h264SizeOf) := by
  obtain ⟨found, tested, typed⟩ := unit_at_within isH264Sps (Nat.le_of_lt inside)
  have ran := h264_size_at_tested tested buf.length
  constructor
  · intro other
    rw [ran, if_neg fun same => other (typed.mp same)]
  · intro unit
    have length : buf.length - i - 4 = (buf.drop (i + 4)).length := by
      rw [List.length_drop, Nat.sub_sub]
    have fits : (buf.drop (i + 4)).length ≤ buf.length := by
      rw [List.length_drop]
      exact Nat.sub_le _ _
    rw [ran, if_pos (typed.mpr unit), length, h264_nal_unescape_eq fits]

theorem h265_size_at_eq (inside : i + 5 < buf.length) :
    (¬UnitAt isH265Sps buf i → h265SizeAt buf buf.length i = some none) ∧
      (UnitAt isH265Sps buf i →
        h265SizeAt buf buf.length i =
          if i + 8 ≤ buf.length then h265SizeOf (withoutEnd (buf.drop (i + 5))) else none) := by
  obtain ⟨found, tested, typed⟩ := unit_at_within isH265Sps (show i + 4 ≤ buf.length by omega)
  have ran : h265SizeAt buf buf.length i =
      if found then (h265NalUnescape (buf.drop (i + 5)) (buf.length - i - 5) buf.length).bind
        h265SizeOf else some none := by
    rw [h265SizeAt]
    exact congrArg (Option.bind · _) tested
  constructor
  · intro other
    rw [ran, if_neg fun same => other (typed.mp same)]
  · intro unit
    have length : buf.length - i - 5 = (buf.drop (i + 5)).length := by
      rw [List.length_drop, Nat.sub_sub]
    have rest : (buf.drop (i + 5)).length = buf.length - (i + 5) := List.length_drop
    rw [ran, if_pos (typed.mpr unit), length]
    by_cases many : i + 8 ≤ buf.length
    · rw [if_pos many, h265_nal_unescape_eq (by omega) (by omega), Option.bind_some]
    · rw [if_neg many, h265_short_fails (by omega)]
      rfl

end Sizes
end Xineliboutput.Elementary
