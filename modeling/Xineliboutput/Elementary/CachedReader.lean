import Xineliboutput.Elementary.ReaderAgreement

/-!
# The two readers

Both read the bits of the buffer with ones behind them. The reader with the cache puts the
parts of a wide number together as if the second one had 16 bits.
-/

namespace Xineliboutput.Elementary

open Xineliboutput.Foundation

set_option autoImplicit false

/-! ## NOCACHE -/

namespace UncachedBr

structure At (data : List UInt8) (br : UncachedBr) (position : Nat) : Prop where
  bytes : br.data = data
  bits : br.count = 8 * data.length
  inside : position ≤ br.count → br.index = position
  behind : br.count < position → br.count ≤ br.index

variable {data : List UInt8} {br : UncachedBr} {position : Nat}

theorem init_at (data : List UInt8) : At data (brInit data) 0 :=
  ⟨rfl, rfl, fun _ => rfl, fun behind => absurd behind (Nat.not_lt_zero _)⟩

theorem get_bit_run (there : At data br position) :
    ∃ next, br.brGetBit = some ((Bits.ofBytes data position).toNat, next) ∧
      At data next (position + 1) := by
  have inside := there.inside
  have behind := there.behind
  have bits := there.bits
  obtain rfl := there.bytes
  rw [brGetBit]
  by_cases done : br.index ≥ br.count
  · rw [if_pos done, Bits.ofBytes_behind (by omega)]
    exact ⟨br, rfl, rfl, bits, fun _ => by omega, fun _ => done⟩
  · rw [if_neg done]
    have here : br.index = position := inside (by omega)
    have byte : br.index >>> 3 = position / 8 := by
      rw [here, Nat.shiftRight_eq_div_pow]
    have within : position / 8 < br.data.length := by omega
    have low : br.index &&& 7 = position % 8 := by
      rw [here]
      exact Nat.and_two_pow_sub_one_eq_mod position 3
    rw [byte, low, List.getElem?_eq_getElem within, Bits.ofBytes_inside within]
    refine ⟨{ br with index := br.index + 1 }, ?_, rfl, bits, ?_, ?_⟩
    · rw [Option.map_some, Nat.and_one_is_mod, Nat.shiftRight_eq_div_pow, Nat.toNat_testBit]
    · intro _
      dsimp only
      omega
    · intro _
      dsimp only at *
      omega

theorem collect_bits_run (n high : Nat) (there : At data br position) :
    ∃ next, collectBits n (high * 2 ^ n) br =
        some (high * 2 ^ n + ((Bits.ofBytes data).drop position).value n, next) ∧
      At data next (position + n) := by
  induction n generalizing high br position with
  | zero => exact ⟨br, rfl, there⟩
  | succ n ih =>
      obtain ⟨next, ran, after⟩ := get_bit_run there
      have bit := (Bits.ofBytes data position).toNat_lt
      have room : (Bits.ofBytes data position).toNat <<< n < 2 ^ (n + 1) := by
        rw [Nat.shiftLeft_eq, Nat.pow_succ, Nat.mul_comm (2 ^ n)]
        exact Nat.mul_lt_mul_of_pos_right bit (Nat.two_pow_pos n)
      have joined : high * 2 ^ (n + 1) ||| ((Bits.ofBytes data position).toNat <<< n) =
          (high * 2 + (Bits.ofBytes data position).toNat) * 2 ^ n := by
        rw [← Nat.shiftLeft_eq high, ← Nat.shiftLeft_add_eq_or_of_lt room, Nat.shiftLeft_eq,
          Nat.shiftLeft_eq, Nat.pow_succ]
        ring
      obtain ⟨last, others, at'⟩ := ih (high * 2 + (Bits.ofBytes data position).toNat) after
      refine ⟨last, ?_, ?_⟩
      · rw [collectBits, ran, Option.bind_eq_bind, Option.bind_some]
        dsimp only
        rw [joined, others, Bits.value_first, Bits.drop_drop, Nat.pow_succ, Nat.add_mul,
          Nat.mul_assoc high, Nat.mul_comm 2, Nat.add_assoc]
        rfl
      · rw [Nat.add_comm n, ← Nat.add_assoc]
        exact at'

theorem skip_bits_run (n : Nat) (there : At data br position) :
    ∃ next, br.brSkipBits n = some next ∧ At data next (position + n) := by
  have inside := there.inside
  have behind := there.behind
  refine ⟨{ br with index := br.index + n }, rfl, there.bytes, there.bits, ?_, ?_⟩
  · intro _
    dsimp only at *
    omega
  · intro _
    dsimp only at *
    omega

theorem reader_follows (data : List UInt8) :
    Follows reader (Bits.ofBytes data) (At data) (fun _ _ => True) where
  getBit _ _ there := get_bit_run there
  getBits br position n few there := by
    obtain ⟨next, ran, after⟩ := collect_bits_run n 0 there
    rw [Nat.zero_mul, Nat.zero_add] at ran
    refine ⟨_, next, ran, after, ?_, fun _ => trivial, fun _ => rfl⟩
    exact Nat.lt_of_lt_of_le (Bits.value_lt _ n) (Nat.pow_le_pow_right (by decide) few)
  skipBit _ _ there := skip_bits_run 1 there
  skipBits _ _ n there := skip_bits_run n there
  narrow _ _ wrong := absurd trivial wrong

end UncachedBr
/-! ## With a cache -/

/-- A wide `br_get_bits` whose parts do not move the first one out of place. -/
def WideFits (bits : Bits) (position n : Nat) : Prop :=
  24 < n → n < 32 → (bits.drop position).value 16 = 0

namespace CachedBr

/-- The cache holds the bits before those of the bytes to come. -/
structure At (buffer : List UInt8) (br : CachedBr) (position : Nat) : Prop where
  bytes : br.buffer = buffer
  small : br.cacheBits < 32
  place : position + br.cacheBits = 8 * (br.data + br.madeUp)
  done : br.madeUp ≠ 0 → buffer.length ≤ br.data
  cached : br.cache % 2 ^ br.cacheBits =
    ((Bits.ofBytes buffer).drop position).value br.cacheBits

variable {buffer : List UInt8} {br : CachedBr} {position : Nat}

theorem init_at (buffer : List UInt8) : At buffer (brInit buffer) 0 :=
  ⟨rfl, Nat.zero_lt_succ 31, rfl, fun some => absurd rfl some, rfl⟩

theorem At.position_eq (there : At buffer br position) : br.position = position := by
  rw [CachedBr.position, ← there.place, Nat.add_sub_cancel]

theorem get_byte_run (br : CachedBr) (bytes : br.buffer = buffer)
    (done : br.madeUp ≠ 0 → buffer.length ≤ br.data) :
    ∃ next, br.brGetByte =
        some (((Bits.ofBytes buffer).drop (8 * (br.data + br.madeUp))).value 8, next) ∧
      next.buffer = buffer ∧ next.cache = br.cache ∧ next.cacheBits = br.cacheBits ∧
      next.data + next.madeUp = br.data + br.madeUp + 1 ∧
      (next.madeUp ≠ 0 → buffer.length ≤ next.data) := by
  subst bytes
  rw [brGetByte, dataEnd]
  by_cases inside : br.data < br.buffer.length
  · have real : br.madeUp = 0 := by
      by_contra made
      have behind := done made
      omega
    have place : br.data + br.madeUp = br.data := by omega
    rw [if_pos inside, List.getElem?_eq_getElem inside, place, Bits.value_octet inside]
    refine ⟨{ br with data := br.data + 1 }, rfl, rfl, rfl, rfl, ?_, ?_⟩
    · dsimp only
      omega
    · intro made
      exact absurd real made
  · rw [if_neg inside, Bits.value_octet_behind (by omega)]
    exact ⟨{ br with madeUp := br.madeUp + 1 }, rfl, rfl, rfl, rfl, rfl,
      fun _ => Nat.not_lt.mp inside⟩

theorem cache_grows {cache cacheBits byte : Nat} (room : cacheBits + 8 ≤ 32) (small : byte < 256) :
    ((cache <<< 8 ||| byte) % 2 ^ 32) % 2 ^ (cacheBits + 8) =
      cache % 2 ^ cacheBits * 2 ^ 8 + byte := by
  rw [Nat.mod_mod_of_dvd _ (Nat.pow_dvd_pow 2 room), ← Nat.shiftLeft_add_eq_or_of_lt small,
    Nat.shiftLeft_eq, Nat.pow_add, Nat.mul_comm cache, Nat.mul_comm (2 ^ cacheBits),
    Nat.mod_mul, Nat.mul_add_mod, Nat.mod_eq_of_lt small, Nat.mul_add_div (by decide),
    Nat.div_eq_of_lt small, Nat.add_zero]
  ring

theorem fill_cache_run (rounds : Nat) (enough : 24 ≤ br.cacheBits + 8 * rounds)
    (there : At buffer br position) :
    ∃ next, fillCache rounds br = some next ∧ At buffer next position ∧ 24 ≤ next.cacheBits := by
  induction rounds generalizing br with
  | zero =>
      rw [fillCache, if_neg (by omega)]
      exact ⟨br, rfl, there, by omega⟩
  | succ rounds ih =>
      rw [fillCache]
      by_cases few : br.cacheBits < 24
      · obtain ⟨next, ran, bytes, cache, cacheBits, place, done⟩ :=
          get_byte_run br there.bytes there.done
        rw [if_pos few, ran, Option.bind_eq_bind, Option.bind_some]
        dsimp only
        rw [cache, cacheBits]
        have byte := Bits.value_lt ((Bits.ofBytes buffer).drop (8 * (br.data + br.madeUp))) 8
        apply ih
        · dsimp only
          omega
        · refine ⟨bytes, ?_, ?_, done, ?_⟩
          · dsimp only
            omega
          · dsimp only
            rw [← Nat.add_assoc, there.place, place]
            omega
          · dsimp only
            rw [cache_grows (by omega) byte, there.cached, ← there.place, Bits.value_append,
              Bits.drop_drop]
      · rw [if_neg few]
        exact ⟨br, rfl, there, by omega⟩

/-- The bits above the last `low` ones, as the shifts and masks take them out. -/
theorem bits_above (cache count low : Nat) :
    (cache >>> low) &&& ((1 <<< count) - 1) = cache % 2 ^ (count + low) / 2 ^ low := by
  rw [Nat.one_shiftLeft, Nat.and_two_pow_sub_one_eq_mod, Nat.shiftRight_eq_div_pow, Nat.pow_add,
    Nat.mod_mul_left_div_self]

theorem At.take {n : Nat} (there : At buffer br position) (within : n ≤ br.cacheBits) :
    At buffer { br with cacheBits := br.cacheBits - n } (position + n) := by
  have small := there.small
  have place := there.place
  refine ⟨there.bytes, ?_, ?_, there.done, ?_⟩
  · dsimp only
    omega
  · dsimp only
    omega
  · dsimp only
    have parts : n + (br.cacheBits - n) = br.cacheBits := by omega
    rw [← Bits.drop_drop, ← Bits.value_mod, parts, ← there.cached,
      Nat.mod_mod_of_dvd _ (Nat.pow_dvd_pow 2 (Nat.sub_le _ n))]

theorem get_narrow_run {n : Nat} (narrow : n ≤ 24) (there : At buffer br position) :
    ∃ next, br.brGetNarrow n = some (((Bits.ofBytes buffer).drop position).value n, next) ∧
      At buffer next (position + n) := by
  obtain ⟨full, ran, at', enough⟩ := fill_cache_run 3 (by omega) there
  refine ⟨{ full with cacheBits := full.cacheBits - n }, ?_, at'.take (by omega)⟩
  have parts : n + (full.cacheBits - n) = full.cacheBits := by omega
  rw [brGetNarrow, ran, Option.bind_eq_bind, Option.bind_some]
  dsimp only
  rw [bits_above, parts, at'.cached, ← Bits.value_div _ n (full.cacheBits - n), parts]

/-- The parts of a wide number, as they are put together and as they should be. -/
theorem wide_parts {high low n : Nat} (wide : 24 < n) (few : n ≤ 32) (first : high < 2 ^ 16)
    (second : low < 2 ^ (n - 16)) :
    (high <<< 16) % 2 ^ 32 ||| low = high * 2 ^ 16 + low ∧
      (high * 2 ^ 16 + low = high * 2 ^ (n - 16) + low ↔ n < 32 → high = 0) := by
  have short : 2 ^ (n - 16) ≤ 2 ^ 16 := Nat.pow_le_pow_right (by decide) (by omega)
  constructor
  · rw [Nat.shiftLeft_eq, Nat.mod_eq_of_lt (by omega), ← Nat.shiftLeft_eq,
      ← Nat.shiftLeft_add_eq_or_of_lt (Nat.lt_of_lt_of_le second short)]
  · rw [Nat.add_right_cancel_iff]
    constructor
    · intro same less
      have shorter : 2 ^ (n - 16) < 2 ^ 16 := Nat.pow_lt_pow_right (by decide) (by omega)
      by_contra some
      have apart := Nat.mul_lt_mul_of_pos_left shorter (Nat.pos_of_ne_zero some)
      omega
    · intro fits
      by_cases less : n < 32
      · rw [fits less, Nat.zero_mul, Nat.zero_mul]
      · obtain rfl : n = 32 := by omega
        rfl

theorem get_bits_run {n : Nat} (few : n ≤ 32) (there : At buffer br position) :
    ∃ number next, br.brGetBits n = some (number, next) ∧ At buffer next (position + n) ∧
      number < 2 ^ 32 ∧ (number = ((Bits.ofBytes buffer).drop position).value n ↔
        WideFits (Bits.ofBytes buffer) position n) := by
  rw [brGetBits]
  by_cases wide : n > 24
  · obtain ⟨middle, ran, after⟩ := get_narrow_run (n := 16) (by decide) there
    obtain ⟨last, others, at'⟩ := get_narrow_run (n := n - 16) (by omega) after
    have first := Bits.value_lt ((Bits.ofBytes buffer).drop position) 16
    have second := Bits.value_lt ((Bits.ofBytes buffer).drop (position + 16)) (n - 16)
    obtain ⟨joined, fits⟩ := wide_parts wide few first second
    have parts : n = 16 + (n - 16) := by omega
    have whole := Bits.value_append ((Bits.ofBytes buffer).drop position) 16 (n - 16)
    rw [← parts, Bits.drop_drop] at whole
    rw [if_pos wide, ran, Option.bind_eq_bind, Option.bind_some]
    dsimp only
    rw [others, Option.bind_some]
    refine ⟨_, last, rfl, ?_, ?_, ?_⟩
    · rw [Nat.add_assoc, ← parts] at at'
      exact at'
    · have short : 2 ^ (n - 16) ≤ 2 ^ 16 := Nat.pow_le_pow_right (by decide) (by omega)
      dsimp only
      rw [joined]
      omega
    · dsimp only
      rw [joined, whole, fits, WideFits]
      exact ⟨fun zero _ => zero, fun zero => zero wide⟩
  · rw [if_neg wide]
    obtain ⟨next, ran, after⟩ := get_narrow_run (Nat.not_lt.mp wide) there
    refine ⟨_, next, ran, after, ?_, fun _ above => absurd above wide, fun _ => rfl⟩
    exact Nat.lt_of_lt_of_le (Bits.value_lt _ n) (Nat.pow_le_pow_right (by decide) few)

theorem take_bit_run (there : At buffer br position) :
    ∃ next, br.brTakeBit = some next ∧ At buffer next (position + 1) ∧
      (next.cache >>> next.cacheBits) &&& 1 = (Bits.ofBytes buffer position).toNat := by
  have first : ((Bits.ofBytes buffer).drop position).value 1 =
      (Bits.ofBytes buffer position).toNat := by
    simp [Bits.value, Bits.drop]
  rw [brTakeBit]
  by_cases empty : br.cacheBits = 0
  · obtain ⟨next, ran, bytes, cache, cacheBits, place, done⟩ :=
      get_byte_run br there.bytes there.done
    have start := there.place
    rw [empty, Nat.add_zero] at start
    rw [← start] at ran
    have above := bits_above (((Bits.ofBytes buffer).drop position).value 8) 1 7
    rw [if_pos empty, ran, Option.bind_eq_bind, Option.bind_some]
    refine ⟨_, rfl, ⟨bytes, show 7 < 32 by decide, ?_, done, ?_⟩, ?_⟩
    · dsimp only
      omega
    · exact Bits.drop_drop _ position 1 ▸ Bits.value_mod ((Bits.ofBytes buffer).drop position) 1 7
    · dsimp only
      rw [← first, ← Bits.value_div _ 1 7]
      rw [Nat.mod_eq_of_lt (Bits.value_lt _ 8)] at above
      exact above
  · have taken := there.take (n := 1) (Nat.pos_of_ne_zero empty)
    rw [if_neg empty]
    refine ⟨_, rfl, taken, ?_⟩
    have parts : 1 + (br.cacheBits - 1) = br.cacheBits := by omega
    have above := bits_above br.cache 1 (br.cacheBits - 1)
    have counted := Bits.value_div ((Bits.ofBytes buffer).drop position) 1 (br.cacheBits - 1)
    rw [parts, first] at counted
    rw [parts, there.cached, counted] at above
    dsimp only
    rw [← above]
    rfl

theorem skip_bits_run (n : Nat) (there : At buffer br position) :
    ∃ next, br.brSkipBits n = some next ∧ At buffer next (position + n) := by
  have place := there.place
  rw [brSkipBits]
  by_cases within : br.cacheBits ≥ n
  · rw [if_pos within]
    exact ⟨_, rfl, there.take within⟩
  · rw [if_neg within]
    have bytes : (n - br.cacheBits) >>> 3 = (n - br.cacheBits) / 8 :=
      Nat.shiftRight_eq_div_pow _ 3
    have bits : (n - br.cacheBits) &&& 7 = (n - br.cacheBits) % 8 :=
      Nat.and_two_pow_sub_one_eq_mod _ 3
    dsimp only
    rw [bytes, bits]
    have done : br.madeUp ≠ 0 → buffer.length ≤ br.data + (n - br.cacheBits) / 8 := by
      intro made
      have behind := there.done made
      omega
    by_cases whole : (n - br.cacheBits) % 8 = 0
    · rw [if_neg (not_not_intro whole)]
      refine ⟨_, rfl, there.bytes, Nat.zero_lt_succ 31, ?_, done, ?_⟩
      · dsimp only
        omega
      · dsimp only
        rw [Nat.pow_zero, Nat.mod_one]
        rfl
    · obtain ⟨next, ran, same, _, _, moved, after⟩ :=
        get_byte_run { br with data := br.data + (n - br.cacheBits) / 8 } there.bytes done
      dsimp only at ran moved
      rw [if_pos whole, ran, Option.bind_eq_bind, Option.bind_some]
      refine ⟨_, rfl, same, ?_, ?_, after, ?_⟩
      · dsimp only
        omega
      · dsimp only
        omega
      · have start : 8 * (br.data + (n - br.cacheBits) / 8 + br.madeUp) +
            (n - br.cacheBits) % 8 = position + n := by
          omega
        have parts : (n - br.cacheBits) % 8 + (8 - (n - br.cacheBits) % 8) = 8 := by omega
        have rest := Bits.value_mod
          ((Bits.ofBytes buffer).drop (8 * (br.data + (n - br.cacheBits) / 8 + br.madeUp)))
          ((n - br.cacheBits) % 8) (8 - (n - br.cacheBits) % 8)
        rw [parts, Bits.drop_drop, start] at rest
        exact rest

theorem reader_follows (buffer : List UInt8) :
    Follows reader (Bits.ofBytes buffer) (At buffer) (WideFits (Bits.ofBytes buffer)) where
  getBit br position there := by
    obtain ⟨next, ran, after, bit⟩ := take_bit_run there
    refine ⟨next, ?_, after⟩
    dsimp only [reader]
    rw [brGetBit, ran, Option.bind_eq_bind, Option.bind_some, bit]
  getBits _ _ _ few there := get_bits_run few there
  skipBit br position there := by
    obtain ⟨next, ran, after, _⟩ := take_bit_run there
    exact ⟨next, ran, after⟩
  skipBits _ _ n there := skip_bits_run n there
  narrow position n wrong := by
    have wide : 24 < n := by
      by_contra narrow
      exact wrong fun above => absurd above narrow
    have short : n < 32 := by
      by_contra full
      exact wrong fun _ less => absurd less full
    exact ⟨by omega, short⟩

end CachedBr
/-! ## Agreement -/

/-- Both readers go through the calls and return the same values, those of the buffer with ones
behind it. Calls that stay within the buffer end at the same position. -/
def ReadersAgree (buffer : List UInt8) (calls : List ReadCall) : Prop :=
  ∃ values uncached cached,
    UncachedBr.reader.performAll calls (.brInit buffer) = some (values, uncached) ∧
      CachedBr.reader.performAll calls (.brInit buffer) = some (values, cached) ∧
      values = valuesFrom (Bits.ofBytes buffer) 0 calls ∧
      (endOf (Bits.ofBytes buffer) 0 calls ≤ 8 * buffer.length →
        uncached.index = endOf (Bits.ofBytes buffer) 0 calls ∧
          cached.position = endOf (Bits.ofBytes buffer) 0 calls)

/-- Every read of 25 to 31 bits, also in an Exp-Golomb number, finds zeros in the first 16. -/
def WideReadsFit (buffer : List UInt8) (calls : List ReadCall) : Prop :=
  AllFit (WideFits (Bits.ofBytes buffer)) (Bits.ofBytes buffer) 0 calls

theorem uncached_all_fit (bits : Bits) (position : Nat) (calls : List ReadCall) :
    AllFit (fun _ _ => True) bits position calls := by
  induction calls generalizing position with
  | nil => trivial
  | cons call calls ih =>
      refine ⟨?_, ih _⟩
      cases call <;> trivial

theorem readers_agree_iff (buffer : List UInt8) (calls : List ReadCall) :
    ReadersAgree buffer calls ↔ WideReadsFit buffer calls := by
  obtain ⟨values, uncached, ran, stands, right⟩ :=
    perform_all_run (UncachedBr.reader_follows buffer) (UncachedBr.init_at buffer) calls
  obtain ⟨others, cached, ran', stands', right'⟩ :=
    perform_all_run (CachedBr.reader_follows buffer) (CachedBr.init_at buffer) calls
  have exact' := right.mpr (uncached_all_fit _ _ calls)
  constructor
  · intro agree
    obtain ⟨both, last, last', first, second, _, _⟩ := agree
    rw [ran] at first
    rw [ran'] at second
    cases first
    cases second
    exact right'.mp exact'
  · intro fits
    have same := right'.mpr fits
    refine ⟨values, uncached, cached, ran, ?_, exact', ?_⟩
    · rw [ran', same, exact']
    · intro within
      rw [← stands.bits] at within
      exact ⟨stands.inside within, stands'.position_eq⟩

/-- 25 bits that do not begin with zeros. -/
theorem wide_read_misplaced :
    (UncachedBr.reader.performAll [.getBits 25] (.brInit [1, 0x82, 0x83, 5])).map Prod.fst =
        some [some 197894] ∧
      (CachedBr.reader.performAll [.getBits 25] (.brInit [1, 0x82, 0x83, 5])).map Prod.fst =
        some [some 25297158] := by
  decide

end Xineliboutput.Elementary
