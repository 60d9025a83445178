import Xineliboutput.Elementary.BitReaders
import Xineliboutput.Foundation.Bits

/-!
# What the readers read

A reader stands at a position of a stream of bits. The calls return what is there, except that
`br_get_bits` may be wrong for some widths; the positions do not depend on that.
-/

namespace Xineliboutput.Elementary

open Xineliboutput.Foundation

set_option autoImplicit false

/-- A reader of a stream. `br_get_bits` is right at a position for a width where `Right` says
so. -/
structure Follows {State : Type} (reader : BitReader State) (bits : Bits)
    (At : State → Nat → Prop) (Right : Nat → Nat → Prop) : Prop where
  getBit : ∀ br position, At br position → ∃ next,
    reader.brGetBit br = some ((bits position).toNat, next) ∧ At next (position + 1)
  getBits : ∀ br position n, n ≤ 32 → At br position → ∃ number next,
    reader.brGetBits n br = some (number, next) ∧ At next (position + n) ∧ number < 2 ^ 32 ∧
      (number = (bits.drop position).value n ↔ Right position n)
  skipBit : ∀ br position, At br position → ∃ next,
    reader.brSkipBit br = some next ∧ At next (position + 1)
  skipBits : ∀ br position n, At br position → ∃ next,
    reader.brSkipBits n br = some next ∧ At next (position + n)
  narrow : ∀ position n, ¬Right position n → 0 < n ∧ n < 32

/-! ## What stands in the stream -/

def zerosAt (bits : Bits) (position : Nat) : Nat := (bits.drop position).zeros 32

def ueAt (bits : Bits) (position : Nat) : Nat :=
  let n := zerosAt bits position
  if n = 0 then 0 else (2 ^ n - 1 + (bits.drop (position + n + 1)).value n) % 2 ^ 32

def seAt (bits : Bits) (position : Nat) : Int :=
  BitReader.signedGolomb ((ueAt bits position + 1) % 2 ^ 32)

namespace ReadCall

def valueAt (bits : Bits) (position : Nat) : ReadCall → Option Int
  | .getBit => some ((bits position).toNat : Int)
  | .getBits n => some ((bits.drop position).value n : Int)
  | .getUeGolomb => some (ueAt bits position : Int)
  | .getSeGolomb => some (seAt bits position)
  | .skipBit | .skipBits _ | .skipGolomb => none

def width (bits : Bits) (position : Nat) : ReadCall → Nat
  | .getBit | .skipBit => 1
  | .getBits n => n
  | .skipBits n => n
  | .getUeGolomb | .getSeGolomb | .skipGolomb =>
      zerosAt bits position + 1 + zerosAt bits position

/-- The `br_get_bits` in a call is right. -/
def Fits (Right : Nat → Nat → Prop) (bits : Bits) (position : Nat) : ReadCall → Prop
  | .getBits n => Right position n
  | .getUeGolomb | .getSeGolomb =>
      Right (position + zerosAt bits position + 1) (zerosAt bits position)
  | .getBit | .skipBit | .skipBits _ | .skipGolomb => True

end ReadCall

/-- The values of calls one after the other, from a position on. -/
def valuesFrom (bits : Bits) : Nat → List ReadCall → List (Option Int)
  | _, [] => []
  | position, call :: calls =>
      call.valueAt bits position :: valuesFrom bits (position + call.width bits position) calls

def endOf (bits : Bits) : Nat → List ReadCall → Nat
  | position, [] => position
  | position, call :: calls => endOf bits (position + call.width bits position) calls

def AllFit (Right : Nat → Nat → Prop) (bits : Bits) : Nat → List ReadCall → Prop
  | _, [] => True
  | position, call :: calls =>
      call.Fits Right bits position ∧ AllFit Right bits (position + call.width bits position) calls

/-! ## Exp-Golomb numbers -/

section Runs

variable {State : Type} {reader : BitReader State} {bits : Bits} {At : State → Nat → Prop}
  {Right : Nat → Nat → Prop} (follows : Follows reader bits At Right) {br : State}
  {position : Nat}

include follows in
theorem count_zeros_run (rounds n : Nat) (there : At br position) :
    ∃ next, reader.countZeros rounds n br = some (n + (bits.drop position).zeros rounds, next) ∧
      At next (position + (bits.drop position).zeros rounds + 1) := by
  induction rounds generalizing n br position with
  | zero =>
      obtain ⟨next, ran, after⟩ := follows.getBit br position there
      refine ⟨next, ?_, after⟩
      rw [BitReader.countZeros, ran]
      rfl
  | succ rounds ih =>
      obtain ⟨next, ran, after⟩ := follows.getBit br position there
      rw [BitReader.countZeros, ran, Option.bind_eq_bind, Option.bind_some, Bits.zeros,
        Bits.drop, Nat.add_zero, Bits.drop_drop]
      cases bits position with
      | true => exact ⟨next, rfl, after⟩
      | false =>
          obtain ⟨last, counted, at'⟩ := ih (n + 1) after
          refine ⟨last, ?_, ?_⟩
          · simp only [Bool.toNat_false, if_pos, Bool.false_eq_true, if_false]
            rw [counted, Nat.add_right_comm, Nat.add_assoc]
          · simp only [Bool.false_eq_true, if_false]
            rw [← Nat.add_assoc, Nat.add_right_comm position]
            exact at'

include follows in
theorem zeros_run (there : At br position) :
    ∃ next, reader.countZeros 32 0 br = some (zerosAt bits position, next) ∧
      At next (position + zerosAt bits position + 1) := by
  obtain ⟨next, ran, after⟩ := count_zeros_run follows 32 0 there
  rw [Nat.zero_add] at ran
  exact ⟨next, ran, after⟩

theorem zeros_at_le (bits : Bits) (position : Nat) : zerosAt bits position ≤ 32 :=
  Bits.zeros_le _ 32

theorem add_mod_inj {offset first second : Nat} (small : first < 2 ^ 32)
    (small' : second < 2 ^ 32) :
    (offset + first) % 2 ^ 32 = (offset + second) % 2 ^ 32 ↔ first = second := by
  omega

include follows in
theorem ue_golomb_run (there : At br position) :
    ∃ number next, reader.brGetUeGolomb br = some (number, next) ∧
      At next (position + (zerosAt bits position + 1 + zerosAt bits position)) ∧
      number < 2 ^ 32 ∧
      (number = ueAt bits position ↔
        Right (position + zerosAt bits position + 1) (zerosAt bits position)) := by
  obtain ⟨next, counted, after⟩ := zeros_run follows there
  rw [BitReader.brGetUeGolomb, counted, Option.bind_eq_bind, Option.bind_some, ueAt]
  dsimp only
  by_cases none : zerosAt bits position = 0
  · have right : Right (position + zerosAt bits position + 1) (zerosAt bits position) := by
      by_contra wrong
      have some := (follows.narrow _ _ wrong).1
      omega
    rw [if_pos none, if_pos none]
    rw [none] at after right ⊢
    exact ⟨0, next, rfl, after, by decide, fun _ => right, fun _ => rfl⟩
  · obtain ⟨number, last, ran, at', small, right⟩ :=
      follows.getBits next _ _ (zeros_at_le bits position) after
    rw [if_neg none, if_neg none, ran, Option.bind_some]
    refine ⟨_, last, rfl, ?_, Nat.mod_lt _ (by decide), ?_⟩
    · rw [← Nat.add_assoc, ← Nat.add_assoc]
      exact at'
    · have bound : ((bits.drop (position + zerosAt bits position + 1)).value
          (zerosAt bits position)) < 2 ^ 32 :=
        Nat.lt_of_lt_of_le (Bits.value_lt _ _)
          (Nat.pow_le_pow_right (by decide) (zeros_at_le bits position))
      rw [Nat.one_shiftLeft, add_mod_inj small bound]
      exact right

theorem signed_golomb_eq (r : Nat) :
    BitReader.signedGolomb r = if r % 2 = 1 then -((r / 2 : Nat) : Int) else (r / 2 : Nat) := by
  rw [BitReader.signedGolomb, Nat.and_one_is_mod, Nat.shiftRight_one]
  have odd : r % 2 ≠ 0 ↔ r % 2 = 1 := by omega
  simp only [odd]

theorem signed_golomb_inj {first second : Nat} (small : first < 2 ^ 32) (some : 0 < second)
    (small' : second + 1 < 2 ^ 32) :
    BitReader.signedGolomb ((first + 1) % 2 ^ 32) = BitReader.signedGolomb ((second + 1) % 2 ^ 32) ↔
      first = second := by
  rw [signed_golomb_eq, signed_golomb_eq]
  constructor
  · intro same
    split at same <;> split at same <;> omega
  · intro same
    rw [same]

theorem ue_at_between {bits : Bits} {position : Nat} (some : 0 < zerosAt bits position)
    (few : zerosAt bits position < 32) :
    0 < ueAt bits position ∧ ueAt bits position + 1 < 2 ^ 32 := by
  rw [ueAt]
  generalize zerosAt bits position = n at some few ⊢
  rw [if_neg (Nat.ne_of_gt some)]
  have bound := Bits.value_lt (bits.drop (position + n + 1)) n
  have two : 2 ≤ 2 ^ n := Nat.le_self_pow (Nat.ne_of_gt some) 2
  have half : 2 ^ n ≤ 2 ^ 31 := Nat.pow_le_pow_right (by decide) (by omega)
  rw [Nat.mod_eq_of_lt (by omega)]
  omega

include follows in
theorem se_golomb_run (there : At br position) :
    ∃ number next, reader.brGetSeGolomb br = some (number, next) ∧
      At next (position + (zerosAt bits position + 1 + zerosAt bits position)) ∧
      (number = seAt bits position ↔
        Right (position + zerosAt bits position + 1) (zerosAt bits position)) := by
  obtain ⟨ue, next, ran, after, small, right⟩ := ue_golomb_run follows there
  rw [BitReader.brGetSeGolomb, ran, Option.bind_eq_bind, Option.bind_some]
  refine ⟨_, next, rfl, after, ?_⟩
  by_cases fits : Right (position + zerosAt bits position + 1) (zerosAt bits position)
  · exact ⟨fun _ => fits, fun _ => by rw [seAt, right.mpr fits]⟩
  · obtain ⟨some, few⟩ := follows.narrow _ _ fits
    obtain ⟨positive, short⟩ := ue_at_between some few
    rw [seAt, signed_golomb_inj small positive short]
    exact right

include follows in
theorem skip_golomb_run (there : At br position) :
    ∃ next, reader.brSkipGolomb br = some next ∧
      At next (position + (zerosAt bits position + 1 + zerosAt bits position)) := by
  obtain ⟨next, counted, after⟩ := zeros_run follows there
  obtain ⟨last, skipped, at'⟩ := follows.skipBits next _ (zerosAt bits position) after
  refine ⟨last, ?_, ?_⟩
  · rw [BitReader.brSkipGolomb, counted, Option.bind_eq_bind, Option.bind_some]
    exact skipped
  · rw [← Nat.add_assoc, ← Nat.add_assoc]
    exact at'

/-! ## Calls -/

include follows in
theorem perform_call_run (there : At br position) (call : ReadCall) :
    ∃ value next, reader.perform br call = some (value, next) ∧
      At next (position + call.width bits position) ∧
      (value = call.valueAt bits position ↔ call.Fits Right bits position) := by
  cases call with
  | getBit =>
      obtain ⟨next, ran, after⟩ := follows.getBit br position there
      refine ⟨_, next, ?_, after, fun _ => trivial, fun _ => rfl⟩
      rw [BitReader.perform, ran]
      rfl
  | getBits n =>
      obtain ⟨number, next, ran, after, _, right⟩ :=
        follows.getBits br position n (Nat.le_of_lt_succ n.isLt) there
      refine ⟨some (number : Int), next, ?_, after, ?_⟩
      · rw [BitReader.perform, ran]
        rfl
      · rw [ReadCall.valueAt, ReadCall.Fits, Option.some_inj, Nat.cast_inj]
        exact right
  | skipBit =>
      obtain ⟨next, ran, after⟩ := follows.skipBit br position there
      refine ⟨none, next, ?_, after, fun _ => trivial, fun _ => rfl⟩
      rw [BitReader.perform, ran]
      rfl
  | skipBits n =>
      obtain ⟨next, ran, after⟩ := follows.skipBits br position n there
      refine ⟨none, next, ?_, after, fun _ => trivial, fun _ => rfl⟩
      rw [BitReader.perform, ran]
      rfl
  | getUeGolomb =>
      obtain ⟨number, next, ran, after, _, right⟩ := ue_golomb_run follows there
      refine ⟨some (number : Int), next, ?_, after, ?_⟩
      · rw [BitReader.perform, ran]
        rfl
      · rw [ReadCall.valueAt, ReadCall.Fits, Option.some_inj, Nat.cast_inj]
        exact right
  | getSeGolomb =>
      obtain ⟨number, next, ran, after, right⟩ := se_golomb_run follows there
      refine ⟨some number, next, ?_, after, ?_⟩
      · rw [BitReader.perform, ran]
        rfl
      · rw [ReadCall.valueAt, ReadCall.Fits, Option.some_inj]
        exact right
  | skipGolomb =>
      obtain ⟨next, ran, after⟩ := skip_golomb_run follows there
      refine ⟨none, next, ?_, after, fun _ => trivial, fun _ => rfl⟩
      rw [BitReader.perform, ran]
      rfl

include follows in
/-- The positions are those of the stream, and the values are as long as every call fits. -/
theorem perform_all_run (there : At br position) (calls : List ReadCall) :
    ∃ values last, reader.performAll calls br = some (values, last) ∧
      At last (endOf bits position calls) ∧
      (values = valuesFrom bits position calls ↔ AllFit Right bits position calls) := by
  induction calls generalizing br position with
  | nil => exact ⟨[], br, rfl, there, fun _ => trivial, fun _ => rfl⟩
  | cons call calls ih =>
      obtain ⟨value, next, ran, after, right⟩ := perform_call_run follows there call
      obtain ⟨values, last, others, at', rights⟩ := ih after
      refine ⟨value :: values, last, ?_, at', ?_⟩
      · rw [BitReader.performAll, ran, Option.bind_eq_bind, Option.bind_some]
        dsimp only
        rw [others]
        rfl
      · rw [valuesFrom, AllFit, List.cons.injEq, right, rights]

end Runs
end Xineliboutput.Elementary
