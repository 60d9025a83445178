import Xineliboutput.Elementary.NalUnescape

/-!
# Emulation prevention undone

Escaped bytes are read from the front. `h264_nal_unescape` copies the byte behind an escape
without looking at it, so that it is one zero ahead of the rule for a while.
-/

namespace Xineliboutput.Elementary

set_option autoImplicit false

/-- The rule of H.264 and H.265, with the zeros output since the last inserted byte. -/
def escapeFrom : Nat → List UInt8 → List UInt8
  | _, [] => []
  | zeros, byte :: rest =>
      if 2 ≤ zeros ∧ byte ≤ 3 then 3 :: byte :: escapeFrom (if byte = 0 then 1 else 0) rest
      else byte :: escapeFrom (if byte = 0 then zeros + 1 else 0) rest

def escape (bytes : List UInt8) : List UInt8 := escapeFrom 0 bytes

def crowded : Nat → List UInt8 → Bool
  | _, [] => false
  | zeros, byte :: rest =>
      (decide (4 ≤ zeros) && decide (byte ≤ 3)) ||
        crowded (if byte = 0 then zeros + 1 else 0) rest

def zerosAtEnd : Nat → List UInt8 → Nat
  | zeros, [] => zeros
  | zeros, byte :: rest => zerosAtEnd (if byte = 0 then zeros + 1 else 0) rest

structure EndFits (zeros : Nat) (behind : List UInt8) : Prop where
  single : zeros = 1 ∨ zeros = 4 → ∃ byte, behind[0]? = some byte ∧ byte ≠ 0
  pair : zeros = 2 → behind[0]? = some 3

structure Undoable (zeros : Nat) (bytes behind : List UInt8) : Prop where
  sparse : crowded zeros bytes = false
  ends : EndFits (zerosAtEnd zeros bytes) behind

/-! ## The rule -/

section Rule

variable {byte : UInt8} {rest behind : List UInt8} {zeros : Nat}

theorem escape_insert (small : byte ≤ 3) :
    escapeFrom 2 (byte :: rest) = 3 :: escapeFrom 0 (byte :: rest) := by
  have plain : escapeFrom 0 (byte :: rest) =
      byte :: escapeFrom (if byte = 0 then 1 else 0) rest := by
    rw [escapeFrom, if_neg fun both => absurd both.1 (by decide)]
  rw [plain, escapeFrom, if_pos ⟨Nat.le_refl 2, small⟩]

theorem escape_other (few : ¬(2 ≤ zeros ∧ byte ≤ 3)) (other : byte ≠ 0) :
    escapeFrom zeros (byte :: rest) = byte :: escapeFrom 0 rest := by
  rw [escapeFrom, if_neg few, if_neg other]

theorem escape_zero (few : zeros < 2) :
    escapeFrom zeros (0 :: rest) = 0 :: escapeFrom (zeros + 1) rest := by
  rw [escapeFrom, if_neg (by omega), if_pos rfl]

theorem escape_restart (few : ¬(2 ≤ zeros ∧ byte ≤ 3)) (other : byte ≠ 0) :
    escapeFrom zeros (byte :: rest) = escapeFrom 0 (byte :: rest) := by
  rw [escape_other few other, escape_other (by simp) other]

theorem undoable_cons (sparse : ¬(4 ≤ zeros ∧ byte ≤ 3)) :
    Undoable zeros (byte :: rest) behind ↔
      Undoable (if byte = 0 then zeros + 1 else 0) rest behind := by
  have plain : crowded zeros (byte :: rest) =
      crowded (if byte = 0 then zeros + 1 else 0) rest := by
    rw [crowded, ← Bool.decide_and, decide_eq_false sparse, Bool.false_or]
  constructor
  · intro undoable
    exact ⟨plain ▸ undoable.sparse, undoable.ends⟩
  · intro undoable
    exact ⟨plain ▸ undoable.sparse, undoable.ends⟩

theorem undoable_other (sparse : ¬(4 ≤ zeros ∧ byte ≤ 3)) (other : byte ≠ 0) :
    Undoable zeros (byte :: rest) behind ↔ Undoable 0 rest behind := by
  rw [undoable_cons sparse, if_neg other]

theorem undoable_zero (few : zeros < 4) :
    Undoable zeros (0 :: rest) behind ↔ Undoable (zeros + 1) rest behind := by
  rw [undoable_cons (by omega), if_pos rfl]

theorem undoable_restart (sparse : ¬(4 ≤ zeros ∧ byte ≤ 3)) (other : byte ≠ 0) :
    Undoable zeros (byte :: rest) behind ↔ Undoable 0 (byte :: rest) behind := by
  rw [undoable_other sparse other, undoable_other (by simp) other]

theorem not_undoable (crowds : 4 ≤ zeros ∧ byte ≤ 3) : ¬Undoable zeros (byte :: rest) behind := by
  intro undoable
  have sparse := undoable.sparse
  rw [crowded, ← Bool.decide_and, decide_eq_true crowds, Bool.true_or] at sparse
  cases sparse

theorem above_three (large : ¬byte ≤ 3) : byte ≠ 0 ∧ byte ≠ 3 := by
  constructor
  · intro zero
    rw [zero] at large
    exact large (by decide)
  · intro three
    rw [three] at large
    exact large (by decide)

end Rule

/-! ## Buffers that only grow -/

def Round.dst : Round → List UInt8
  | .returns dst => dst
  | .goesOn _ dst => dst

section Grows

variable {src dst out : List UInt8} {len room s : Nat} {byte : UInt8}

theorem store_eq (stored : store room byte dst = some out) :
    out = dst ++ [byte] ∧ dst.length < room := by
  unfold store at stored
  split at stored
  · next fits => exact ⟨(Option.some.inj stored).symm, fits⟩
  · cases stored

theorem store_zeros_eq (stored : storeZeros room dst = some out) :
    out = dst ++ [0, 0] ∧ dst.length + 2 ≤ room := by
  obtain ⟨middle, first, second⟩ := Option.bind_eq_some_iff.mp stored
  obtain ⟨rfl, _⟩ := store_eq first
  obtain ⟨rfl, fits⟩ := store_eq second
  rw [List.length_append, List.length_singleton] at fits
  exact ⟨List.append_assoc _ _ _, fits⟩

theorem copy_byte_eq {round : Round} (copied : copyByte src room s dst = some round) :
    ∃ byte, src[s]? = some byte ∧ round = .goesOn (s + 1) (dst ++ [byte]) ∧ dst.length < room := by
  obtain ⟨byte, read, stored⟩ := Option.bind_eq_some_iff.mp copied
  obtain ⟨after, stored, same⟩ := Option.bind_eq_some_iff.mp stored
  obtain ⟨rfl, fits⟩ := store_eq stored
  exact ⟨byte, read, (Option.some.inj same).symm, fits⟩

theorem h264_round_zeros {round : Round} (zeros : zerosAhead src s = some true)
    (ran : h264Round src len room s dst = some round) : dst.length + 2 ≤ round.dst.length := by
  rw [h264Round, zeros, Option.bind_eq_bind, Option.bind_some, if_pos rfl] at ran
  obtain ⟨middle, stored, ran⟩ := Option.bind_eq_some_iff.mp ran
  obtain ⟨escape, _, ran⟩ := Option.bind_eq_some_iff.mp ran
  obtain ⟨rfl, _⟩ := store_zeros_eq stored
  split at ran
  · split at ran
    · cases ran
      simp [Round.dst]
    · obtain ⟨byte, _, rfl, _⟩ := copy_byte_eq ran
      simp [Round.dst]
  · obtain ⟨byte, _, rfl, _⟩ := copy_byte_eq ran
    simp [Round.dst]

theorem h264_round_grows {round : Round} (ran : h264Round src len room s dst = some round) :
    dst.length < round.dst.length := by
  cases zeros : zerosAhead src s with
  | none =>
      rw [h264Round, zeros] at ran
      cases ran
  | some both =>
      cases both with
      | true =>
          have grown := h264_round_zeros zeros ran
          omega
      | false =>
          rw [h264Round, zeros, Option.bind_eq_bind, Option.bind_some,
            if_neg Bool.false_ne_true] at ran
          obtain ⟨byte, _, rfl, _⟩ := copy_byte_eq ran
          simp [Round.dst]

theorem while_below_grows {bound left : Nat} {round : Nat → List UInt8 → Option Round}
    (grows : ∀ s dst result, round s dst = some result → dst.length ≤ result.dst.length)
    (ran : whileBelow bound round left s dst = some out) : dst.length ≤ out.length := by
  induction left generalizing s dst with
  | zero => cases ran
  | succ left ih =>
      rw [whileBelow] at ran
      split at ran
      · obtain ⟨result, first, others⟩ := Option.bind_eq_some_iff.mp ran
        have grown := grows s dst result first
        cases result with
        | returns after =>
            cases others
            exact grown
        | goesOn next after => exact Nat.le_trans grown (ih others)
      · cases ran
        exact Nat.le_refl _

/-! A larger buffer makes no difference to what has worked. -/

theorem copy_byte_mono {room' : Nat} (larger : room ≤ room') {round : Round}
    (copied : copyByte src room s dst = some round) : copyByte src room' s dst = some round := by
  obtain ⟨byte, read, rfl, fits⟩ := copy_byte_eq copied
  rw [copyByte, read, Option.bind_eq_bind, Option.bind_some,
    store_fits (Nat.lt_of_lt_of_le fits larger)]
  rfl

theorem h264_round_mono {room' : Nat} (larger : room ≤ room') {round : Round}
    (ran : h264Round src len room s dst = some round) :
    h264Round src len room' s dst = some round := by
  obtain ⟨zeros, ahead, ran⟩ := Option.bind_eq_some_iff.mp ran
  rw [h264Round, ahead, Option.bind_eq_bind, Option.bind_some]
  cases zeros with
  | false => exact copy_byte_mono larger ran
  | true =>
      rw [if_pos rfl] at ran ⊢
      obtain ⟨after, stored, ran⟩ := Option.bind_eq_some_iff.mp ran
      obtain ⟨rfl, fits⟩ := store_zeros_eq stored
      obtain ⟨escape, read, ran⟩ := Option.bind_eq_some_iff.mp ran
      rw [store_zeros_fit (Nat.le_trans fits larger), Option.bind_eq_bind, Option.bind_some, read,
        Option.bind_eq_bind, Option.bind_some]
      split at ran
      · next three =>
          rw [if_pos three]
          split at ran
          · next last =>
              rw [if_pos last]
              exact ran
          · next more =>
              rw [if_neg more]
              exact copy_byte_mono larger ran
      · next plain =>
          rw [if_neg plain]
          exact copy_byte_mono larger ran

theorem while_below_mono {bound left : Nat} {round round' : Nat → List UInt8 → Option Round}
    (same : ∀ s dst result, round s dst = some result → round' s dst = some result)
    (ran : whileBelow bound round left s dst = some out) :
    whileBelow bound round' left s dst = some out := by
  induction left generalizing s dst with
  | zero => cases ran
  | succ left ih =>
      rw [whileBelow] at ran ⊢
      split at ran
      · next short =>
          obtain ⟨result, first, others⟩ := Option.bind_eq_some_iff.mp ran
          rw [if_pos short, same s dst result first, Option.bind_some]
          cases result with
          | returns after => exact others
          | goesOn next after => exact ih others
      · next long =>
          rw [if_neg long]
          exact ran

end Grows
/-! ## H.264 -/

section H264

variable {src behind bytes dst : List UInt8} {len room zeros s left : Nat}

/-- The decoder is before the escaped form of some bytes, which fits into the buffer. -/
structure Facing (src behind : List UInt8) (len room zeros : Nat) (bytes : List UInt8)
    (s : Nat) (dst : List UInt8) (left : Nat) : Prop where
  ahead : src.drop s = escapeFrom zeros bytes ++ behind
  length : len = s + (escapeFrom zeros bytes).length
  enough : (escapeFrom zeros bytes).length < left
  fits : dst.length + bytes.length ≤ room

structure Outcome (undoable : Prop) (dst bytes : List UInt8) (result : Option (List UInt8)) :
    Prop where
  right : undoable → result = some (dst ++ bytes)
  wrong : ¬undoable → ∀ out, result = some out → dst.length + bytes.length < out.length

theorem Outcome.long {undoable : Prop} {result : Option (List UInt8)} {out : List UInt8}
    (outcome : Outcome undoable dst bytes result) (ran : result = some out) :
    dst.length + bytes.length ≤ out.length := by
  by_cases can : undoable
  · obtain rfl : dst ++ bytes = out := Option.some.inj ((outcome.right can).symm.trans ran)
    rw [List.length_append]
  · exact Nat.le_of_lt (outcome.wrong can out ran)

theorem Facing.short {rest taken : List UInt8} {zeros' : Nat}
    (facing : Facing src behind len room zeros bytes s dst left)
    (escaped : escapeFrom zeros bytes = taken ++ escapeFrom zeros' rest)
    (some' : 0 < taken.length) : s < len := by
  have length := facing.length
  rw [escaped, List.length_append] at length
  omega

theorem Facing.step {rest taken put : List UInt8} {zeros' bound : Nat}
    {round : Nat → List UInt8 → Option Round}
    (facing : Facing src behind len room zeros bytes s dst left)
    (escaped : escapeFrom zeros bytes = taken ++ escapeFrom zeros' rest)
    (parts : bytes = put ++ rest) (some' : 0 < taken.length) (short : s < bound)
    (ran : round s dst = some (.goesOn (s + taken.length) (dst ++ put))) :
    ∃ left', whileBelow bound round left s dst =
        whileBelow bound round left' (s + taken.length) (dst ++ put) ∧
      Facing src behind len room zeros' rest (s + taken.length) (dst ++ put) left' := by
  obtain ⟨ahead, length, enough, fits⟩ := facing
  rw [escaped, List.append_assoc] at ahead
  rw [escaped, List.length_append] at length enough
  rw [parts, List.length_append] at fits
  cases left with
  | zero => omega
  | succ left =>
      refine ⟨left, while_below_goes_on short ran, drop_further taken ahead, by omega, by omega, ?_⟩
      rw [List.length_append]
      omega

theorem Outcome.after {undoable undoable' : Prop} {rest put : List UInt8}
    {result : Option (List UInt8)} (parts : bytes = put ++ rest) (same : undoable ↔ undoable')
    (outcome : Outcome undoable' (dst ++ put) rest result) :
    Outcome undoable dst bytes result := by
  subst parts
  constructor
  · intro can
    rw [outcome.right (same.mp can), List.append_assoc]
  · intro cannot out ran
    have long := outcome.wrong (fun can => cannot (same.mpr can)) out ran
    rw [List.length_append] at long ⊢
    omega

theorem Facing.done {seen : Nat} (facing : Facing src behind len room zeros [] s dst left)
    (undoable : Undoable seen [] behind) :
    Outcome (Undoable seen [] behind) dst []
      (whileBelow len (h264Round src len room) left s dst) := by
  obtain ⟨_, length, enough, _⟩ := facing
  cases left with
  | zero => exact absurd enough (Nat.not_lt_zero _)
  | succ left =>
      refine ⟨fun _ => ?_, fun cannot => absurd undoable cannot⟩
      rw [List.append_nil]
      exact while_below_ends (Nat.le_of_eq length)

theorem zeros_overrun {out : List UInt8} (zeros : zerosAhead src s = some true) (short : s < len)
    (ran : whileBelow len (h264Round src len room) left s dst = some out) :
    dst.length + 2 ≤ out.length := by
  cases left with
  | zero => cases ran
  | succ left =>
      rw [whileBelow, if_pos short] at ran
      obtain ⟨result, first, others⟩ := Option.bind_eq_some_iff.mp ran
      have grown := h264_round_zeros zeros first
      cases result with
      | returns after =>
          cases others
          exact grown
      | goesOn next after =>
          exact Nat.le_trans grown (while_below_grows
            (fun _ _ _ ran => Nat.le_of_lt (h264_round_grows ran)) others)

theorem undoable_nil {seen : Nat} (none : seen ≠ 1 ∧ seen ≠ 2 ∧ seen ≠ 4) :
    Undoable seen [] behind :=
  ⟨rfl, fun one => by rw [zerosAtEnd] at one; omega, fun two => absurd two none.2.1⟩

theorem undoable_single {seen : Nat} (last : seen = 0 ∨ seen = 3) :
    Undoable seen [0] behind ↔ ∃ byte, behind[0]? = some byte ∧ byte ≠ 0 := by
  rw [undoable_zero (by omega)]
  constructor
  · intro undoable
    exact undoable.ends.single (by rw [zerosAtEnd]; omega)
  · intro other
    exact ⟨rfl, fun _ => other, fun two => by rw [zerosAtEnd] at two; omega⟩

theorem undoable_pair : Undoable 0 [0, 0] behind ↔ behind[0]? = some 3 := by
  rw [undoable_zero (by decide), undoable_zero (by decide)]
  constructor
  · intro undoable
    exact undoable.ends.pair rfl
  · intro three
    exact ⟨rfl, fun one => by rw [zerosAtEnd] at one; omega, fun _ => three⟩

theorem Facing.single {seen : Nat} (facing : Facing src behind len room zeros [0] s dst left)
    (few : zeros < 2) (last : seen = 0 ∨ seen = 3) :
    Outcome (Undoable seen [0] behind) dst [0]
      (whileBelow len (h264Round src len room) left s dst) := by
  have escaped : escapeFrom zeros [0] = [0] ++ escapeFrom (zeros + 1) [] := escape_zero few
  have ahead := facing.ahead
  have length := facing.length
  have fits := facing.fits
  rw [escaped] at ahead length
  have there : src.drop s = 0 :: behind := ahead
  have short : s < len := by
    rw [length]
    exact Nat.lt_add_of_pos_right Nat.one_pos
  rw [undoable_single last]
  constructor
  · intro other
    obtain ⟨byte, next, other⟩ := other
    have zeros' : zerosAhead src s = some false := by
      rw [zeros_ahead_zero there, next, Option.map_some, beq_eq_false_iff_ne.mpr other]
    obtain ⟨left', ran, facing'⟩ := facing.step escaped rfl Nat.one_pos short
      (h264_round_copy zeros' there fits)
    have nothing : Undoable 0 [] behind := undoable_nil (by decide)
    rw [ran, (facing'.done nothing).right nothing, List.append_nil]
  · intro lacks out ran
    cases next : behind[0]? with
    | none =>
        have zeros' : zerosAhead src s = none := by
          rw [zeros_ahead_zero there, next]
          rfl
        have outside : h264Round src len room s dst = none := by
          rw [h264Round, zeros']
          rfl
        rw [while_below_fails short outside] at ran
        cases ran
    | some byte =>
        have zero : byte = 0 := by
          by_contra other
          exact lacks ⟨byte, next, other⟩
        have zeros' : zerosAhead src s = some true := by
          rw [zeros_ahead_zero there, next, zero]
          rfl
        exact zeros_overrun zeros' short ran

theorem Facing.pair (facing : Facing src behind len room 0 [0, 0] s dst left) :
    Outcome (Undoable 0 [0, 0] behind) dst [0, 0]
      (whileBelow len (h264Round src len room) left s dst) := by
  have escaped : escapeFrom 0 [0, 0] = [0, 0] := by decide
  obtain ⟨ahead, length, enough, fits⟩ := facing
  rw [escaped] at ahead length
  have zeros' : zerosAhead src s = some true := zeros_ahead_pair ahead
  have next : src.drop (s + 2) = behind := drop_further [0, 0] ahead
  have short : s < len := by
    rw [length]
    exact Nat.lt_add_of_pos_right (by decide)
  rw [undoable_pair]
  cases left with
  | zero => exact absurd enough (Nat.not_lt_zero _)
  | succ left =>
      rw [whileBelow, if_pos short, h264_round_hit zeros' fits, read_first next]
      constructor
      · intro three
        rw [three, Option.bind_some, if_pos rfl, if_pos (by rw [length]; simp)]
        rfl
      · intro other out ran
        obtain ⟨result, first, others⟩ := Option.bind_eq_some_iff.mp ran
        obtain ⟨escape, read, copied⟩ := Option.bind_eq_some_iff.mp first
        have plain : escape ≠ 3 := by
          intro three
          rw [three] at read
          exact other read
        rw [if_neg plain] at copied
        obtain ⟨byte, _, rfl, _⟩ := copy_byte_eq copied
        have grown := while_below_grows
          (fun _ _ _ ran => Nat.le_of_lt (h264_round_grows ran)) others
        simp only [List.length_append, List.length_cons, List.length_nil] at grown ⊢
        omega

/-- A zero behind an escape hides the pair that it begins: the escape behind it is copied. -/
theorem Facing.missed {byte : UInt8} {rest : List UInt8} {seen : Nat}
    (facing : Facing src behind len room 1 (0 :: byte :: rest) s dst left) (small : byte ≤ 3)
    (crowds : 3 ≤ seen)
    (long : ∀ (room s left : Nat) (dst out : List UInt8),
      Facing src behind len room 0 (byte :: rest) s dst left →
        whileBelow len (h264Round src len room) left s dst = some out →
          dst.length + (byte :: rest).length ≤ out.length) :
    Outcome (Undoable seen (0 :: byte :: rest) behind) dst (0 :: byte :: rest)
      (whileBelow len (h264Round src len room) left s dst) := by
  have cannot : ¬Undoable seen (0 :: byte :: rest) behind := by
    intro undoable
    by_cases few : seen < 4
    · exact not_undoable ⟨Nat.succ_le_succ crowds, small⟩ ((undoable_zero few).mp undoable)
    · exact not_undoable ⟨Nat.not_lt.mp few, by decide⟩ undoable
  refine ⟨fun can => absurd can cannot, ?_⟩
  intro _ out ran
  have wider := while_below_mono (fun _ _ _ ran => h264_round_mono (Nat.le_succ room) ran) ran
  obtain ⟨ahead, length, enough, fits⟩ := facing
  rw [escape_zero (by decide), escape_insert small] at ahead length enough
  simp only [List.length_cons] at length enough fits
  have first : zerosAhead src s = some false := zeros_ahead_single ahead (by decide)
  have there : src.drop (s + 1) = 3 :: (escapeFrom 0 (byte :: rest) ++ behind) :=
    drop_further [0] ahead
  have second : zerosAhead src (s + 1) = some false := zeros_ahead_other there (by decide)
  have next : src.drop (s + 2) = escapeFrom 0 (byte :: rest) ++ behind := drop_further [0, 3] ahead
  have longer : (dst ++ [(0 : UInt8)]).length < room + 1 := by
    rw [List.length_append, List.length_singleton]
    omega
  obtain ⟨left, rfl⟩ : ∃ more, left = more + 2 := ⟨left - 2, by omega⟩
  rw [while_below_goes_on (by omega) (h264_round_copy first ahead (by omega)),
    while_below_goes_on (by omega) (h264_round_copy second there longer)] at wider
  have facing' : Facing src behind len (room + 1) 0 (byte :: rest) (s + 2) (dst ++ [0] ++ [3])
      left := by
    refine ⟨next, by omega, by omega, ?_⟩
    simp only [List.length_append, List.length_cons, List.length_nil]
    omega
  have rest' := long (room + 1) (s + 2) left _ out facing' wider
  simp only [List.length_append, List.length_cons, List.length_nil] at rest' ⊢
  omega

/-- From an escaped form with `zeros` counted, where `seen` zeros lie before the bytes. -/
def Decodes (src behind : List UInt8) (len zeros seen : Nat) (bytes : List UInt8) : Prop :=
  ∀ (room s left : Nat) (dst : List UInt8), Facing src behind len room zeros bytes s dst left →
    Outcome (Undoable seen bytes behind) dst bytes
      (whileBelow len (h264Round src len room) left s dst)

section Steps

variable {byte : UInt8} {rest : List UInt8} {seen : Nat}

theorem decodes_step {taken put : List UInt8} {zeros' seen' : Nat}
    (escaped : escapeFrom zeros bytes = taken ++ escapeFrom zeros' rest)
    (parts : bytes = put ++ rest) (some' : 0 < taken.length)
    (round : ∀ (room s left : Nat) (dst : List UInt8),
      Facing src behind len room zeros bytes s dst left →
        h264Round src len room s dst = some (.goesOn (s + taken.length) (dst ++ put)))
    (same : Undoable seen bytes behind ↔ Undoable seen' rest behind)
    (others : Decodes src behind len zeros' seen' rest) :
    Decodes src behind len zeros seen bytes := by
  intro room s left dst facing
  obtain ⟨left', ran, facing'⟩ := facing.step escaped parts some' (facing.short escaped some')
    (round room s left dst facing)
  rw [ran]
  exact (others room _ left' _ facing').after parts same

theorem decodes_copied (few : zeros < 2) (sparse : seen < 4) (other : byte ≠ 0)
    (others : Decodes src behind len 0 0 rest) :
    Decodes src behind len zeros seen (byte :: rest) := by
  have escaped : escapeFrom zeros (byte :: rest) = [byte] ++ escapeFrom 0 rest :=
    escape_other (fun both => absurd both.1 (Nat.not_le.mpr few)) other
  have parts : byte :: rest = [byte] ++ rest := rfl
  apply decodes_step escaped parts Nat.one_pos _ _ others
  · intro room s left dst facing
    have ahead := facing.ahead
    have fits := facing.fits
    rw [escaped] at ahead
    rw [List.length_cons] at fits
    exact h264_round_copy (zeros_ahead_other ahead other) ahead (by omega)
  · exact undoable_other (fun both => absurd both.1 (Nat.not_le.mpr sparse)) other

theorem decodes_single_zero (few : zeros < 2) (sparse : seen < 4) (other : byte ≠ 0)
    (plain : byte ≤ 3 → zeros = 0 ∧ seen < 3) (others : Decodes src behind len 0 0 (byte :: rest)) :
    Decodes src behind len zeros seen (0 :: byte :: rest) := by
  have free : ¬(2 ≤ zeros + 1 ∧ byte ≤ 3) := by
    intro both
    have none := (plain both.2).1
    omega
  have loose : ¬(4 ≤ seen + 1 ∧ byte ≤ 3) := by
    intro both
    have less := (plain both.2).2
    omega
  have escaped : escapeFrom zeros (0 :: byte :: rest) = [0] ++ escapeFrom 0 (byte :: rest) := by
    rw [escape_zero few, escape_restart free other]
    rfl
  have parts : 0 :: byte :: rest = [0] ++ byte :: rest := rfl
  apply decodes_step escaped parts Nat.one_pos _ _ others
  · intro room s left dst facing
    have ahead := facing.ahead
    have fits := facing.fits
    rw [escaped, escape_other (by simp) other] at ahead
    simp only [List.length_cons] at fits
    exact h264_round_copy (zeros_ahead_single ahead other) ahead (by omega)
  · rw [undoable_zero sparse, undoable_restart loose other]

theorem decodes_pair_plain (large : ¬byte ≤ 3) (others : Decodes src behind len 0 0 rest) :
    Decodes src behind len 0 0 (0 :: 0 :: byte :: rest) := by
  obtain ⟨other, plain⟩ := above_three large
  have escaped : escapeFrom 0 (0 :: 0 :: byte :: rest) = [0, 0, byte] ++ escapeFrom 0 rest := by
    rw [escape_zero (by decide), escape_zero (by decide),
      escape_other (fun both => large both.2) other]
    rfl
  have parts : 0 :: 0 :: byte :: rest = [0, 0, byte] ++ rest := rfl
  apply decodes_step escaped parts (Nat.zero_lt_succ 2) _ _ others
  · intro room s left dst facing
    have ahead := facing.ahead
    have fits := facing.fits
    rw [escaped] at ahead
    simp only [List.length_cons] at fits
    exact h264_round_pair ahead plain (by omega)
  · rw [undoable_zero (by decide), undoable_zero (by decide),
      undoable_other (fun both => large both.2) other]

theorem decodes_pair_escape (small : byte ≤ 3)
    (others : Decodes src behind len (if byte = 0 then 1 else 0) (if byte = 0 then 3 else 0) rest) :
    Decodes src behind len 0 0 (0 :: 0 :: byte :: rest) := by
  have escaped : escapeFrom 0 (0 :: 0 :: byte :: rest) =
      [0, 0, 3, byte] ++ escapeFrom (if byte = 0 then 1 else 0) rest := by
    rw [escape_zero (by decide), escape_zero (by decide), escapeFrom,
      if_pos ⟨Nat.le_refl 2, small⟩]
    rfl
  have parts : 0 :: 0 :: byte :: rest = [0, 0, byte] ++ rest := rfl
  apply decodes_step escaped parts (Nat.zero_lt_succ 3) _ _ others
  · intro room s left dst facing
    have ahead := facing.ahead
    have fits := facing.fits
    have length := facing.length
    rw [escaped] at ahead length
    simp only [List.length_cons] at fits
    rw [List.length_append] at length
    exact h264_round_escape ahead (by simp only [List.length_cons] at length; omega) (by omega)
  · rw [undoable_zero (by decide), undoable_zero (by decide), undoable_cons (by omega)]

theorem decodes_pair (others : Decodes src behind len 0 0 rest)
    (third : Decodes src behind len 1 3 rest) :
    Decodes src behind len 0 0 (0 :: 0 :: byte :: rest) := by
  by_cases small : byte ≤ 3
  · apply decodes_pair_escape small
    split
    · exact third
    · exact others
  · exact decodes_pair_plain small others

theorem decodes_behind_escape (others : Decodes src behind len 0 0 (byte :: rest)) :
    Decodes src behind len 1 3 (0 :: byte :: rest) := by
  by_cases small : byte ≤ 3
  · intro room s left dst facing
    exact facing.missed small (Nat.le_refl 3)
      fun room s left dst out facing ran => (others room s left dst facing).long ran
  · exact decodes_single_zero (by decide) (by decide) (above_three small).1
      (fun less => absurd less small) others

end Steps

/-- From the start of a run of zeros, and from behind three of them with one in the count. -/
theorem h264_decodes (src behind : List UInt8) (len bound : Nat) (bytes : List UInt8)
    (short : bytes.length ≤ bound) :
    Decodes src behind len 0 0 bytes ∧ Decodes src behind len 1 3 bytes := by
  induction bound generalizing bytes with
  | zero =>
      obtain rfl := List.length_eq_zero_iff.mp (Nat.le_zero.mp short)
      exact ⟨fun _ _ _ _ facing => facing.done (undoable_nil (by decide)),
        fun _ _ _ _ facing => facing.done (undoable_nil (by decide))⟩
  | succ bound ih =>
      rcases bytes with _ | ⟨first, _ | ⟨second, rest⟩⟩
      · exact ⟨fun _ _ _ _ facing => facing.done (undoable_nil (by decide)),
          fun _ _ _ _ facing => facing.done (undoable_nil (by decide))⟩
      · by_cases zero : first = 0
        · subst zero
          exact ⟨fun _ _ _ _ facing => facing.single (by decide) (.inl rfl),
            fun _ _ _ _ facing => facing.single (by decide) (.inr rfl)⟩
        · have others := (ih [] (Nat.zero_le _)).1
          exact ⟨decodes_copied (by decide) (by decide) zero others,
            decodes_copied (by decide) (by decide) zero others⟩
      · rw [List.length_cons] at short
        have behind' := ih (second :: rest) (by omega)
        by_cases zero : first = 0
        · subst zero
          refine ⟨?_, decodes_behind_escape behind'.1⟩
          by_cases pair : second = 0
          · subst pair
            cases rest with
            | nil => exact fun _ _ _ _ facing => facing.pair
            | cons third rest =>
                simp only [List.length_cons] at short
                exact decodes_pair (ih rest (by omega)).1 (ih rest (by omega)).2
          · exact decodes_single_zero (by decide) (by decide) pair
              (fun _ => ⟨rfl, by decide⟩) behind'.1
        · exact ⟨decodes_copied (by decide) (by decide) zero behind'.1,
            decodes_copied (by decide) (by decide) zero behind'.1⟩

theorem escape_length (zeros : Nat) (bytes : List UInt8) :
    bytes.length ≤ (escapeFrom zeros bytes).length := by
  induction bytes generalizing zeros with
  | nil => exact Nat.le_refl 0
  | cons byte rest ih =>
      have longer := ih (if byte = 0 then zeros + 1 else 0)
      have longer' := ih (if byte = 0 then 1 else 0)
      rw [escapeFrom]
      split <;> simp only [List.length_cons] <;> omega

theorem facing_start (bytes behind : List UInt8) (spare : Nat) :
    Facing (escape bytes ++ behind) behind (escape bytes).length ((escape bytes).length + spare) 0
      bytes 0 [] ((escape bytes ++ behind).length + 1) := by
  have longer := escape_length 0 bytes
  refine ⟨rfl, (Nat.zero_add _).symm, ?_, ?_⟩
  · rw [List.length_append, escape]
    omega
  · rw [List.length_nil, escape]
    omega

theorem h264_undone_iff (bytes behind : List UInt8) (spare : Nat) :
    h264NalUnescape (escape bytes ++ behind) (escape bytes).length
        ((escape bytes).length + spare) = some bytes ↔ Undoable 0 bytes behind := by
  have outcome := (h264_decodes _ behind _ bytes.length bytes (Nat.le_refl _)).1 _ _ _ _
    (facing_start bytes behind spare)
  constructor
  · intro undone
    by_contra cannot
    have long := outcome.wrong cannot bytes undone
    rw [List.length_nil, Nat.zero_add] at long
    exact Nat.lt_irrefl _ long
  · exact outcome.right

end H264
/-! ## H.265 -/

section H265

variable {src behind bytes dst : List UInt8} {len room s left : Nat}

theorem h265_round_copy {byte : UInt8} {rest : List UInt8}
    (none : zerosThenOther src s = some false) (there : src.drop s = byte :: rest)
    (fits : dst.length < room) :
    h265Round src len room s dst = some (.goesOn (s + 1) (dst ++ [byte])) := by
  rw [h265Round, none, Option.bind_eq_bind, Option.bind_some, if_neg Bool.false_ne_true,
    copy_byte_run there fits]

theorem h265_round_pair {byte : UInt8} {rest : List UInt8}
    (there : src.drop s = 0 :: 0 :: byte :: rest) (other : byte ≠ 0)
    (fits : dst.length + 2 ≤ room) :
    h265Round src len room s dst = some
      (if byte = 3 then
        if s + 3 ≥ len then .returns (dst ++ [0, 0]) else .goesOn (s + 3) (dst ++ [0, 0])
      else .goesOn (s + 2) (dst ++ [0, 0])) := by
  have next : src.drop (s + 2) = byte :: rest := drop_further [0, 0] there
  have hit : zerosThenOther src s = some true := by
    rw [zerosThenOther, zeros_ahead_pair there, Option.bind_eq_bind, Option.bind_some, if_pos rfl,
      read_first next, List.getElem?_cons_zero, Option.map_some, bne_iff_ne.mpr other]
  rw [h265Round, hit, Option.bind_eq_bind, Option.bind_some, if_pos rfl, store_zeros_fit fits,
    Option.bind_eq_bind, Option.bind_some, read_first next, List.getElem?_cons_zero,
    Option.bind_eq_bind, Option.bind_some]
  split <;> rfl

/-- What is decoded from escaped bytes, behind what is there: all but three of them at most. -/
def Keeps (dst bytes : List UInt8) (result : Option (List UInt8)) : Prop :=
  ∃ out, result = some (dst ++ out) ∧ out <+: bytes ∧ bytes.length ≤ out.length + 3

theorem Keeps.after {put rest : List UInt8} {result : Option (List UInt8)}
    (keeps : Keeps (dst ++ put) rest result) : Keeps dst (put ++ rest) result := by
  obtain ⟨out, ran, front, most⟩ := keeps
  refine ⟨put ++ out, by rw [ran, List.append_assoc], ?_, ?_⟩
  · exact (List.prefix_append_right_inj put).mpr front
  · simp only [List.length_append]
    omega

theorem Facing.stopped (facing : Facing src behind len room 0 bytes s dst left)
    (near : ¬s < len - 3) :
    Keeps dst bytes (whileBelow (len - 3) (h265Round src len room) left s dst) := by
  have longer := escape_length 0 bytes
  have length := facing.length
  have enough := facing.enough
  cases left with
  | zero => exact absurd enough (Nat.not_lt_zero _)
  | succ left =>
      refine ⟨[], ?_, List.nil_prefix, ?_⟩
      · rw [while_below_ends (Nat.not_lt.mp near), List.append_nil]
      · rw [List.length_nil]
        omega

theorem zeros_then_other_false (none : zerosAhead src s = some false) :
    zerosThenOther src s = some false := by
  rw [zerosThenOther, none]
  rfl

/-- While more than three bytes are left, a round takes what stands for the bytes it writes. -/
theorem Facing.h265_goes_on (facing : Facing src behind len room 0 bytes s dst left)
    (near : s < len - 3) :
    ∃ taken put rest, bytes = put ++ rest ∧
      escapeFrom 0 bytes = taken ++ escapeFrom 0 rest ∧ 0 < taken.length ∧ 0 < put.length ∧
      h265Round src len room s dst = some (.goesOn (s + taken.length) (dst ++ put)) := by
  obtain ⟨ahead, length, _, fits⟩ := facing
  rcases bytes with _ | ⟨first, rest⟩
  · rw [escapeFrom, List.length_nil] at length
    omega
  by_cases zero : first = 0
  · subst zero
    rcases rest with _ | ⟨second, rest⟩
    · rw [escape_zero (by decide), escapeFrom, List.length_singleton] at length
      omega
    by_cases pair : second = 0
    · subst pair
      rcases rest with _ | ⟨third, rest⟩
      · rw [escape_zero (by decide), escape_zero (by decide), escapeFrom] at length
        simp only [List.length_cons, List.length_nil] at length
        omega
      simp only [List.length_cons] at fits
      by_cases small : third ≤ 3
      · have escaped : escapeFrom 0 (0 :: 0 :: third :: rest) =
            [0, 0, 3] ++ escapeFrom 0 (third :: rest) := by
          rw [escape_zero (by decide), escape_zero (by decide), escape_insert small]
          rfl
        rw [escaped] at ahead length
        refine ⟨[0, 0, 3], [0, 0], third :: rest, rfl, escaped, by decide, by decide, ?_⟩
        rw [h265_round_pair ahead (by decide) (by omega), if_pos rfl, if_neg (by omega)]
        rfl
      · obtain ⟨other, plain⟩ := above_three small
        have escaped : escapeFrom 0 (0 :: 0 :: third :: rest) =
            [0, 0] ++ escapeFrom 0 (third :: rest) := by
          rw [escape_zero (by decide), escape_zero (by decide),
            escape_restart (fun both => small both.2) other]
          rfl
        rw [escaped, escape_other (by simp) other] at ahead
        refine ⟨[0, 0], [0, 0], third :: rest, rfl, escaped, by decide, by decide, ?_⟩
        rw [h265_round_pair ahead other (by omega), if_neg plain]
        rfl
    · have escaped : escapeFrom 0 (0 :: second :: rest) =
          [0] ++ escapeFrom 0 (second :: rest) := by
        rw [escape_zero (by decide), escape_restart (fun both => absurd both.1 (by decide)) pair]
        rfl
      rw [escaped, escape_other (by simp) pair] at ahead
      simp only [List.length_cons] at fits
      exact ⟨[0], [0], second :: rest, rfl, escaped, Nat.one_pos, Nat.one_pos,
        h265_round_copy (zeros_then_other_false (zeros_ahead_single ahead pair)) ahead
          (by omega)⟩
  · have escaped : escapeFrom 0 (first :: rest) = [first] ++ escapeFrom 0 rest :=
      escape_other (by simp) zero
    rw [escaped] at ahead
    rw [List.length_cons] at fits
    exact ⟨[first], [first], rest, rfl, escaped, Nat.one_pos, Nat.one_pos,
      h265_round_copy (zeros_then_other_false (zeros_ahead_other ahead zero)) ahead (by omega)⟩

theorem h265_decodes (src behind : List UInt8) (len bound : Nat) (bytes : List UInt8)
    (short : bytes.length ≤ bound) {s left : Nat} {dst : List UInt8}
    (facing : Facing src behind len room 0 bytes s dst left) :
    Keeps dst bytes (whileBelow (len - 3) (h265Round src len room) left s dst) := by
  induction bound generalizing bytes s left dst with
  | zero =>
      apply facing.stopped
      have length := facing.length
      rw [List.length_eq_zero_iff.mp (Nat.le_zero.mp short), escapeFrom] at length
      simp only [List.length_nil] at length
      omega
  | succ bound ih =>
      by_cases near : s < len - 3
      · obtain ⟨taken, put, rest, parts, escaped, some', more, ran⟩ := facing.h265_goes_on near
        obtain ⟨left', same, facing'⟩ := facing.step escaped parts some' near ran
        have shorter := congrArg List.length parts
        rw [List.length_append] at shorter
        rw [same, parts]
        exact (ih rest (by omega) facing').after
      · exact facing.stopped near

theorem h265_round_eq {round : Round} (ran : h265Round src len room s dst = some round) :
    (∃ byte, round = .goesOn (s + 1) (dst ++ [byte])) ∨
      round = .goesOn (s + 2) (dst ++ [0, 0]) ∨
      ((round = .goesOn (s + 3) (dst ++ [0, 0]) ∧ s + 3 < len ∨
        round = .returns (dst ++ [0, 0]) ∧ len ≤ s + 3) ∧ zerosAhead src s = some true ∧
        src[s + 2]? = some 3) := by
  obtain ⟨hit, found, ran⟩ := Option.bind_eq_some_iff.mp ran
  cases hit with
  | false =>
      obtain ⟨byte, _, rfl, _⟩ := copy_byte_eq ran
      exact .inl ⟨byte, rfl⟩
  | true =>
      have zeros : zerosAhead src s = some true := by
        obtain ⟨both, ahead, other⟩ := Option.bind_eq_some_iff.mp found
        cases both with
        | true => exact ahead
        | false => cases other
      rw [if_pos rfl] at ran
      obtain ⟨after, stored, ran⟩ := Option.bind_eq_some_iff.mp ran
      obtain ⟨rfl, _⟩ := store_zeros_eq stored
      obtain ⟨escape, read, ran⟩ := Option.bind_eq_some_iff.mp ran
      split at ran
      · next three =>
          rw [three] at read
          obtain rfl := Option.some.inj ran
          refine .inr (.inr ⟨?_, zeros, read⟩)
          by_cases last : s + 3 ≥ len
          · exact .inr ⟨if_pos last, last⟩
          · exact .inl ⟨if_neg last, Nat.not_le.mp last⟩
      · exact .inr (.inl (Option.some.inj ran).symm)

theorem h265_round_grows {round : Round} (ran : h265Round src len room s dst = some round) :
    dst.length < round.dst.length := by
  rcases h265_round_eq ran with ⟨byte, rfl⟩ | rfl | ⟨⟨rfl, _⟩ | ⟨rfl, _⟩, _⟩ <;> simp [Round.dst]

theorem h265_far {bound : Nat} {out : List UInt8} (far : s + 2 ≤ bound)
    (ran : whileBelow bound (h265Round src len room) left s dst = some out) :
    dst.length + 2 ≤ out.length := by
  cases left with
  | zero => cases ran
  | succ left =>
      have grows := fun (s : Nat) (dst : List UInt8) (result : Round)
        (ran : h265Round src len room s dst = some result) => Nat.le_of_lt (h265_round_grows ran)
      rw [whileBelow, if_pos (by omega)] at ran
      obtain ⟨result, first, others⟩ := Option.bind_eq_some_iff.mp ran
      rcases h265_round_eq first with ⟨byte, rfl⟩ | rfl | ⟨⟨rfl, _⟩ | ⟨rfl, _⟩, _⟩
      · dsimp only at others
        cases left with
        | zero => cases others
        | succ left =>
            rw [whileBelow, if_pos (by omega)] at others
            obtain ⟨result, second, others⟩ := Option.bind_eq_some_iff.mp others
            have grown := h265_round_grows second
            rw [List.length_append, List.length_singleton] at grown
            cases result with
            | returns after =>
                cases others
                exact grown
            | goesOn next after => exact Nat.le_trans grown (while_below_grows grows others)
      · simpa using while_below_grows grows others
      · simpa using while_below_grows grows others
      · cases others
        simp

theorem size_sub_short (few : len < 3) : 2 ^ 64 - 3 ≤ sizeSub len 3 := by
  rw [sizeSub, if_neg (by omega)]
  omega

theorem h265_short_run {out : List UInt8} (few : len < 3)
    (ran : h265NalUnescape src len room = some out) :
    (out = [0, 0] ∧ src[2]? = some 3) ∨ 3 ≤ out.length := by
  have far := size_sub_short few
  rw [h265NalUnescape, whileBelow, if_pos (by omega)] at ran
  obtain ⟨result, first, others⟩ := Option.bind_eq_some_iff.mp ran
  rcases h265_round_eq first with ⟨byte, rfl⟩ | rfl | ⟨⟨rfl, more⟩ | ⟨rfl, _⟩, _, escape⟩
  · have grown := h265_far (by omega) others
    exact .inr grown
  · have grown := h265_far (by omega) others
    exact .inr (Nat.le_of_succ_le grown)
  · omega
  · exact .inl ⟨(Option.some.inj others).symm, escape⟩

theorem escape_short {bytes : List UInt8} (few : bytes.length < 3) : escape bytes = bytes := by
  rcases bytes with _ | ⟨first, _ | ⟨second, _ | ⟨third, rest⟩⟩⟩
  · rfl
  · rw [escape, escapeFrom, if_neg fun both => absurd both.1 (by decide), escapeFrom]
  · rw [escape, escapeFrom, if_neg fun both => absurd both.1 (by decide), escapeFrom, if_neg,
      escapeFrom]
    intro both
    have two := both.1
    split at two <;> omega
  · simp only [List.length_cons] at few
    omega

theorem h265_undone_iff (bytes behind : List UInt8) (spare : Nat) :
    Keeps [] bytes (h265NalUnescape (escape bytes ++ behind) (escape bytes).length
        ((escape bytes).length + spare)) ↔
      3 ≤ bytes.length ∨ (bytes = [0, 0] ∧ behind[0]? = some 3) := by
  constructor
  · intro keeps
    by_cases many : 3 ≤ bytes.length
    · exact .inl many
    · right
      obtain ⟨out, ran, front, _⟩ := keeps
      rw [escape_short (Nat.not_le.mp many), List.nil_append] at ran
      have shorter := front.length_le
      rcases h265_short_run (Nat.not_le.mp many) ran with ⟨rfl, escape⟩ | long
      · have same : [0, 0] = bytes := by
          apply front.eq_of_length_le
          simp only [List.length_cons, List.length_nil]
          omega
        subst same
        exact ⟨rfl, escape⟩
      · omega
  · intro fits
    rcases fits with many | ⟨rfl, next⟩
    · have longer := escape_length 0 bytes
      have keeps := h265_decodes _ behind _ bytes.length bytes (Nat.le_refl _)
        (facing_start bytes behind spare)
      have bound : sizeSub (escape bytes).length 3 = (escape bytes).length - 3 := by
        rw [sizeSub, if_pos]
        rw [escape]
        omega
      rw [h265NalUnescape, bound]
      exact keeps
    · obtain ⟨rest, rfl⟩ : ∃ rest, behind = 3 :: rest := by
        cases behind with
        | nil => cases next
        | cons byte rest =>
            rw [List.getElem?_cons_zero] at next
            exact ⟨rest, by rw [Option.some.inj next]⟩
      have there : (escape [0, 0] ++ 3 :: rest).drop 0 = 0 :: 0 :: 3 :: rest := rfl
      have nothing : ([] : List UInt8).length + 2 ≤ (escape [0, 0]).length + spare :=
        Nat.le_add_right 2 spare
      have pair : h265Round (escape [0, 0] ++ 3 :: rest) (escape [0, 0]).length
          ((escape [0, 0]).length + spare) 0 [] = some (.returns [0, 0]) :=
        (h265_round_pair there (by decide) nothing).trans rfl
      refine ⟨[0, 0], ?_, List.prefix_refl _, Nat.le_add_right _ _⟩
      rw [h265NalUnescape, while_below_returns (by decide) pair]
      rfl

end H265
/-! ## Both -/

/-- What is to come of escaped bytes, with `behind` after them in memory, in a buffer that is
as long as they are or longer. -/
structure Undone (bytes behind : List UInt8) (spare : Nat) : Prop where
  h264 : h264NalUnescape (escape bytes ++ behind) (escape bytes).length
    ((escape bytes).length + spare) = some bytes
  h265 : Keeps [] bytes (h265NalUnescape (escape bytes ++ behind) (escape bytes).length
    ((escape bytes).length + spare))

theorem nal_undone_iff (bytes behind : List UInt8) (spare : Nat) :
    Undone bytes behind spare ↔
      Undoable 0 bytes behind ∧ (3 ≤ bytes.length ∨ bytes = [0, 0]) := by
  constructor
  · intro undone
    refine ⟨(h264_undone_iff bytes behind spare).mp undone.h264, ?_⟩
    rcases (h265_undone_iff bytes behind spare).mp undone.h265 with many | two
    · exact .inl many
    · exact .inr two.1
  · intro both
    obtain ⟨undoable, long⟩ := both
    refine ⟨(h264_undone_iff bytes behind spare).mpr undoable, ?_⟩
    apply (h265_undone_iff bytes behind spare).mpr
    rcases long with many | rfl
    · exact .inl many
    · exact .inr ⟨rfl, undoable_pair.mp undoable⟩

/-- A one behind four zeros comes out with the second escape before it, two zeros at the end
with what lies behind, and a single byte has no end for the other decoder. -/
theorem zeros_not_undone :
    h264NalUnescape (escape [0, 0, 0, 0, 1]) 7 7 = some [0, 0, 0, 0, 3, 1] ∧
      h264NalUnescape (escape [1, 0, 0] ++ [7]) 3 4 = some [1, 0, 0, 7] ∧
      h265NalUnescape (escape [1] ++ [7]) 1 2 = none := by
  decide

end Xineliboutput.Elementary
