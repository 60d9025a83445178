import Mathlib

/-!
# Removal of emulation prevention

`h264_nal_unescape` and `h265_nal_unescape`. `src` is the memory from the pointer on, which may
reach behind the `len` bytes; `dst` is what has been written to a buffer of `room` bytes, so
that `d` is its length. A call is `none` where it reads or writes outside.
-/

namespace Xineliboutput.Elementary

set_option autoImplicit false

/-- A difference of `size_t`. -/
def sizeSub (first second : Nat) : Nat :=
  if second ≤ first then first - second else first + 2 ^ 64 - second

/-- What a round of the loops does. -/
inductive Round where
  | returns (dst : List UInt8)
  | goesOn (s : Nat) (dst : List UInt8)

/-- `dst[d++] = byte` -/
def store (room : Nat) (byte : UInt8) (dst : List UInt8) : Option (List UInt8) :=
  if dst.length < room then some (dst ++ [byte]) else none

/-- `dst[d] = dst[d+1] = 0` -/
def storeZeros (room : Nat) (dst : List UInt8) : Option (List UInt8) :=
  (store room 0 dst).bind (store room 0)

/-- `while (s < bound)`. A round reads `src[s]`, so that there are no more rounds than bytes. -/
def whileBelow (bound : Nat) (round : Nat → List UInt8 → Option Round) :
    Nat → Nat → List UInt8 → Option (List UInt8)
  | 0, _, _ => none
  | left + 1, s, dst =>
      if s < bound then
        (round s dst).bind fun result =>
          match result with
          | .returns dst => some dst
          | .goesOn s dst => whileBelow bound round left s dst
      else some dst

section Rounds

variable (src : List UInt8) (len room : Nat)

/-- `dst[d++] = src[s++]` -/
def copyByte (s : Nat) (dst : List UInt8) : Option Round := do
  let byte ← src[s]?
  let dst ← store room byte dst
  some (.goesOn (s + 1) dst)

/-- `!src[s] && !src[s+1]` -/
def zerosAhead (s : Nat) : Option Bool := do
  let first ← src[s]?
  if first = 0 then src[s + 1]?.map (· == 0) else some false

def h264Round (s : Nat) (dst : List UInt8) : Option Round := do
  let zeros ← zerosAhead src s
  if zeros then do
    let dst ← storeZeros room dst
    let escape ← src[s + 2]?
    if escape = 3 then
      if s + 3 ≥ len then some (.returns dst) else copyByte src room (s + 3) dst
    else copyByte src room (s + 2) dst
  else copyByte src room s dst

/-- `!src[s] && !src[s+1] && src[s+2]` -/
def zerosThenOther (s : Nat) : Option Bool := do
  let zeros ← zerosAhead src s
  if zeros then src[s + 2]?.map (· != 0) else some false

def h265Round (s : Nat) (dst : List UInt8) : Option Round := do
  let hit ← zerosThenOther src s
  if hit then do
    let dst ← storeZeros room dst
    let escape ← src[s + 2]?
    if escape = 3 then
      some (if s + 3 ≥ len then .returns dst else .goesOn (s + 3) dst)
    else some (.goesOn (s + 2) dst)
  else copyByte src room s dst

def h264NalUnescape : Option (List UInt8) :=
  whileBelow len (h264Round src len room) (src.length + 1) 0 []

def h265NalUnescape : Option (List UInt8) :=
  whileBelow (sizeSub len 3) (h265Round src len room) (src.length + 1) 0 []

end Rounds

/-! ## Rounds on what lies ahead -/

section Ahead

variable {src rest dst : List UInt8} {len room s : Nat} {byte : UInt8}

theorem read_ahead (there : src.drop s = rest) (k : Nat) : src[s + k]? = rest[k]? := by
  rw [← there, List.getElem?_drop]

theorem read_first (there : src.drop s = rest) : src[s]? = rest[0]? := read_ahead there 0

theorem drop_further (first : List UInt8) (there : src.drop s = first ++ rest) :
    src.drop (s + first.length) = rest := by
  rw [← List.drop_drop, there, List.drop_left]

theorem store_fits (fits : dst.length < room) : store room byte dst = some (dst ++ [byte]) :=
  if_pos fits

theorem store_zeros_fit (fits : dst.length + 2 ≤ room) :
    storeZeros room dst = some (dst ++ [0, 0]) := by
  have longer : (dst ++ [(0 : UInt8)]).length < room := by
    rw [List.length_append, List.length_singleton]
    omega
  rw [storeZeros, store_fits (by omega), Option.bind_some, store_fits longer, List.append_assoc]
  rfl

theorem copy_byte_run (there : src.drop s = byte :: rest) (fits : dst.length < room) :
    copyByte src room s dst = some (.goesOn (s + 1) (dst ++ [byte])) := by
  rw [copyByte, read_first there, List.getElem?_cons_zero, Option.bind_eq_bind, Option.bind_some,
    store_fits fits]
  rfl

theorem zeros_ahead_other (there : src.drop s = byte :: rest) (other : byte ≠ 0) :
    zerosAhead src s = some false := by
  rw [zerosAhead, read_first there, List.getElem?_cons_zero, Option.bind_eq_bind,
    Option.bind_some, if_neg other]

theorem zeros_ahead_zero (there : src.drop s = 0 :: rest) :
    zerosAhead src s = rest[0]?.map (· == 0) := by
  rw [zerosAhead, read_first there, List.getElem?_cons_zero, Option.bind_eq_bind,
    Option.bind_some, if_pos rfl, read_ahead there 1, List.getElem?_cons_succ]

theorem h264_round_copy (none : zerosAhead src s = some false)
    (there : src.drop s = byte :: rest) (fits : dst.length < room) :
    h264Round src len room s dst = some (.goesOn (s + 1) (dst ++ [byte])) := by
  rw [h264Round, none, Option.bind_eq_bind, Option.bind_some, if_neg Bool.false_ne_true,
    copy_byte_run there fits]

theorem zeros_ahead_single (there : src.drop s = 0 :: byte :: rest) (other : byte ≠ 0) :
    zerosAhead src s = some false := by
  rw [zeros_ahead_zero there, List.getElem?_cons_zero, Option.map_some,
    beq_eq_false_iff_ne.mpr other]

theorem zeros_ahead_pair (there : src.drop s = 0 :: 0 :: rest) : zerosAhead src s = some true := by
  rw [zeros_ahead_zero there]
  rfl

theorem h264_round_hit (zeros : zerosAhead src s = some true) (fits : dst.length + 2 ≤ room) :
    h264Round src len room s dst = src[s + 2]?.bind fun escape =>
      if escape = 3 then
        if s + 3 ≥ len then some (.returns (dst ++ [0, 0]))
        else copyByte src room (s + 3) (dst ++ [0, 0])
      else copyByte src room (s + 2) (dst ++ [0, 0]) := by
  rw [h264Round, zeros, Option.bind_eq_bind, Option.bind_some, if_pos rfl, store_zeros_fit fits,
    Option.bind_eq_bind, Option.bind_some]
  rfl

theorem h264_round_pair (there : src.drop s = 0 :: 0 :: byte :: rest) (plain : byte ≠ 3)
    (fits : dst.length + 3 ≤ room) :
    h264Round src len room s dst = some (.goesOn (s + 3) (dst ++ [0, 0, byte])) := by
  have longer : (dst ++ [(0 : UInt8), 0]).length < room := by
    rw [List.length_append]
    exact fits
  have next : src.drop (s + 2) = byte :: rest := drop_further [0, 0] there
  rw [h264_round_hit (zeros_ahead_pair there) (by omega), read_first next, List.getElem?_cons_zero,
    Option.bind_some, if_neg plain, copy_byte_run next longer, List.append_assoc]
  rfl

theorem h264_round_escape (there : src.drop s = 0 :: 0 :: 3 :: byte :: rest) (more : s + 3 < len)
    (fits : dst.length + 3 ≤ room) :
    h264Round src len room s dst = some (.goesOn (s + 4) (dst ++ [0, 0, byte])) := by
  have longer : (dst ++ [(0 : UInt8), 0]).length < room := by
    rw [List.length_append]
    exact fits
  have escape : src.drop (s + 2) = 3 :: byte :: rest := drop_further [0, 0] there
  have next : src.drop (s + 3) = byte :: rest := drop_further [0, 0, 3] there
  rw [h264_round_hit (zeros_ahead_pair there) (by omega), read_first escape,
    List.getElem?_cons_zero, Option.bind_some, if_pos rfl, if_neg (Nat.not_le.mpr more),
    copy_byte_run next longer, List.append_assoc]
  rfl

end Ahead

/-! ## Rounds of the loop -/

section Loop

variable {dst after : List UInt8} {bound left s next : Nat}
  {round : Nat → List UInt8 → Option Round}

theorem while_below_ends (long : bound ≤ s) :
    whileBelow bound round (left + 1) s dst = some dst := by
  rw [whileBelow, if_neg (Nat.not_lt.mpr long)]

theorem while_below_goes_on (short : s < bound) (ran : round s dst = some (.goesOn next after)) :
    whileBelow bound round (left + 1) s dst = whileBelow bound round left next after := by
  rw [whileBelow, if_pos short, ran]
  rfl

theorem while_below_returns (short : s < bound) (ran : round s dst = some (.returns after)) :
    whileBelow bound round (left + 1) s dst = some after := by
  rw [whileBelow, if_pos short, ran]
  rfl

theorem while_below_fails (short : s < bound) (ran : round s dst = none) :
    whileBelow bound round left s dst = none := by
  cases left with
  | zero => rfl
  | succ left =>
      rw [whileBelow, if_pos short, ran]
      rfl

end Loop
end Xineliboutput.Elementary
