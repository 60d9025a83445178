import Mathlib.Data.List.Basic

/-!
# Stripping timestamps from PES packets

`pes_strip_pts_dts` of `tools/pes.c` clears the timestamp flags of a packet, reduces its two
length fields and moves the rest of the packet over the timestamps. It moves by five bytes
also where it takes ten away.
-/

namespace Xineliboutput.Ts

set_option autoImplicit false

/-- `memmove` inside one buffer -/
def memmove (dest src count : Nat) (buf : List UInt8) : List UInt8 :=
  buf.take dest ++ (buf.drop src).take count ++ buf.drop (dest + count)

def byteAt (buf : List UInt8) (index : Nat) : UInt8 := buf.getD index 0

def hasPts (buf : List UInt8) : Bool := byteAt buf 7 &&& 0x80 != 0

def hasDts (buf : List UInt8) : Bool := byteAt buf 7 &&& 0x40 != 0

def pesLength (buf : List UInt8) : Nat := (byteAt buf 4).toNat * 256 + (byteAt buf 5).toNat

def stripFlags (n : Nat) (buf : List UInt8) : List UInt8 :=
  let pesLen : Int := pesLength buf - n
  (((buf.set 4 (.ofNat (pesLen / 256 % 256).toNat)).set 5 (.ofNat (pesLen % 256).toNat)).set 7
    (byteAt buf 7 &&& 0x3f)).set 8 (byteAt buf 8 - .ofNat n)

/-- `pes_strip_pts_dts`: the buffer and the new size of the packet in it. -/
def pesStripPtsDts (buf : List UInt8) : List UInt8 × Nat :=
  let size := buf.length
  if 13 < size ∧ hasPts buf = true then
    if byteAt buf 6 &&& 0xc0 ≠ 0x80 then (buf, size)
    else if byteAt buf 6 &&& 0x30 ≠ 0 then (buf, size)
    else
      let n := if 18 < size ∧ hasDts buf = true then 10 else 5
      (memmove (4 + n) (9 + n) (size - 9 - n) (stripFlags n buf), size - n)
  else (buf, size)

/-! ## What is asked -/

def stampBytes (buf : List UInt8) : Nat := if hasDts buf then 10 else 5

structure Stamped (buf : List UInt8) : Prop where
  size : 13 < buf.length
  pts : hasPts buf = true
  mpeg2 : byteAt buf 6 &&& 0xc0 = 0x80
  unscrambled : byteAt buf 6 &&& 0x30 = 0
  covers : stampBytes buf ≤ (byteAt buf 8).toNat

/-- The elementary stream is kept: of a packet the timestamps are gone, and nothing else. -/
structure Stripped (buf : List UInt8) (result : List UInt8 × Nat) : Prop where
  size : result.2 + stampBytes buf = buf.length
  start : (result.1.take result.2).take 4 = buf.take 4
  length : pesLength (result.1.take result.2) + stampBytes buf = pesLength buf
  headerLength :
    (byteAt (result.1.take result.2) 8).toNat + stampBytes buf = (byteAt buf 8).toNat
  flags : hasPts (result.1.take result.2) = false ∧ hasDts (result.1.take result.2) = false
  optional : ((result.1.take result.2).drop 9).take (byteAt (result.1.take result.2) 8).toNat =
    (buf.drop (9 + stampBytes buf)).take ((byteAt buf 8).toNat - stampBytes buf)
  payload : (result.1.take result.2).drop (9 + (byteAt (result.1.take result.2) 8).toNat) =
    buf.drop (9 + (byteAt buf 8).toNat)

/-- The length field can be reduced, and where there are two timestamps, the packet holds
both, and all that is behind them repeats the bytes of the first. -/
structure Strippable (buf : List UInt8) : Prop where
  length : stampBytes buf ≤ pesLength buf
  both : hasDts buf = true → 18 < buf.length ∧ buf.drop 19 <+: (buf.drop 9).take 5 ++ buf.drop 19

/-! ## Moving over the timestamps -/

theorem memmove_gap (front gap rest : List UInt8) :
    memmove front.length (front.length + gap.length) rest.length (front ++ (gap ++ rest)) =
      front ++ rest ++ (gap ++ rest).drop rest.length := by
  rw [memmove, List.take_left, ← List.drop_drop, List.drop_left, List.drop_left, List.take_length,
    ← List.drop_drop, List.drop_left]

/-- The first nine bytes, and what is behind them. -/
structure Split (buf : List UInt8) where
  b0 : UInt8
  b1 : UInt8
  b2 : UInt8
  b3 : UInt8
  b4 : UInt8
  b5 : UInt8
  b6 : UInt8
  b7 : UInt8
  b8 : UInt8
  tail : List UInt8
  whole : buf = [b0, b1, b2, b3, b4, b5, b6, b7, b8] ++ tail

theorem split_header {buf : List UInt8} (long : 9 ≤ buf.length) : Nonempty (Split buf) := by
  rcases buf with _ | ⟨b0, _ | ⟨b1, _ | ⟨b2, _ | ⟨b3, _ | ⟨b4, _ | ⟨b5, _ | ⟨b6, _ | ⟨b7, _ |
    ⟨b8, tail⟩⟩⟩⟩⟩⟩⟩⟩⟩
  all_goals first
    | exact ⟨⟨b0, b1, b2, b3, b4, b5, b6, b7, b8, tail, rfl⟩⟩
    | simp at long

variable {buf : List UInt8}

/-- What lies in front of the payload is nine bytes and the timestamps that are not moved
over. -/
theorem strip_result (stamped : Stamped buf) {n : Nat}
    (taken : n = if 18 < buf.length ∧ hasDts buf = true then 10 else 5) :
    (pesStripPtsDts buf).2 = buf.length - n ∧
      (pesStripPtsDts buf).1.take (pesStripPtsDts buf).2 = stripFlags n (buf.take 9) ++
        ((buf.drop 9).take (n - 5) ++ buf.drop (9 + n)).take (buf.length - 9 - n) := by
  have size := stamped.size
  have few : 5 ≤ n ∧ 9 + n ≤ buf.length := by
    rw [taken]
    split <;> omega
  have performed : pesStripPtsDts buf =
      (memmove (4 + n) (9 + n) (buf.length - 9 - n) (stripFlags n buf), buf.length - n) := by
    simp only [pesStripPtsDts, stamped.size, stamped.pts, stamped.mpeg2, stamped.unscrambled,
      and_self, if_true, ne_eq, not_true_eq_false, if_false, ← taken]
  obtain ⟨split⟩ := split_header (show 9 ≤ buf.length by omega)
  have flags : stripFlags n buf = stripFlags n (buf.take 9) ++ buf.drop 9 := by
    rw [split.whole]
    rfl
  have header : (stripFlags n (buf.take 9)).length = 9 := by
    rw [split.whole]
    rfl
  have parts : buf.drop 9 = (buf.drop 9).take (n - 5) ++
      ((buf.drop (4 + n)).take 5 ++ buf.drop (9 + n)) := by
    have gap := List.take_append_drop 5 (buf.drop (4 + n))
    rw [List.drop_drop, show 4 + n + 5 = 9 + n by omega] at gap
    have kept := List.take_append_drop (n - 5) (buf.drop 9)
    rw [List.drop_drop, show 9 + (n - 5) = 4 + n by omega] at kept
    rw [gap, kept]
  generalize front : stripFlags n (buf.take 9) ++ (buf.drop 9).take (n - 5) = kept
  have moved : memmove (4 + n) (9 + n) (buf.length - 9 - n) (stripFlags n buf) =
      kept ++ buf.drop (9 + n) ++
        ((buf.drop (4 + n)).take 5 ++ buf.drop (9 + n)).drop (buf.drop (9 + n)).length := by
    have before : kept.length = 4 + n := by
      rw [← front, List.length_append, header, List.length_take, List.length_drop]
      omega
    have gap : ((buf.drop (4 + n)).take 5).length = 5 := by
      rw [List.length_take, List.length_drop]
      omega
    have rest : (buf.drop (9 + n)).length = buf.length - 9 - n := by
      rw [List.length_drop]
      omega
    have closed := memmove_gap kept ((buf.drop (4 + n)).take 5) (buf.drop (9 + n))
    rw [before, gap, rest, show 4 + n + 5 = 9 + n by omega] at closed
    rw [rest, ← closed, flags, parts, ← List.append_assoc, front]
  rw [performed]
  refine ⟨rfl, ?_⟩
  simp only []
  rw [moved, ← front, List.append_assoc, List.append_assoc, List.take_append, header,
    List.take_of_length_le (by omega)]
  congr 1
  rw [← List.append_assoc, List.take_append_of_le_length]
  · congr 1
    omega
  · rw [List.length_append, List.length_take, List.length_drop, List.length_drop]
    omega

/-! ## The new header -/

theorem clear_flags (flags : UInt8) :
    (flags &&& 0x3f) &&& 0x80 = 0 ∧ (flags &&& 0x3f) &&& 0x40 = 0 := by
  rw [UInt8.and_assoc, UInt8.and_assoc]
  exact ⟨UInt8.and_zero, UInt8.and_zero⟩

theorem reduced_length (first second : UInt8) (n : Nat) :
    (UInt8.ofNat (((first.toNat * 256 + second.toNat : Nat) - n : Int) / 256 % 256).toNat).toNat *
        256 +
      (UInt8.ofNat (((first.toNat * 256 + second.toNat : Nat) - n : Int) % 256).toNat).toNat =
      (((first.toNat * 256 + second.toNat : Nat) - n : Int) % 65536).toNat := by
  simp only [UInt8.toNat_ofNat']
  omega

theorem strip_flags_header (long : 9 ≤ buf.length) (n : Nat) (body : List UInt8) :
    (stripFlags n (buf.take 9) ++ body).take 4 = buf.take 4 ∧
      pesLength (stripFlags n (buf.take 9) ++ body) = ((pesLength buf - n : Int) % 65536).toNat ∧
      byteAt (stripFlags n (buf.take 9) ++ body) 8 = byteAt buf 8 - .ofNat n ∧
      hasPts (stripFlags n (buf.take 9) ++ body) = false ∧
      hasDts (stripFlags n (buf.take 9) ++ body) = false ∧
      (stripFlags n (buf.take 9)).length = 9 := by
  obtain ⟨split⟩ := split_header long
  rw [split.whole]
  refine ⟨rfl, reduced_length split.b4 split.b5 n, rfl, ?_, ?_, rfl⟩
  · have cleared := (clear_flags split.b7).1
    simpa [hasPts, byteAt, stripFlags] using cleared
  · have cleared := (clear_flags split.b7).2
    simpa [hasDts, byteAt, stripFlags] using cleared

theorem pes_length_small (buf : List UInt8) : pesLength buf < 65536 := by
  have first := (byteAt buf 4).toNat_lt
  have second := (byteAt buf 5).toNat_lt
  unfold pesLength
  omega

/-- With the right amount taken away, the elementary stream is kept if the length is not
too small and the bytes behind the timestamps follow the header. -/
theorem stripped_iff (stamped : Stamped buf) {body : List UInt8} {result : List UInt8 × Nat}
    (size : result.2 + stampBytes buf = buf.length)
    (taken : result.1.take result.2 = stripFlags (stampBytes buf) (buf.take 9) ++ body) :
    Stripped buf result ↔
      stampBytes buf ≤ pesLength buf ∧ body = buf.drop (9 + stampBytes buf) := by
  have long : 9 ≤ buf.length := by
    have size := stamped.size
    omega
  obtain ⟨start, length, headerLength, pts, dts, header⟩ :=
    strip_flags_header long (stampBytes buf) body
  have covers := stamped.covers
  have few : stampBytes buf ≤ 10 := by
    unfold stampBytes
    split <;> omega
  have small := pes_length_small buf
  have reduced : (byteAt buf 8 - UInt8.ofNat (stampBytes buf)).toNat =
      (byteAt buf 8).toNat - stampBytes buf := by
    have bound := (byteAt buf 8).toNat_lt
    rw [UInt8.toNat_sub, UInt8.toNat_ofNat']
    omega
  have behind : (stripFlags (stampBytes buf) (buf.take 9) ++ body).drop 9 = body := by
    rw [List.drop_left' header]
  constructor
  · intro stripped
    have lengths := stripped.length
    have optional := stripped.optional
    have payload := stripped.payload
    rw [taken, length] at lengths
    rw [taken, headerLength, reduced, behind] at optional
    rw [taken, headerLength, reduced, ← List.drop_drop, behind] at payload
    refine ⟨by omega, ?_⟩
    have rest := List.take_append_drop ((byteAt buf 8).toNat - stampBytes buf)
      (buf.drop (9 + stampBytes buf))
    rw [List.drop_drop, show 9 + stampBytes buf + ((byteAt buf 8).toNat - stampBytes buf) =
      9 + (byteAt buf 8).toNat by omega] at rest
    calc
      body = body.take ((byteAt buf 8).toNat - stampBytes buf) ++
          body.drop ((byteAt buf 8).toNat - stampBytes buf) := (List.take_append_drop _ body).symm
      _ = buf.drop (9 + stampBytes buf) := by rw [optional, payload, rest]
  · rintro ⟨enough, rfl⟩
    constructor
    case size => exact size
    case start => rw [taken, start]
    case length =>
      rw [taken, length]
      omega
    case headerLength =>
      rw [taken, headerLength, reduced]
      omega
    case flags =>
      rw [taken]
      exact ⟨pts, dts⟩
    case optional => rw [taken, headerLength, reduced, behind]
    case payload =>
      rw [taken, headerLength, reduced, ← List.drop_drop, behind, List.drop_drop]
      congr 1
      omega

/-- The function keeps the elementary stream if and only if there is no second timestamp,
or moving the rest by five bytes makes no difference to moving it by ten. -/
theorem strips_iff_strippable (stamped : Stamped buf) :
    Stripped buf (pesStripPtsDts buf) ↔ Strippable buf := by
  have long := stamped.size
  by_cases cut : hasDts buf = true ∧ buf.length ≤ 18
  · obtain ⟨size, -⟩ := strip_result stamped (n := 5) (if_neg fun both => by omega).symm
    have two : stampBytes buf = 10 := by
      rw [stampBytes, if_pos cut.1]
    constructor
    · intro stripped
      have sizes := stripped.size
      omega
    · intro strippable
      have whole := (strippable.both cut.1).1
      omega
  have amount : stampBytes buf = if 18 < buf.length ∧ hasDts buf = true then 10 else 5 := by
    rw [stampBytes]
    by_cases dts : hasDts buf = true
    · have room : 18 < buf.length := by
        by_contra few
        exact cut ⟨dts, by omega⟩
      rw [if_pos dts, if_pos ⟨room, dts⟩]
    · rw [if_neg dts, if_neg fun both => dts both.2]
  obtain ⟨size, taken⟩ := strip_result stamped amount
  have all : (pesStripPtsDts buf).2 + stampBytes buf = buf.length := by
    have few : stampBytes buf ≤ 10 := by
      rw [stampBytes]
      split <;> omega
    omega
  rw [stripped_iff stamped all taken]
  by_cases dts : hasDts buf = true
  · have two : stampBytes buf = 10 := by
      rw [stampBytes, if_pos dts]
    have room : 18 < buf.length := by
      by_contra few
      exact cut ⟨dts, by omega⟩
    have repeats : ((buf.drop 9).take 5 ++ buf.drop 19).take (buf.length - 9 - 10) = buf.drop 19 ↔
        buf.drop 19 <+: (buf.drop 9).take 5 ++ buf.drop 19 := by
      rw [List.prefix_iff_eq_take, List.length_drop, Nat.sub_sub]
      exact eq_comm
    rw [two]
    constructor
    · rintro ⟨enough, same⟩
      exact ⟨two ▸ enough, fun _ => ⟨room, repeats.mp same⟩⟩
    · intro strippable
      exact ⟨two ▸ strippable.length, repeats.mpr (strippable.both dts).2⟩
  · have one : stampBytes buf = 5 := by
      rw [stampBytes, if_neg dts]
    have all : ((buf.drop 9).take (5 - 5) ++ buf.drop (9 + 5)).take (buf.length - 9 - 5) =
        buf.drop (9 + 5) := by
      rw [Nat.sub_self, List.take_zero, List.nil_append]
      apply List.take_of_length_le
      rw [List.length_drop]
      omega
    rw [one, all]
    constructor
    · rintro ⟨enough, -⟩
      exact ⟨one ▸ enough, fun both => absurd both dts⟩
    · intro strippable
      exact ⟨one ▸ strippable.length, rfl⟩

/-- A packet with a presentation timestamp only. -/
theorem strips_iff_strippable_one_stamp :
    Stripped [0, 0, 1, 0xe0, 0, 10, 0x80, 0x80, 5, 0x21, 0, 1, 0, 1, 7, 8]
        (pesStripPtsDts [0, 0, 1, 0xe0, 0, 10, 0x80, 0x80, 5, 0x21, 0, 1, 0, 1, 7, 8]) ↔
      Strippable [0, 0, 1, 0xe0, 0, 10, 0x80, 0x80, 5, 0x21, 0, 1, 0, 1, 7, 8] :=
  strips_iff_strippable ⟨by decide, rfl, rfl, rfl, by decide⟩

/-- With two timestamps the first is still there, in front of the payload. -/
theorem second_stamp_moved_short :
    ¬ Stripped [0, 0, 1, 0xe0, 0, 15, 0x80, 0xc0, 10, 0x31, 0, 1, 0, 1, 0x11, 0, 1, 0, 1, 7, 8]
      (pesStripPtsDts
        [0, 0, 1, 0xe0, 0, 15, 0x80, 0xc0, 10, 0x31, 0, 1, 0, 1, 0x11, 0, 1, 0, 1, 7, 8]) := by
  intro stripped
  exact absurd stripped.payload (by decide)

end Xineliboutput.Ts
