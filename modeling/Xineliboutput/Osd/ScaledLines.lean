import Xineliboutput.Osd.ScaleNearest

/-!
# Which lines of a scaled image there are

The rounds of `rle_scale_nearest` by the sizes alone: which old line each of the new lines
comes from, and for which heights there are as many as asked for. Scaling up always ends
one line early.
-/

namespace Xineliboutput.Osd

set_option autoImplicit false

/-! ## Positions -/

section Positions

variable {newSize oldSize : Nat}

variable (newSize oldSize) in
theorem scale_factor_mul_le : scaleFactor newSize oldSize * oldSize ≤ 256 * newSize % 2 ^ 32 :=
  Nat.div_mul_le_self _ _

theorem scaled_inside {position : Nat} (inside : position ≤ oldSize) :
    scaled (scaleFactor newSize oldSize) position =
      scaleFactor newSize oldSize * position / 256 := by
  have bound : scaleFactor newSize oldSize * position ≤ 256 * newSize % 2 ^ 32 :=
    Nat.le_trans (Nat.mul_le_mul_left _ inside) (scale_factor_mul_le _ _)
  have small : 256 * newSize % 2 ^ 32 < 2 ^ 32 := Nat.mod_lt _ (by decide)
  rw [scaled, Nat.mod_eq_of_lt (by omega)]

theorem scaled_zero (factor : Nat) : scaled factor 0 = 0 := by simp [scaled]

theorem scaled_mono {first second : Nat} (le : first ≤ second) (inside : second ≤ oldSize) :
    scaled (scaleFactor newSize oldSize) first ≤ scaled (scaleFactor newSize oldSize) second := by
  rw [scaled_inside (Nat.le_trans le inside), scaled_inside inside]
  exact Nat.div_le_div_right (Nat.mul_le_mul_left _ le)

theorem scaled_le {position : Nat} (inside : position ≤ oldSize) :
    scaled (scaleFactor newSize oldSize) position ≤ newSize := by
  have bound : scaleFactor newSize oldSize * position ≤ 256 * newSize % 2 ^ 32 :=
    Nat.le_trans (Nat.mul_le_mul_left _ inside) (scale_factor_mul_le _ _)
  have whole : 256 * newSize % 2 ^ 32 ≤ 256 * newSize := Nat.mod_le _ _
  rw [scaled_inside inside]
  omega

end Positions

/-! ## Rounds -/

/-- One round for an old line: the old line that is next, and how often the line comes. -/
def lineRound (h newH oldY newY : Nat) : Nat × Nat :=
  let factorY := scaleFactor newH h
  if 256 < factorY then
    let dup := if oldY + 1 = h then intOfUnsigned (newH - (newY + 1 : Nat) - 1 : Int)
      else intOfUnsigned (scaled factorY (oldY + 1) - (newY + 1 : Nat) : Int)
    (oldY + 1, 1 + repeats dup (newY + 1) newH)
  else if factorY < 256 then
    let skip := if oldY + 1 + 1 = h ∧ newY + 1 < newH then 0
      else sub32 (newY + 1) (scaled factorY (oldY + 1))
    (oldY + 1 + min skip (h - (oldY + 1)), 1)
  else (oldY + 1, 1)

def pickedLines (h newH : Nat) : Nat → Nat → Nat → List Nat
  | 0, _, _ => []
  | rounds + 1, oldY, newY =>
      if oldY < h then
        let (next, copies) := lineRound h newH oldY newY
        List.replicate copies oldY ++ pickedLines h newH rounds next (newY + copies)
      else []

section Lines

variable {h newH : Nat}

variable (h newH) in
theorem line_round_next (oldY newY : Nat) : oldY < (lineRound h newH oldY newY).1 := by
  unfold lineRound
  simp only
  split
  · exact Nat.lt_succ_self oldY
  · split
    · exact Nat.lt_of_lt_of_le (Nat.lt_succ_self oldY) (Nat.le_add_right _ _)
    · exact Nat.lt_succ_self oldY

theorem picked_lines_inside (rounds oldY newY : Nat) :
    ∀ line ∈ pickedLines h newH rounds oldY newY, oldY ≤ line ∧ line < h := by
  induction rounds generalizing oldY newY with
  | zero =>
      intro line member
      cases member
  | succ rounds ih =>
      intro line member
      rw [pickedLines] at member
      split at member
      · rename_i inside
        have onward := line_round_next h newH oldY newY
        cases List.mem_append.mp member with
        | inl here =>
            rw [List.eq_of_mem_replicate here]
            exact ⟨Nat.le_refl _, inside⟩
        | inr later =>
            have place := ih _ _ line later
            exact ⟨Nat.le_trans (Nat.le_of_lt onward) place.1, place.2⟩
      · cases member

theorem picked_lines_sorted (rounds oldY newY : Nat) :
    (pickedLines h newH rounds oldY newY).Pairwise (· ≤ ·) := by
  induction rounds generalizing oldY newY with
  | zero => exact List.Pairwise.nil
  | succ rounds ih =>
      rw [pickedLines]
      split
      · apply List.pairwise_append.mpr
        refine ⟨List.pairwise_replicate.mpr (.inr (Nat.le_refl oldY)), ih _ _, ?_⟩
        intro here member later behind
        have onward := line_round_next h newH oldY newY
        have place := picked_lines_inside rounds _ _ later behind
        rw [List.eq_of_mem_replicate member]
        exact Nat.le_trans (Nat.le_of_lt onward) place.1
      · exact List.Pairwise.nil

/-! ## How many -/

theorem picked_lines_past {oldY : Nat} (past : h ≤ oldY) (rounds newY : Nat) :
    pickedLines h newH rounds oldY newY = [] := by
  cases rounds with
  | zero => rfl
  | succ rounds => rw [pickedLines, if_neg (Nat.not_lt.mpr past)]

theorem picked_even (even : scaleFactor newH h = 256) (rounds oldY newY : Nat)
    (enough : h ≤ oldY + rounds) :
    (pickedLines h newH rounds oldY newY).length = h - oldY := by
  induction rounds generalizing oldY newY with
  | zero =>
      rw [pickedLines, List.length_nil]
      omega
  | succ rounds ih =>
      rw [pickedLines]
      split
      · have round : lineRound h newH oldY newY = (oldY + 1, 1) := by
          simp [lineRound, even]
        rw [round, List.length_append, List.length_replicate, ih _ _ (by omega)]
        omega
      · rw [List.length_nil]
        omega

/-- `dup` of the last line, as far as the loop gets with it. -/
theorem repeats_last {newY : Nat} (bounded : newH < 2 ^ 32) (room : newY + 1 < newH) :
    repeats (intOfUnsigned (newH - (newY + 1 : Nat) - 1 : Int)) (newY + 1) newH =
      newH - (newY + 2) := by
  have missing : (newH - (newY + 1 : Nat) - 1 : Int) = ((newH - (newY + 2) : Nat) : Int) := by
    omega
  rw [missing, repeats]
  by_cases small : newH - (newY + 2) < 2 ^ 31
  · rw [int_of_unsigned_small small, if_neg (by omega), Int.toNat_natCast]
    omega
  · -- a negative `dup` leaves the end to the other condition
    have negative : intOfUnsigned ((newH - (newY + 2) : Nat) : Int) < 0 := by
      rw [intOfUnsigned, Int.bmod_def, if_neg (by omega)]
      omega
    rw [if_pos negative]

section Up

variable (up : 256 < scaleFactor newH h)
include up

theorem scaled_up_succ {position : Nat} (inside : position < h) :
    scaled (scaleFactor newH h) position < scaled (scaleFactor newH h) (position + 1) := by
  rw [scaled_inside (Nat.le_of_lt inside), scaled_inside inside, Nat.mul_succ]
  omega

theorem scaled_up_room {position : Nat} (inside : position < h) :
    scaled (scaleFactor newH h) position + 1 < newH := by
  have whole := scale_factor_mul_le newH h
  have product : scaleFactor newH h * (position + 1) ≤ scaleFactor newH h * h :=
    Nat.mul_le_mul_left _ inside
  have wraps : 256 * newH % 2 ^ 32 ≤ 256 * newH := Nat.mod_le _ _
  rw [scaled_inside (Nat.le_of_lt inside)]
  rw [Nat.mul_succ] at product
  omega

/-- The round of an old line reaches the place of the next one, and the last round leaves
one line out. -/
theorem line_round_up {oldY : Nat} (bounded : newH < 2 ^ 32) (inside : oldY < h) :
    lineRound h newH oldY (scaled (scaleFactor newH h) oldY) =
      if oldY + 1 = h then (h, newH - 1 - scaled (scaleFactor newH h) oldY)
      else (oldY + 1,
        scaled (scaleFactor newH h) (oldY + 1) - scaled (scaleFactor newH h) oldY) := by
  have room := scaled_up_room up inside
  have longer := scaled_up_succ up inside
  rw [lineRound, if_pos up]
  by_cases last : oldY + 1 = h
  · simp only [if_pos last, repeats_last bounded room]
    rw [Prod.mk.injEq]
    exact ⟨last, by omega⟩
  · have next := scaled_up_room up (show oldY + 1 < h by omega)
    have small : scaled (scaleFactor newH h) (oldY + 1) < 2 ^ 24 := by
      rw [scaled]
      omega
    have copies : (scaled (scaleFactor newH h) (oldY + 1) -
        (scaled (scaleFactor newH h) oldY + 1 : Nat) : Int) =
        ((scaled (scaleFactor newH h) (oldY + 1) - (scaled (scaleFactor newH h) oldY + 1) : Nat) :
          Int) := by
      omega
    simp only [if_neg last, copies]
    rw [int_of_unsigned_small (by omega), repeats, if_neg (by omega), Int.toNat_natCast,
      Prod.mk.injEq]
    exact ⟨rfl, by omega⟩

theorem picked_up (bounded : newH < 2 ^ 32) (rounds oldY : Nat) (inside : oldY < h)
    (enough : h ≤ oldY + rounds) :
    scaled (scaleFactor newH h) oldY +
        (pickedLines h newH rounds oldY (scaled (scaleFactor newH h) oldY)).length + 1 = newH := by
  induction rounds generalizing oldY with
  | zero => omega
  | succ rounds ih =>
      have room := scaled_up_room up inside
      have longer := scaled_up_succ up inside
      rw [pickedLines, if_pos inside, line_round_up up bounded inside]
      by_cases last : oldY + 1 = h
      · simp only [if_pos last, picked_lines_past (Nat.le_refl h), List.append_nil,
          List.length_replicate]
        omega
      · have reaches : scaled (scaleFactor newH h) oldY +
            (scaled (scaleFactor newH h) (oldY + 1) - scaled (scaleFactor newH h) oldY) =
            scaled (scaleFactor newH h) (oldY + 1) := by omega
        have onward := ih (oldY + 1) (by omega) (by omega)
        simp only [if_neg last, reaches, List.length_append, List.length_replicate]
        omega

end Up

/-! ## Scaling down -/

def lineStart (factorY : Nat) : Nat → Nat
  | 0 => 0
  | kept + 1 =>
      let behind := lineStart factorY kept + 1
      behind + (kept + 1 - factorY * behind / 256)

/-- The line that is last of the new ones is inside, or only one old line is left for it,
and none is left behind it. -/
def KeepsLines (h newH : Nat) : Prop :=
  let factorY := scaleFactor newH h
  (lineStart factorY (newH - 1) < h ∨ lineStart factorY (newH - 2) + 2 = h) ∧
    h ≤ lineStart factorY newH

instance (h newH : Nat) : Decidable (KeepsLines h newH) := inferInstanceAs (Decidable (_ ∧ _))

theorem line_start_succ (factorY kept : Nat) :
    lineStart factorY kept < lineStart factorY (kept + 1) :=
  Nat.lt_of_lt_of_le (Nat.lt_succ_self _) (Nat.le_add_right _ _)

theorem line_start_add (factorY kept more : Nat) :
    lineStart factorY kept + more ≤ lineStart factorY (kept + more) := by
  induction more with
  | zero => exact Nat.le_refl _
  | succ more ih =>
      have onward := line_start_succ factorY (kept + more)
      rw [← Nat.add_assoc kept]
      omega

theorem line_start_mono (factorY : Nat) {first second : Nat} (le : first ≤ second) :
    lineStart factorY first + (second - first) ≤ lineStart factorY second := by
  have onward := line_start_add factorY first (second - first)
  rwa [Nat.add_sub_cancel' le] at onward

theorem line_start_place {factorY : Nat} (down : factorY < 256) (kept : Nat) :
    factorY * (lineStart factorY kept + 1) / 256 ≤ kept + 1 := by
  induction kept with
  | zero =>
      rw [lineStart]
      omega
  | succ kept ih =>
      rw [lineStart]
      generalize lineStart factorY kept + 1 = behind at ih ⊢
      have dropped : factorY * (kept + 1 - factorY * behind / 256 + 1) ≤
          256 * (kept + 1 - factorY * behind / 256 + 1) :=
        Nat.mul_le_mul_right _ (Nat.le_of_lt down)
      rw [Nat.add_assoc, Nat.mul_add]
      omega

/-- A round begins a line, and drops lines up to where the next one begins. -/
theorem line_round_down (down : scaleFactor newH h < 256) {kept : Nat} (few : kept + 1 < 2 ^ 32)
    (inside : lineStart (scaleFactor newH h) kept < h) :
    lineRound h newH (lineStart (scaleFactor newH h) kept) kept =
      if lineStart (scaleFactor newH h) kept + 2 = h ∧ kept + 1 < newH then (h - 1, 1)
      else (min (lineStart (scaleFactor newH h) (kept + 1)) h, 1) := by
  have place := line_start_place down kept
  rw [lineRound, if_neg (by omega)]
  simp only [if_pos down, scaled_inside (Nat.succ_le_of_lt inside), lineStart]
  by_cases left : lineStart (scaleFactor newH h) kept + 1 + 1 = h ∧ kept + 1 < newH
  · rw [if_pos left, if_pos left, Nat.zero_min]
    simp only [Prod.mk.injEq, and_true]
    omega
  · have unsigned : sub32 (kept + 1)
        (scaleFactor newH h * (lineStart (scaleFactor newH h) kept + 1) / 256) =
        kept + 1 - scaleFactor newH h * (lineStart (scaleFactor newH h) kept + 1) / 256 := by
      rw [sub32]
      omega
    rw [if_neg left, if_neg left, unsigned]
    simp only [Prod.mk.injEq, and_true]
    omega

theorem line_round_once (down : scaleFactor newH h < 256) (oldY newY : Nat) :
    (lineRound h newH oldY newY).2 = 1 := by
  rw [lineRound, if_neg (by omega)]
  simp only [if_pos down]

theorem picked_down_last (down : scaleFactor newH h < 256) (some_lines : 0 < h)
    (rounds newY : Nat) : (pickedLines h newH (rounds + 1) (h - 1) newY).length = 1 := by
  have onward := line_round_next h newH (h - 1) newY
  have last : h - 1 < h := by omega
  have past : h ≤ (lineRound h newH (h - 1) newY).1 := by omega
  rw [pickedLines, if_pos last]
  simp only [line_round_once down, picked_lines_past past]
  rfl

section Down

variable {kept : Nat} (inside : lineStart (scaleFactor newH h) kept < h)
include inside

theorem keeps_lines_left (left : lineStart (scaleFactor newH h) kept + 2 = h)
    (missing : kept + 1 < newH) : kept + 2 = newH ↔ KeepsLines h newH := by
  constructor
  · intro same
    subst same
    have onward := line_start_add (scaleFactor (kept + 2) h) kept 2
    exact ⟨.inr left, by omega⟩
  · intro keeps
    obtain ⟨begins, -⟩ := keeps
    have second := line_start_mono (scaleFactor newH h) (show kept ≤ newH - 2 by omega)
    have last := line_start_mono (scaleFactor newH h) (show kept ≤ newH - 1 by omega)
    omega

theorem keeps_lines_last (ends : h ≤ lineStart (scaleFactor newH h) (kept + 1))
    (not_left : ¬ (lineStart (scaleFactor newH h) kept + 2 = h ∧ kept + 1 < newH)) :
    kept + 1 = newH ↔ kept < newH ∧ KeepsLines h newH := by
  constructor
  · intro same
    subst same
    exact ⟨Nat.lt_succ_self kept, .inl inside, ends⟩
  · intro keeps
    obtain ⟨missing, begins, -⟩ := keeps
    by_contra more
    have second := line_start_mono (scaleFactor newH h) (show kept ≤ newH - 2 by omega)
    have last := line_start_mono (scaleFactor newH h) (show kept + 1 ≤ newH - 1 by omega)
    by_cases next : newH - 2 = kept
    · rw [next] at begins
      omega
    · have third := line_start_mono (scaleFactor newH h) (show kept + 1 ≤ newH - 2 by omega)
      omega

end Down

/-- From the line behind `kept` lines on, there come as many as are missing exactly if
the condition holds and lines are missing. -/
theorem picked_down (down : scaleFactor newH h < 256) (hBound : h < 2 ^ 32) (rounds kept : Nat)
    (inside : lineStart (scaleFactor newH h) kept < h)
    (enough : h ≤ lineStart (scaleFactor newH h) kept + rounds) :
    kept + (pickedLines h newH rounds (lineStart (scaleFactor newH h) kept) kept).length = newH ↔
      kept < newH ∧ KeepsLines h newH := by
  induction rounds generalizing kept with
  | zero => omega
  | succ rounds ih =>
      have few := line_start_add (scaleFactor newH h) 0 kept
      rw [Nat.zero_add] at few
      rw [pickedLines, if_pos inside, line_round_down down (by omega) inside]
      by_cases left : lineStart (scaleFactor newH h) kept + 2 = h ∧ kept + 1 < newH
      · obtain ⟨more, rfl⟩ : ∃ more, rounds = more + 1 := ⟨rounds - 1, by omega⟩
        simp only [if_pos left, List.length_append, List.length_replicate,
          picked_down_last down (show 0 < h by omega)]
        have missing : kept < newH := Nat.lt_of_succ_lt left.2
        rw [keeps_lines_left inside left.1 left.2]
        exact ⟨fun keeps => ⟨missing, keeps⟩, fun keeps => keeps.2⟩
      · simp only [if_neg left, List.length_append, List.length_replicate]
        by_cases ends : h ≤ lineStart (scaleFactor newH h) (kept + 1)
        · rw [Nat.min_eq_right ends, picked_lines_past (Nat.le_refl h), List.length_nil,
            ← keeps_lines_last inside ends left]
        · have onward := line_start_succ (scaleFactor newH h) kept
          have later := ih (kept + 1) (by omega) (by omega)
          rw [Nat.min_eq_left (by omega), ← Nat.add_assoc, later]
          constructor
          · intro keeps
            exact ⟨by omega, keeps.2⟩
          · intro keeps
            refine ⟨?_, keeps.2⟩
            by_contra last
            have all : newH = kept + 1 := by omega
            subst all
            exact ends keeps.2.2

def LinesMatch (h newH : Nat) : Prop :=
  (newH = h ∧ scaleFactor newH h = 256) ∨ (scaleFactor newH h < 256 ∧ KeepsLines h newH)

instance (h newH : Nat) : Decidable (LinesMatch h newH) := inferInstanceAs (Decidable (_ ∨ _))

theorem picked_lines_match (some_lines : 0 < h) (some_new : 0 < newH) (hBound : h < 2 ^ 32)
    (bounded : newH < 2 ^ 32) :
    (pickedLines h newH h 0 0).length = newH ↔ LinesMatch h newH := by
  rcases Nat.lt_trichotomy (scaleFactor newH h) 256 with down | even | up
  · have count := picked_down down hBound h 0 some_lines (by omega)
    rw [Nat.zero_add, show lineStart (scaleFactor newH h) 0 = 0 from rfl] at count
    rw [count, LinesMatch]
    constructor
    · intro keeps
      exact .inr ⟨down, keeps.2⟩
    · intro matches_
      exact ⟨some_new, (matches_.resolve_left (by omega)).2⟩
  · rw [picked_even even h 0 0 (by omega), LinesMatch]
    constructor
    · intro same
      exact .inl ⟨by omega, even⟩
    · intro matches_
      have same := (matches_.resolve_right (by omega)).1
      omega
  · have count := picked_up up bounded h 0 some_lines (by omega)
    rw [scaled_zero, Nat.zero_add] at count
    rw [LinesMatch]
    omega

end Lines

end Xineliboutput.Osd
