import Mathlib.Algebra.Ring.Nat
import Xineliboutput.Osd.PaletteRle

/-!
# Scaling run lists

`rle_scale_nearest` of `tools/rle.c` scales an image without decompressing it. It takes
the old elements line by line and does not know how many there are: it reads as many lines
as the image is said to have, wherever they end.
-/

namespace Xineliboutput.Osd

set_option autoImplicit false

/-- `FACTORBASE*new_w/old_w` -/
def scaleFactor (newSize oldSize : Nat) : Nat := 256 * newSize % 2 ^ 32 / oldSize

/-- `SCALEX`, `SCALEY` -/
def scaled (factor position : Nat) : Nat := factor * position % 2 ^ 32 / 256

/-- One old line: the new column, the elements written for it, and the old elements behind
it. `none` is an element read behind the last one. -/
def scaleLine (factorX oldW newW : Nat) : Nat → Nat → List RleElem → List RleElem →
    Option (Nat × List RleElem × List RleElem)
  | oldX, newX, line, [] => if oldX < oldW then none else some (newX, line, [])
  | oldX, newX, line, rle :: old =>
      if oldX < oldW then
        let newXEnd := min (scaled factorX (oldX + rle.len)) newW
        let len := sub32 newXEnd newX % 2 ^ 16
        if 0 < len then
          scaleLine factorX oldW newW (oldX + rle.len) (newX + len) (line ++ [⟨len, rle.color⟩]) old
        else scaleLine factorX oldW newW (oldX + rle.len) newX line old
      else some (newX, line, rle :: old)

/-- `(new_rle-1)->len += …`. The new array is its elements only: the code does not see to it
that there is one yet. -/
def lengthenLast (more : Nat) (out : List RleElem) : List RleElem :=
  match out.getLast? with
  | none => out
  | some last => out.dropLast ++ [{ last with len := (last.len + more) % 2 ^ 16 }]

def skipLine (oldW : Nat) : Nat → List RleElem → Option (List RleElem)
  | oldX, [] => if oldX < oldW then none else some []
  | oldX, rle :: old =>
      if oldX < oldW then skipLine oldW (oldX + rle.len) old else some (rle :: old)

def skipLines (oldW : Nat) : Nat → List RleElem → Option (List RleElem)
  | 0, old => some old
  | lines + 1, old => (skipLine oldW 0 old).bind (skipLines oldW lines)

structure ScaleState where
  old : List RleElem
  out : List RleElem
  oldY : Nat
  newY : Nat

/-- How often the line is repeated: until `dup` is zero or all lines but one are there. -/
def repeats (dup : Int) (newY newH : Nat) : Nat :=
  if dup < 0 then newH - (newY + 1) else min dup.toNat (newH - (newY + 1))

def scaleRound (w h newW newH : Nat) (state : ScaleState) : Option ScaleState :=
  (scaleLine (scaleFactor newW w) w newW 0 0 [] state.old).bind fun (newX, line, old) =>
    let factorY := scaleFactor newH h
    let written := state.out ++ line
    let out := if newX < newW then lengthenLast (newW - newX) written else written
    let oldY := state.oldY + 1
    let newY := state.newY + 1
    if 256 < factorY then
      let dup := if oldY = h then intOfUnsigned (newH - newY - 1 : Int)
        else intOfUnsigned (scaled factorY oldY - newY : Int)
      let copies := repeats dup newY newH
      some {
        old
        out := out ++ (List.replicate copies (out.drop (out.length - line.length))).flatten
        oldY
        newY := newY + copies }
    else if factorY < 256 then
      let skip := if oldY + 1 = h ∧ newY < newH then 0 else sub32 newY (scaled factorY oldY)
      let lines := min skip (h - oldY)
      (skipLines w lines old).map fun old => { old, out, oldY := oldY + lines, newY }
    else some { old, out, oldY, newY }

/-- Every round takes a line, so that as many rounds as lines are enough. -/
def scaleRounds (w h newW newH : Nat) : Nat → ScaleState → Option ScaleState
  | 0, state => some state
  | rounds + 1, state =>
      if state.oldY < h then
        (scaleRound w h newW newH state).bind (scaleRounds w h newW newH rounds)
      else some state

/-- `rle_scale_nearest` for an image that is neither empty nor flat. -/
def rleScaleNearest (oldRle : List RleElem) (w h newW newH : Nat) : Option (List RleElem) :=
  (scaleRounds w h newW newH h ⟨oldRle, [], 0, 0⟩).map ScaleState.out

/-! ## Which elements are read -/

/-- The elements make so many lines, each at least as long as the image is wide. -/
def LinesInside (w h : Nat) (elements : List RleElem) : Prop :=
  ∃ lines : List (List RleElem), lines.length = h ∧ lines.flatten <+: elements ∧
    ∀ line ∈ lines, w ≤ (line.map RleElem.len).sum

theorem scale_line_rest (factorX oldW newW : Nat) (old : List RleElem) (oldX newX : Nat)
    (line : List RleElem) :
    (scaleLine factorX oldW newW oldX newX line old).map (fun result => result.2.2) =
      skipLine oldW oldX old := by
  induction old generalizing oldX newX line with
  | nil =>
      rw [scaleLine, skipLine]
      split <;> rfl
  | cons rle old ih =>
      rw [scaleLine, skipLine]
      by_cases more : oldX < oldW
      · simp only [if_pos more]
        split
        · exact ih _ _ _
        · exact ih _ _ _
      · rw [if_neg more, if_neg more]
        rfl

theorem skip_lines_add (w first second : Nat) (old : List RleElem) :
    skipLines w (first + second) old = (skipLines w first old).bind (skipLines w second) := by
  induction first generalizing old with
  | zero => rw [Nat.zero_add, skipLines, Option.bind_some]
  | succ first ih =>
      rw [Nat.succ_add, skipLines, skipLines, Option.bind_assoc]
      exact Option.bind_congr fun rest _ => ih rest

theorem skip_lines_one (w : Nat) (old : List RleElem) : skipLines w 1 old = skipLine w 0 old := by
  simp [skipLines]

theorem scale_round_reads (w h newW newH : Nat) {state : ScaleState} (within : state.oldY < h) :
    ∃ lines, 1 ≤ lines ∧ state.oldY + lines ≤ h ∧
      (scaleRound w h newW newH state).map (fun next => (next.old, next.oldY)) =
        (skipLines w lines state.old).map fun old => (old, state.oldY + lines) := by
  have reads := scale_line_rest (scaleFactor newW w) w newW state.old 0 0 []
  rw [scaleRound]
  cases scaledLine : scaleLine (scaleFactor newW w) w newW 0 0 [] state.old with
  | none =>
      refine ⟨1, Nat.le_refl 1, within, ?_⟩
      rw [scaledLine] at reads
      rw [skip_lines_one, ← reads]
      rfl
  | some result =>
      obtain ⟨newX, line, old⟩ := result
      rw [scaledLine, Option.map_some] at reads
      rw [Option.bind_some]
      by_cases up : 256 < scaleFactor newH h
      · refine ⟨1, Nat.le_refl 1, within, ?_⟩
        simp only [if_pos up, skip_lines_one, ← reads, Option.map_some]
      by_cases down : scaleFactor newH h < 256
      · simp only [if_neg up, if_pos down]
        generalize dropped : min _ (h - (state.oldY + 1)) = lines
        have few : lines ≤ h - (state.oldY + 1) := dropped ▸ Nat.min_le_right _ _
        refine ⟨1 + lines, by omega, by omega, ?_⟩
        rw [skip_lines_add, skip_lines_one, ← reads, Option.bind_some, Option.map_map, Nat.add_assoc]
        rfl
      · refine ⟨1, Nat.le_refl 1, within, ?_⟩
        simp only [if_neg up, if_neg down, skip_lines_one, ← reads, Option.map_some]

theorem scale_rounds_reads (w h newW newH : Nat) (rounds : Nat) {state : ScaleState}
    (left : h ≤ state.oldY + rounds) (inside : state.oldY ≤ h) :
    (scaleRounds w h newW newH rounds state).isSome =
      (skipLines w (h - state.oldY) state.old).isSome := by
  induction rounds generalizing state with
  | zero =>
      have done : h - state.oldY = 0 := by omega
      rw [scaleRounds, done, skipLines]
      rfl
  | succ rounds ih =>
      rw [scaleRounds]
      by_cases within : state.oldY < h
      · obtain ⟨lines, positive, few, reads⟩ := scale_round_reads w h newW newH within
        have whole : h - state.oldY = lines + (h - (state.oldY + lines)) := by omega
        rw [if_pos within, whole, skip_lines_add]
        cases round : scaleRound w h newW newH state with
        | none =>
            rw [round, Option.map_none, eq_comm, Option.map_eq_none_iff] at reads
            rw [reads]
            rfl
        | some next =>
            rw [round, Option.map_some, eq_comm, Option.map_eq_some_iff] at reads
            obtain ⟨old, skipped, same⟩ := reads
            obtain ⟨rfl, advanced⟩ := Prod.mk.inj same
            rw [skipped, Option.bind_some, Option.bind_some, advanced]
            exact ih (by omega) (by omega)
      · have done : h - state.oldY = 0 := by omega
        rw [if_neg within, done, skipLines]
        rfl

theorem skip_line_some {w oldX : Nat} {old rest : List RleElem}
    (skipped : skipLine w oldX old = some rest) :
    ∃ line, old = line ++ rest ∧ w ≤ oldX + (line.map RleElem.len).sum := by
  induction old generalizing oldX with
  | nil =>
      rw [skipLine] at skipped
      split at skipped
      · cases skipped
      · cases skipped
        exact ⟨[], rfl, by simp; omega⟩
  | cons rle old ih =>
      rw [skipLine] at skipped
      split at skipped
      · obtain ⟨line, rfl, long⟩ := ih skipped
        refine ⟨rle :: line, rfl, ?_⟩
        rw [List.map_cons, List.sum_cons]
        omega
      · cases skipped
        exact ⟨[], rfl, by simp; omega⟩

theorem skip_line_least {w oldX : Nat} {line rest : List RleElem}
    (long : w ≤ oldX + (line.map RleElem.len).sum) :
    ∃ more, skipLine w oldX (line ++ rest) = some (more ++ rest) := by
  induction line generalizing oldX with
  | nil =>
      have full : ¬ oldX < w := by simpa using long
      refine ⟨[], ?_⟩
      cases rest with
      | nil => rw [List.append_nil, skipLine, if_neg full]
      | cons rle rest => rw [List.nil_append, skipLine, if_neg full]
  | cons rle line ih =>
      rw [List.map_cons, List.sum_cons] at long
      by_cases more : oldX < w
      · have rest_long : w ≤ oldX + rle.len + (line.map RleElem.len).sum := by omega
        obtain ⟨left, skipped⟩ := ih rest_long
        exact ⟨left, by rw [List.cons_append, skipLine, if_pos more, skipped]⟩
      · exact ⟨rle :: line, by rw [List.cons_append, skipLine, if_neg more]⟩

theorem skip_lines_inside {w : Nat} {lines : List (List RleElem)}
    (long : ∀ line ∈ lines, w ≤ (line.map RleElem.len).sum) (more rest : List RleElem) :
    (skipLines w lines.length (more ++ (lines.flatten ++ rest))).isSome = true := by
  induction lines generalizing more with
  | nil => rfl
  | cons line lines ih =>
      have enough : w ≤ 0 + ((more ++ line).map RleElem.len).sum := by
        have own := long line List.mem_cons_self
        rw [List.map_append, List.sum_append]
        omega
      obtain ⟨left, skipped⟩ : ∃ left, skipLine w 0 ((more ++ line) ++ (lines.flatten ++ rest)) =
          some (left ++ (lines.flatten ++ rest)) := skip_line_least enough
      rw [List.append_assoc] at skipped
      rw [List.flatten_cons, List.append_assoc, List.length_cons, skipLines, skipped,
        Option.bind_some]
      exact ih (fun other member => long other (List.mem_cons_of_mem line member)) left

theorem skip_lines_iff (w h : Nat) (elements : List RleElem) :
    (skipLines w h elements).isSome = true ↔ LinesInside w h elements := by
  constructor
  · intro skipped
    induction h generalizing elements with
    | zero => exact ⟨[], rfl, List.nil_prefix, by simp⟩
    | succ h ih =>
        rw [skipLines] at skipped
        cases first : skipLine w 0 elements with
        | none =>
            rw [first] at skipped
            cases skipped
        | some rest =>
            rw [first, Option.bind_some] at skipped
            obtain ⟨line, rfl, long⟩ := skip_line_some first
            obtain ⟨lines, length, inside, all⟩ := ih rest skipped
            refine ⟨line :: lines, by rw [List.length_cons, length], ?_, ?_⟩
            · rw [List.flatten_cons]
              exact (List.prefix_append_right_inj line).mpr inside
            · intro other member
              rcases List.mem_cons.mp member with rfl | member
              · omega
              · exact all other member
  · rintro ⟨lines, rfl, ⟨rest, rfl⟩, long⟩
    exact skip_lines_inside long [] rest

theorem rle_scale_nearest_reads (oldRle : List RleElem) (w h newW newH : Nat) :
    (rleScaleNearest oldRle w h newW newH).isSome = true ↔ LinesInside w h oldRle := by
  rw [rleScaleNearest, Option.isSome_map, scale_rounds_reads w h newW newH h (Nat.le_add_left h 0)
    (Nat.zero_le h)]
  exact skip_lines_iff w h oldRle

/-! ## Images that were compressed -/

theorem compress_runs_sum (rest : List UInt8) (rle : RleElem)
    (short : rle.len + rest.length < 2 ^ 16) :
    ((compressRuns rle rest).map RleElem.len).sum = rle.len + rest.length := by
  induction rest generalizing rle with
  | nil => simp [compressRuns]
  | cons pixel rest ih =>
      rw [List.length_cons] at short ⊢
      rw [compressRuns]
      by_cases differs : rle.color ≠ pixel.toNat
      · have run : ((if rle.len ≠ 0 then [rle] else []).map RleElem.len).sum = rle.len := by
          split
          · simp
          · simp only [List.map_nil, List.sum_nil]
            omega
        rw [if_pos differs, List.map_append, List.sum_append, run,
          ih ⟨1, pixel.toNat⟩ (by simp only []; omega)]
        simp only []
        omega
      · have longer : (rle.len + 1) % 2 ^ 16 = rle.len + 1 := Nat.mod_eq_of_lt (by omega)
        rw [if_neg differs, longer, ih ⟨rle.len + 1, rle.color⟩ (by simp only []; omega)]
        simp only []
        omega

theorem rle_compress_lines_inside {w h : Nat} {data : List UInt8} (narrow : w < 2 ^ 16)
    (whole : w * h ≤ data.length) : LinesInside w h (rleCompress data w h) := by
  refine ⟨(List.range h).map fun y => compressRuns ⟨0, 0⟩ ((data.drop (y * w % 2 ^ 32)).take w),
    by simp, ?_, ?_⟩
  · simp only [rleCompress, List.flatMap_def, List.prefix_rfl]
  · intro line member
    obtain ⟨y, row, rfl⟩ := List.mem_map.mp member
    have offset : y * w % 2 ^ 32 ≤ y * w := Nat.mod_le _ _
    have below : y * w + w ≤ w * h := by
      rw [← Nat.succ_mul, Nat.mul_comm w h]
      exact Nat.mul_le_mul_right w (List.mem_range.mp row)
    have length : ((data.drop (y * w % 2 ^ 32)).take w).length = w := by
      rw [List.length_take, List.length_drop]
      omega
    rw [compress_runs_sum _ _ (by simp only [length]; omega), length]
    simp

end Xineliboutput.Osd
