import Xineliboutput.Osd.ScaledLines

/-!
# The image that scaling gives

A run of a line goes from where its first pixel is scaled to, to where the first pixel
behind it is; the last run that is left ends with the new line. `rle_scale_nearest` gives
exactly the scaled lines of an image, as long as each line keeps a run, no run gets too
long for its 16-bit length, and the heights match.
-/

namespace Xineliboutput.Osd

set_option autoImplicit false

def lineWidth (line : List RleElem) : Nat := (line.map RleElem.len).sum

@[simp] theorem line_width_nil : lineWidth [] = 0 := rfl

@[simp] theorem line_width_cons (rle : RleElem) (line : List RleElem) :
    lineWidth (rle :: line) = rle.len + lineWidth line := by
  simp [lineWidth]

@[simp] theorem line_width_append (first second : List RleElem) :
    lineWidth (first ++ second) = lineWidth first + lineWidth second := by
  simp [lineWidth]

/-- An image of `h` lines of width `w`. -/
structure RunImage (w h : Nat) (source : List (List RleElem)) : Prop where
  lines : source.length = h
  width : ∀ line ∈ source, lineWidth line = w
  runs : ∀ line ∈ source, ∀ rle ∈ line, 1 ≤ rle.len ∧ rle.len < 2 ^ 16

/-! ## Scaled lines -/

/-- The runs of a line from column `x` on, without those that vanish. -/
def scaledRuns (factor : Nat) : Nat → List RleElem → List RleElem
  | _, [] => []
  | x, rle :: line =>
      let len := scaled factor (x + rle.len) - scaled factor x
      if 0 < len then ⟨len, rle.color⟩ :: scaledRuns factor (x + rle.len) line
      else scaledRuns factor (x + rle.len) line

/-- The last run is `more` pixels longer. -/
def stretchLast (more : Nat) (line : List RleElem) : List RleElem :=
  match line.getLast? with
  | none => []
  | some last => line.dropLast ++ [{ last with len := last.len + more }]

def scaledLine (w newW : Nat) (line : List RleElem) : List RleElem :=
  stretchLast (newW - scaled (scaleFactor newW w) w) (scaledRuns (scaleFactor newW w) 0 line)

/-- The new image has the lines asked for, each with the width asked for and scaled from a
line of the old one, in its order. As many elements are reported, and no element is read
behind those of the old image. -/
def ScalesWell (w h newW newH : Nat) (source : List (List RleElem)) : Prop :=
  ∃ picks : List Nat, picks.length = newH ∧ picks.Pairwise (· ≤ ·) ∧ (∀ line ∈ picks, line < h) ∧
    rleScaleNearest source.flatten w h newW newH =
      some (picks.flatMap fun line => scaledLine w newW (source.getD line [])) ∧
    ∀ line ∈ picks, lineWidth (scaledLine w newW (source.getD line [])) = newW

/-- Every run that a line can have and that is left when it is scaled still fits a 16-bit
length; the last one that is left goes on to the end of the new line. -/
def RunsFit (w newW : Nat) : Prop :=
  ∀ first behind, first < behind → behind ≤ w → behind - first < 2 ^ 16 →
    scaled (scaleFactor newW w) first < scaled (scaleFactor newW w) behind →
    (if scaled (scaleFactor newW w) behind = scaled (scaleFactor newW w) w then newW
      else scaled (scaleFactor newW w) behind) - scaled (scaleFactor newW w) first < 2 ^ 16

structure Scalable (w h newW newH : Nat) : Prop where
  /-- The end of a line is scaled behind its begin. -/
  columns : 256 ≤ scaleFactor newW w * w
  runs : RunsFit w newW
  lines : LinesMatch h newH

section Runs

variable {w newW : Nat}

theorem stretch_concat (more : Nat) (init : List RleElem) (last : RleElem) :
    stretchLast more (init ++ [last]) = init ++ [{ last with len := last.len + more }] := by
  rw [stretchLast, List.getLast?_concat, List.dropLast_concat]

theorem stretch_width (more : Nat) {line : List RleElem} (some_runs : line ≠ []) :
    lineWidth (stretchLast more line) = lineWidth line + more := by
  rcases List.eq_nil_or_concat' line with empty | ⟨init, last, rfl⟩
  · exact absurd empty some_runs
  · simp [stretch_concat, Nat.add_assoc]

theorem stretch_length (more : Nat) (line : List RleElem) :
    (stretchLast more line).length = line.length := by
  rcases List.eq_nil_or_concat' line with rfl | ⟨init, last, rfl⟩
  · rfl
  · simp [stretch_concat]

theorem scaled_runs_append (factor x : Nat) (first second : List RleElem) :
    scaledRuns factor x (first ++ second) =
      scaledRuns factor x first ++ scaledRuns factor (x + lineWidth first) second := by
  induction first generalizing x with
  | nil => rfl
  | cons rle first ih =>
      rw [List.cons_append, scaledRuns, scaledRuns, ih, line_width_cons, Nat.add_assoc]
      split <;> rfl

theorem scaled_runs_pos (factor x : Nat) (line : List RleElem) :
    ∀ rle ∈ scaledRuns factor x line, 0 < rle.len := by
  induction line generalizing x with
  | nil =>
      intro rle member
      cases member
  | cons rle line ih =>
      rw [scaledRuns]
      split
      · rename_i left
        intro other member
        cases List.mem_cons.mp member with
        | inl same =>
            rw [same]
            exact left
        | inr later => exact ih _ other later
      · exact ih _

theorem scaled_runs_nil {factor x : Nat} {line : List RleElem}
    (nothing : lineWidth (scaledRuns factor x line) = 0) : scaledRuns factor x line = [] := by
  have positive := scaled_runs_pos factor x line
  cases runs : scaledRuns factor x line with
  | nil => rfl
  | cons rle later =>
      rw [runs] at positive nothing
      have own := positive rle List.mem_cons_self
      rw [line_width_cons] at nothing
      omega

theorem scaled_runs_width {x : Nat} {line : List RleElem} (inside : x + lineWidth line ≤ w) :
    scaled (scaleFactor newW w) x + lineWidth (scaledRuns (scaleFactor newW w) x line) =
      scaled (scaleFactor newW w) (x + lineWidth line) := by
  induction line generalizing x with
  | nil => rfl
  | cons rle line ih =>
      rw [line_width_cons, ← Nat.add_assoc] at inside ⊢
      have onward := ih inside
      have further : scaled (scaleFactor newW w) x ≤ scaled (scaleFactor newW w) (x + rle.len) :=
        scaled_mono (Nat.le_add_right _ _) (by omega)
      rw [scaledRuns]
      split
      · rw [line_width_cons]
        simp only
        omega
      · omega

theorem whole_runs_width {line : List RleElem} (whole : lineWidth line = w) :
    lineWidth (scaledRuns (scaleFactor newW w) 0 line) = scaled (scaleFactor newW w) w := by
  have inside : 0 + lineWidth line ≤ w := by omega
  have width : scaled (scaleFactor newW w) 0 + lineWidth (scaledRuns (scaleFactor newW w) 0 line) =
      scaled (scaleFactor newW w) (0 + lineWidth line) := scaled_runs_width inside
  rwa [scaled_zero, Nat.zero_add, Nat.zero_add, whole] at width

theorem scaled_whole_pos (columns : 256 ≤ scaleFactor newW w * w) :
    0 < scaled (scaleFactor newW w) w := by
  rw [scaled_inside (Nat.le_refl w)]
  omega

theorem scaled_runs_ne_nil {line : List RleElem} (whole : lineWidth line = w)
    (columns : 256 ≤ scaleFactor newW w * w) : scaledRuns (scaleFactor newW w) 0 line ≠ [] := by
  intro empty
  have width : lineWidth (scaledRuns (scaleFactor newW w) 0 line) = scaled (scaleFactor newW w) w :=
    whole_runs_width whole
  have positive := scaled_whole_pos columns
  rw [empty, line_width_nil] at width
  omega

theorem scaled_line_width {line : List RleElem} (whole : lineWidth line = w)
    (columns : 256 ≤ scaleFactor newW w * w) : lineWidth (scaledLine w newW line) = newW := by
  have inside : scaled (scaleFactor newW w) w ≤ newW := scaled_le (Nat.le_refl w)
  rw [scaledLine, stretch_width _ (scaled_runs_ne_nil whole columns), whole_runs_width whole]
  omega

theorem scaled_runs_last {x : Nat} {line init : List RleElem} {last : RleElem}
    (inside : x + lineWidth line ≤ w) (short : ∀ rle ∈ line, rle.len < 2 ^ 16)
    (ends : scaledRuns (scaleFactor newW w) x line = init ++ [last]) :
    ∃ first behind, first < behind ∧ behind ≤ w ∧ behind - first < 2 ^ 16 ∧
      scaled (scaleFactor newW w) first < scaled (scaleFactor newW w) behind ∧
      scaled (scaleFactor newW w) behind = scaled (scaleFactor newW w) (x + lineWidth line) ∧
      last.len = scaled (scaleFactor newW w) behind - scaled (scaleFactor newW w) first := by
  induction line generalizing x init with
  | nil =>
      rw [scaledRuns] at ends
      simp at ends
  | cons rle line ih =>
      rw [line_width_cons, ← Nat.add_assoc] at inside ⊢
      have shorter : ∀ other ∈ line, other.len < 2 ^ 16 :=
        fun other member => short other (List.mem_cons_of_mem _ member)
      have own := short rle List.mem_cons_self
      rw [scaledRuns] at ends
      split at ends
      · rename_i left
        cases onward : scaledRuns (scaleFactor newW w) (x + rle.len) line with
        | nil =>
            -- the runs behind this one vanish
            have width : scaled (scaleFactor newW w) (x + rle.len) +
                lineWidth (scaledRuns (scaleFactor newW w) (x + rle.len) line) =
                scaled (scaleFactor newW w) (x + rle.len + lineWidth line) :=
              scaled_runs_width inside
            rw [onward, line_width_nil, Nat.add_zero] at width
            rw [onward] at ends
            have split : [] ++ [(⟨scaled (scaleFactor newW w) (x + rle.len) -
                scaled (scaleFactor newW w) x, rle.color⟩ : RleElem)] = init ++ [last] := ends
            obtain ⟨-, same⟩ := List.append_inj' split rfl
            rw [← List.singleton_inj.mp same]
            exact ⟨x, x + rle.len, by
              rcases Nat.eq_zero_or_pos rle.len with none_ | some_
              · rw [none_, Nat.add_zero] at left
                omega
              · omega, by omega, by omega, by omega, width, rfl⟩
        | cons other later =>
            cases init with
            | nil =>
                rw [onward] at ends
                simp at ends
            | cons kept init =>
                rw [List.cons_append] at ends
                exact ih inside shorter (List.cons.inj ends).2
      · exact ih inside shorter ends

/-! ## The line that the code writes -/

variable (runs : RunsFit w newW)
include runs

theorem scale_line_runs (newBound : newW < 2 ^ 32) {x : Nat} {line : List RleElem}
    (whole : x + lineWidth line = w) (sized : ∀ rle ∈ line, 1 ≤ rle.len ∧ rle.len < 2 ^ 16)
    (written rest : List RleElem) :
    scaleLine (scaleFactor newW w) w newW x (scaled (scaleFactor newW w) x) written
        (line ++ rest) =
      some (scaled (scaleFactor newW w) w,
        written ++ scaledRuns (scaleFactor newW w) x line, rest) := by
  induction line generalizing x written with
  | nil =>
      have ends : ¬ x < w := by simp at whole; omega
      rw [line_width_nil, Nat.add_zero] at whole
      rw [List.nil_append, scaledRuns, List.append_nil, whole]
      cases rest with
      | nil => rw [scaleLine, if_neg (Nat.lt_irrefl w)]
      | cons rle rest => rw [scaleLine, if_neg (Nat.lt_irrefl w)]
  | cons rle line ih =>
      rw [line_width_cons, ← Nat.add_assoc] at whole
      obtain ⟨positive, short⟩ := sized rle List.mem_cons_self
      have sized' : ∀ other ∈ line, 1 ≤ other.len ∧ other.len < 2 ^ 16 :=
        fun other member => sized other (List.mem_cons_of_mem _ member)
      have inside : x + rle.len ≤ w := by omega
      have onward : scaled (scaleFactor newW w) x ≤ scaled (scaleFactor newW w) (x + rle.len) :=
        scaled_mono (Nat.le_add_right _ _) inside
      have reached : scaled (scaleFactor newW w) (x + rle.len) ≤ newW := scaled_le inside
      have difference : sub32 (scaled (scaleFactor newW w) (x + rle.len))
          (scaled (scaleFactor newW w) x) =
          scaled (scaleFactor newW w) (x + rle.len) - scaled (scaleFactor newW w) x := by
        rw [sub32]
        omega
      have more : x < w := by omega
      simp only [List.cons_append, scaleLine, if_pos more, Nat.min_eq_left reached, difference,
        scaledRuns]
      by_cases left : 0 < scaled (scaleFactor newW w) (x + rle.len) - scaled (scaleFactor newW w) x
      · have limit := runs x (x + rle.len) (by omega) inside (by omega) (by omega)
        have fits : scaled (scaleFactor newW w) (x + rle.len) -
            scaled (scaleFactor newW w) x < 2 ^ 16 := by
          split at limit <;> omega
        have reaches : scaled (scaleFactor newW w) x +
            (scaled (scaleFactor newW w) (x + rle.len) - scaled (scaleFactor newW w) x) =
            scaled (scaleFactor newW w) (x + rle.len) := by omega
        simp only [Nat.mod_eq_of_lt fits, if_pos left, reaches, ih whole sized',
          List.append_assoc, List.singleton_append]
      · have same : scaled (scaleFactor newW w) x = scaled (scaleFactor newW w) (x + rle.len) := by
          omega
        have nothing : ¬ 0 < (scaled (scaleFactor newW w) (x + rle.len) -
            scaled (scaleFactor newW w) x) % 2 ^ 16 := by
          rw [same, Nat.sub_self]
          decide
        simp only [if_neg nothing, if_neg left]
        rw [same, ih whole sized']

/-- The last run of the line is lengthened, and nothing in front of the line. -/
theorem lengthen_scaled {line : List RleElem} (whole : lineWidth line = w)
    (sized : ∀ rle ∈ line, 1 ≤ rle.len ∧ rle.len < 2 ^ 16)
    (columns : 256 ≤ scaleFactor newW w * w) (out : List RleElem) :
    (if scaled (scaleFactor newW w) w < newW then
        lengthenLast (newW - scaled (scaleFactor newW w) w)
          (out ++ scaledRuns (scaleFactor newW w) 0 line)
      else out ++ scaledRuns (scaleFactor newW w) 0 line) =
      out ++ scaledLine w newW line := by
  rcases List.eq_nil_or_concat' (scaledRuns (scaleFactor newW w) 0 line) with
    empty | ⟨init, last, ends⟩
  · exact absurd empty (scaled_runs_ne_nil whole columns)
  · have inside : 0 + lineWidth line ≤ w := by omega
    obtain ⟨first, behind, order, within, length, further, same, width⟩ :=
      scaled_runs_last inside (fun rle member => (sized rle member).2) ends
    rw [Nat.zero_add, whole] at same
    have limit := runs first behind order within length further
    rw [if_pos same] at limit
    have reached : scaled (scaleFactor newW w) w ≤ newW := scaled_le (Nat.le_refl w)
    have fits : last.len + (newW - scaled (scaleFactor newW w) w) < 2 ^ 16 := by omega
    rw [scaledLine, ends, stretch_concat, ← List.append_assoc]
    split
    · rw [lengthenLast, List.getLast?_concat, ← List.append_assoc]
      simp only [List.dropLast_concat, Nat.mod_eq_of_lt fits]
    · have none_missing : newW - scaled (scaleFactor newW w) w = 0 := by omega
      rw [none_missing]
      simp

end Runs

/-! ## The rounds -/

section Rounds

variable {w h newW newH : Nat} {source : List (List RleElem)}

theorem skip_line_whole {x : Nat} {line : List RleElem} (whole : x + lineWidth line = w)
    (sized : ∀ rle ∈ line, 1 ≤ rle.len) (rest : List RleElem) :
    skipLine w x (line ++ rest) = some rest := by
  induction line generalizing x with
  | nil =>
      rw [line_width_nil, Nat.add_zero] at whole
      rw [List.nil_append, whole]
      cases rest with
      | nil => rw [skipLine, if_neg (Nat.lt_irrefl w)]
      | cons rle rest => rw [skipLine, if_neg (Nat.lt_irrefl w)]
  | cons rle line ih =>
      rw [line_width_cons, ← Nat.add_assoc] at whole
      have positive := sized rle List.mem_cons_self
      rw [List.cons_append, skipLine, if_pos (by omega)]
      exact ih whole fun other member => sized other (List.mem_cons_of_mem _ member)

def elementsFrom (source : List (List RleElem)) (line : Nat) : List RleElem :=
  (source.drop line).flatten

theorem elements_from_inside (image : RunImage w h source) {line : Nat} (inside : line < h) :
    ∃ own ∈ source, source.getD line [] = own ∧
      elementsFrom source line = own ++ elementsFrom source (line + 1) := by
  have within : line < source.length := image.lines ▸ inside
  refine ⟨source[line], List.getElem_mem within, ?_, ?_⟩
  · rw [List.getD_eq_getElem?_getD, List.getElem?_eq_getElem within, Option.getD_some]
  · rw [elementsFrom, List.drop_eq_getElem_cons within, List.flatten_cons]
    rfl

theorem skip_lines_whole (image : RunImage w h source) (count : Nat) {line : Nat}
    (inside : line + count ≤ h) :
    skipLines w count (elementsFrom source line) = some (elementsFrom source (line + count)) := by
  induction count generalizing line with
  | zero => rfl
  | succ count ih =>
      obtain ⟨own, member, -, split⟩ := elements_from_inside image (show line < h by omega)
      have whole : 0 + lineWidth own = w := by rw [Nat.zero_add, image.width own member]
      rw [skipLines, split, skip_line_whole whole fun rle of => (image.runs own member rle of).1,
        Option.bind_some, ih (by omega), Nat.add_assoc, Nat.add_comm 1]

theorem scale_round_line (image : RunImage w h source) (newBound : newW < 2 ^ 32)
    (runs : RunsFit w newW) (columns : 256 ≤ scaleFactor newW w * w) {oldY newY : Nat}
    (inside : oldY < h) (out : List RleElem) :
    scaleRound w h newW newH ⟨elementsFrom source oldY, out, oldY, newY⟩ =
      some {
        old := elementsFrom source (lineRound h newH oldY newY).1
        out := out ++ (List.replicate (lineRound h newH oldY newY).2
          (scaledLine w newW (source.getD oldY []))).flatten
        oldY := (lineRound h newH oldY newY).1
        newY := newY + (lineRound h newH oldY newY).2 } := by
  obtain ⟨own, member, found, split⟩ := elements_from_inside image inside
  have whole := image.width own member
  have sized := image.runs own member
  have start : 0 + lineWidth own = w := by rw [Nat.zero_add, whole]
  have scaledOwn := scale_line_runs runs newBound start sized [] (elementsFrom source (oldY + 1))
  rw [scaled_zero, List.nil_append] at scaledOwn
  have lengthened := lengthen_scaled runs whole sized columns out
  have length : (scaledLine w newW own).length =
      (scaledRuns (scaleFactor newW w) 0 own).length := stretch_length _ _
  have copied : (out ++ scaledLine w newW own).drop
      ((out ++ scaledLine w newW own).length - (scaledRuns (scaleFactor newW w) 0 own).length) =
      scaledLine w newW own := by
    rw [List.length_append, length, Nat.add_sub_cancel, List.drop_left]
  rw [scaleRound, split, scaledOwn, found]
  simp only [Option.bind_some, lengthened, copied]
  by_cases up : 256 < scaleFactor newH h
  · simp only [lineRound, if_pos up, Nat.add_comm 1, List.replicate_succ, List.flatten_cons,
      List.append_assoc]
    generalize repeats _ (newY + 1) newH = copies
    rw [Nat.add_right_comm newY 1 copies]
    rfl
  by_cases down : scaleFactor newH h < 256
  · have few : oldY + 1 + min (if oldY + 1 + 1 = h ∧ newY + 1 < newH then 0
        else sub32 (newY + 1) (scaled (scaleFactor newH h) (oldY + 1))) (h - (oldY + 1)) ≤ h := by
      omega
    simp only [lineRound, if_neg up, if_pos down, skip_lines_whole image _ few, Option.map_some,
      List.replicate_one, List.flatten_singleton]
  · simp only [lineRound, if_neg up, if_neg down, List.replicate_one, List.flatten_singleton]

theorem scale_rounds_lines (image : RunImage w h source) (newBound : newW < 2 ^ 32)
    (runs : RunsFit w newW) (columns : 256 ≤ scaleFactor newW w * w) (rounds oldY newY : Nat)
    (out : List RleElem) :
    (scaleRounds w h newW newH rounds ⟨elementsFrom source oldY, out, oldY, newY⟩).map
        ScaleState.out =
      some (out ++ (pickedLines h newH rounds oldY newY).flatMap
        fun line => scaledLine w newW (source.getD line [])) := by
  induction rounds generalizing oldY newY out with
  | zero => simp [scaleRounds, pickedLines]
  | succ rounds ih =>
      rw [scaleRounds, pickedLines]
      by_cases inside : oldY < h
      · rw [if_pos inside, if_pos inside,
          scale_round_line image newBound runs columns inside, Option.bind_some, ih]
        simp only [List.flatMap_append, List.append_assoc, List.flatMap_replicate]
      · rw [if_neg inside, if_neg inside]
        simp

theorem rle_scale_nearest_lines (image : RunImage w h source) (newBound : newW < 2 ^ 32)
    (runs : RunsFit w newW) (columns : 256 ≤ scaleFactor newW w * w) :
    rleScaleNearest source.flatten w h newW newH =
      some ((pickedLines h newH h 0 0).flatMap
        fun line => scaledLine w newW (source.getD line [])) :=
  scale_rounds_lines image newBound runs columns h 0 0 []

end Rounds

/-! ## The lengths that are written -/

def ShortRuns (elements : List RleElem) : Prop := ∀ rle ∈ elements, rle.len < 2 ^ 16

theorem ShortRuns.append {first second : List RleElem} (before : ShortRuns first)
    (behind : ShortRuns second) : ShortRuns (first ++ second) := by
  intro rle member
  cases List.mem_append.mp member with
  | inl own => exact before rle own
  | inr own => exact behind rle own

theorem scale_line_short {factorX oldW newW : Nat} {old : List RleElem} :
    ∀ {oldX newX : Nat} {line : List RleElem} {result : Nat × List RleElem × List RleElem},
      ShortRuns line → scaleLine factorX oldW newW oldX newX line old = some result →
      ShortRuns result.2.1 := by
  induction old with
  | nil =>
      intro oldX newX line result short scaledTo
      rw [scaleLine] at scaledTo
      split at scaledTo
      · cases scaledTo
      · cases scaledTo
        exact short
  | cons rle old ih =>
      intro oldX newX line result short scaledTo
      rw [scaleLine] at scaledTo
      split at scaledTo
      · simp only at scaledTo
        split at scaledTo
        · apply ih _ scaledTo
          apply short.append
          intro other member
          rw [List.mem_singleton.mp member]
          exact Nat.mod_lt _ (by decide)
        · exact ih short scaledTo
      · cases scaledTo
        exact short

theorem lengthen_last_short {out : List RleElem} (more : Nat) (short : ShortRuns out) :
    ShortRuns (lengthenLast more out) := by
  rcases List.eq_nil_or_concat' out with rfl | ⟨init, last, rfl⟩
  · exact short
  · rw [lengthenLast, List.getLast?_concat]
    simp only [List.dropLast_concat]
    intro rle member
    cases List.mem_append.mp member with
    | inl own => exact short rle (List.mem_append_left _ own)
    | inr own =>
        rw [List.mem_singleton.mp own]
        exact Nat.mod_lt _ (by decide)

theorem scale_round_short {w h newW newH : Nat} {state next : ScaleState}
    (short : ShortRuns state.out) (round : scaleRound w h newW newH state = some next) :
    ShortRuns next.out := by
  rw [scaleRound] at round
  obtain ⟨⟨newX, line, old⟩, scaledTo, round⟩ := Option.bind_eq_some_iff.mp round
  have own : ShortRuns line := scale_line_short (by intro rle member; cases member) scaledTo
  have written : ShortRuns (if newX < newW then
      lengthenLast (newW - newX) (state.out ++ line) else state.out ++ line) := by
    split
    · exact lengthen_last_short _ (short.append own)
    · exact short.append own
  simp only at round
  generalize (if newX < newW then lengthenLast (newW - newX) (state.out ++ line)
    else state.out ++ line) = out at round written
  split at round
  · cases round
    apply written.append
    intro rle member
    obtain ⟨copy, copied, inside⟩ := List.mem_flatten.mp member
    rw [List.eq_of_mem_replicate copied] at inside
    exact written rle (List.mem_of_mem_drop inside)
  · split at round
    · obtain ⟨left, -, same⟩ := Option.map_eq_some_iff.mp round
      cases same
      exact written
    · cases round
      exact written

theorem rle_scale_nearest_short {oldRle elements : List RleElem} {w h newW newH : Nat}
    (result : rleScaleNearest oldRle w h newW newH = some elements) : ShortRuns elements := by
  have rounds : ∀ (count : Nat) (state final : ScaleState), ShortRuns state.out →
      scaleRounds w h newW newH count state = some final → ShortRuns final.out := by
    intro count
    induction count with
    | zero =>
        intro state final short ends
        cases ends
        exact short
    | succ count ih =>
        intro state final short ends
        rw [scaleRounds] at ends
        split at ends
        · obtain ⟨next, round, onward⟩ := Option.bind_eq_some_iff.mp ends
          exact ih next final (scale_round_short short round) onward
        · cases ends
          exact short
  obtain ⟨final, ends, rfl⟩ := Option.map_eq_some_iff.mp result
  apply rounds h _ final _ ends
  intro rle member
  cases member

/-! ## Images that show what the sizes must be like -/

section Sizes

variable {w h newW newH : Nat}

theorem flat_image {line : List RleElem} (whole : lineWidth line = w)
    (sized : ∀ rle ∈ line, 1 ≤ rle.len ∧ rle.len < 2 ^ 16) :
    RunImage w h (List.replicate h line) where
  lines := List.length_replicate
  width := by
    intro other member
    rw [List.eq_of_mem_replicate member, whole]
  runs := by
    intro other member
    rw [List.eq_of_mem_replicate member]
    exact sized

theorem scales_well_line (some_new : 0 < newH) {line : List RleElem}
    (well : ScalesWell w h newW newH (List.replicate h line)) :
    lineWidth (scaledLine w newW line) = newW ∧ ShortRuns (scaledLine w newW line) := by
  obtain ⟨picks, count, -, inside, result, width⟩ := well
  obtain ⟨pick, member⟩ := List.exists_mem_of_length_pos (count ▸ some_new)
  have own : (List.replicate h line).getD pick [] = line := by
    rw [List.getD_eq_getElem?_getD, List.getElem?_replicate_of_lt (inside pick member),
      Option.getD_some]
  have ownWidth := width pick member
  have short := rle_scale_nearest_short result
  rw [own] at ownWidth
  refine ⟨ownWidth, ?_⟩
  intro rle part
  apply short rle
  apply List.mem_flatMap.mpr
  refine ⟨pick, member, ?_⟩
  rw [own]
  exact part

def onePixelRuns (count : Nat) : List RleElem := List.replicate count ⟨1, 0⟩

theorem one_pixel_runs_width (count : Nat) : lineWidth (onePixelRuns count) = count := by
  simp [lineWidth, onePixelRuns]

theorem one_pixel_runs_sized (count : Nat) :
    ∀ rle ∈ onePixelRuns count, 1 ≤ rle.len ∧ rle.len < 2 ^ 16 := by
  intro rle member
  rw [List.eq_of_mem_replicate member]
  exact ⟨Nat.le_refl 1, by decide⟩

theorem flat_map_width {lines : List Nat} {runsOf : Nat → List RleElem}
    (width : ∀ line ∈ lines, lineWidth (runsOf line) = newW) :
    lineWidth (lines.flatMap runsOf) = lines.length * newW := by
  induction lines with
  | nil => simp
  | cons line lines ih =>
      rw [List.flatMap_cons, line_width_append, width line List.mem_cons_self,
        ih fun other member => width other (List.mem_cons_of_mem _ member), List.length_cons,
        Nat.succ_mul, Nat.add_comm]

theorem picked_width {source : List (List RleElem)} (image : RunImage w h source)
    (columns : 256 ≤ scaleFactor newW w * w) :
    ∀ line ∈ pickedLines h newH h 0 0,
      lineWidth (scaledLine w newW (source.getD line [])) = newW := by
  intro line member
  have inside := (picked_lines_inside h 0 0 line member).2
  obtain ⟨own, part, found, -⟩ := elements_from_inside image inside
  rw [found]
  exact scaled_line_width (image.width own part) columns

variable (some_new : 0 < newH)
  (always : ∀ source, RunImage w h source → ScalesWell w h newW newH source)
include some_new always

theorem columns_needed (some_columns : 0 < newW) : 256 ≤ scaleFactor newW w * w := by
  have whole := one_pixel_runs_width w
  have width := (scales_well_line some_new
    (always _ (flat_image whole (one_pixel_runs_sized w)))).1
  by_contra narrow
  have nothing : lineWidth (scaledRuns (scaleFactor newW w) 0 (onePixelRuns w)) = 0 := by
    rw [whole_runs_width whole, scaled_inside (Nat.le_refl w)]
    omega
  rw [scaledLine, scaled_runs_nil nothing] at width
  simp [stretchLast] at width
  omega

theorem runs_needed : RunsFit w newW := by
  intro first behind order within length further
  have split : first + ((behind - first) + (w - behind)) = w := by omega
  have whole : lineWidth (onePixelRuns first ++ ⟨behind - first, 0⟩ :: onePixelRuns (w - behind)) =
      w := by
    rw [line_width_append, line_width_cons, one_pixel_runs_width, one_pixel_runs_width]
    exact split
  have sized : ∀ rle ∈ onePixelRuns first ++ ⟨behind - first, 0⟩ :: onePixelRuns (w - behind),
      1 ≤ rle.len ∧ rle.len < 2 ^ 16 := by
    intro rle member
    rcases List.mem_append.mp member with before | own
    · exact one_pixel_runs_sized _ rle before
    · rcases List.mem_cons.mp own with rfl | later
      · exact ⟨by simp only; omega, length⟩
      · exact one_pixel_runs_sized _ rle later
  have short := (scales_well_line some_new (always _ (flat_image whole sized))).2
  have reaches : first + (behind - first) = behind := by omega
  rw [scaledLine, scaled_runs_append, one_pixel_runs_width, Nat.zero_add, scaledRuns, reaches,
    if_pos (by omega)] at short
  have rest : behind + lineWidth (onePixelRuns (w - behind)) = w := by
    rw [one_pixel_runs_width]
    omega
  have left : scaled (scaleFactor newW w) behind +
      lineWidth (scaledRuns (scaleFactor newW w) behind (onePixelRuns (w - behind))) =
      scaled (scaleFactor newW w) (behind + lineWidth (onePixelRuns (w - behind))) :=
    scaled_runs_width (Nat.le_of_eq rest)
  rw [rest] at left
  by_cases ends : scaled (scaleFactor newW w) behind = scaled (scaleFactor newW w) w
  · -- nothing is left behind the run, which goes on to the end
    have nothing : scaledRuns (scaleFactor newW w) behind (onePixelRuns (w - behind)) = [] :=
      scaled_runs_nil (by omega)
    have reached : scaled (scaleFactor newW w) w ≤ newW := scaled_le (Nat.le_refl w)
    rw [nothing, stretch_concat] at short
    have limit := short _ (List.mem_append_right _ List.mem_cons_self)
    simp only at limit
    rw [if_pos ends]
    omega
  · rcases List.eq_nil_or_concat' (scaledRuns (scaleFactor newW w) behind
      (onePixelRuns (w - behind))) with empty | ⟨init, last, later⟩
    · rw [empty, line_width_nil] at left
      exact absurd left ends
    · rw [later, ← List.cons_append, ← List.append_assoc, stretch_concat] at short
      rw [if_neg ends]
      exact short _ (List.mem_append_left _ (List.mem_append_right _ List.mem_cons_self))

theorem lines_needed (some_columns : 0 < newW) (newBound : newW < 2 ^ 32) (some_lines : 0 < h)
    (hBound : h < 2 ^ 32) (bounded : newH < 2 ^ 32) : LinesMatch h newH := by
  have columns := columns_needed some_new always some_columns
  have runs := runs_needed some_new always
  have whole := one_pixel_runs_width w
  have image : RunImage w h (List.replicate h (onePixelRuns w)) :=
    flat_image whole (one_pixel_runs_sized w)
  obtain ⟨picks, count, -, -, result, width⟩ := always _ image
  rw [rle_scale_nearest_lines image newBound runs columns, Option.some.injEq] at result
  have same := congrArg lineWidth result
  rw [flat_map_width width, flat_map_width (picked_width image columns), count] at same
  exact (picked_lines_match some_lines some_new hBound bounded).mp
    (Nat.eq_of_mul_eq_mul_right some_columns same)

end Sizes

/-- Scaling gives a well-formed image, whatever is in the old one, exactly for sizes of which
the columns keep a run, the runs fit their lengths, and the heights match. -/
theorem scales_well_iff {w h newW newH : Nat} (some_columns : 0 < newW) (newBound : newW < 2 ^ 32)
    (some_lines : 0 < h) (hBound : h < 2 ^ 32) (some_new : 0 < newH) (bounded : newH < 2 ^ 32) :
    (∀ source, RunImage w h source → ScalesWell w h newW newH source) ↔
      Scalable w h newW newH := by
  constructor
  · intro always
    exact ⟨columns_needed some_new always some_columns, runs_needed some_new always,
      lines_needed some_new always some_columns newBound some_lines hBound bounded⟩
  · intro scalable source image
    refine ⟨pickedLines h newH h 0 0,
      (picked_lines_match some_lines some_new hBound bounded).mpr scalable.lines,
      picked_lines_sorted h 0 0, fun line member => (picked_lines_inside h 0 0 line member).2,
      rle_scale_nearest_lines image newBound scalable.runs scalable.columns,
      picked_width image scalable.columns⟩

/-- Where lines are not longer than a run can be, the new width is what matters. -/
theorem runs_fit_narrow {w newW : Nat} (narrow : newW < 2 ^ 16) : RunsFit w newW := by
  intro first behind order within length further
  have reached : scaled (scaleFactor newW w) behind ≤ newW := scaled_le within
  split <;> omega

theorem scales_well_iff_halved :
    Scalable 4 4 2 2 ∧ ∀ source, RunImage 4 4 source → ScalesWell 4 4 2 2 source := by
  have scalable : Scalable 4 4 2 2 := ⟨by decide, runs_fit_narrow (by decide), by decide⟩
  exact ⟨scalable, (scales_well_iff (by decide) (by decide) (by decide) (by decide) (by decide)
    (by decide)).mpr scalable⟩

/-- A line is missing of an image of twice the height, and of an image of a third of the
width no element is left. -/
theorem scaled_line_missing :
    ¬ ScalesWell 1 1 1 2 [[⟨1, 7⟩]] ∧ ¬ ScalesWell 3 1 1 1 [[⟨3, 7⟩]] := by
  constructor
  · intro well
    obtain ⟨picks, count, -, -, result, width⟩ := well
    have written : rleScaleNearest [⟨1, 7⟩] 1 1 1 2 = some [⟨1, 7⟩] := by decide
    rw [show ([[⟨1, 7⟩]] : List (List RleElem)).flatten = [⟨1, 7⟩] from rfl, written,
      Option.some.injEq] at result
    have same := congrArg lineWidth result
    rw [flat_map_width width, count] at same
    exact absurd same (by decide)
  · intro well
    obtain ⟨picks, count, -, -, result, width⟩ := well
    have written : rleScaleNearest [⟨3, 7⟩] 3 1 1 1 = some [] := by decide
    rw [show ([[⟨3, 7⟩]] : List (List RleElem)).flatten = [⟨3, 7⟩] from rfl, written,
      Option.some.injEq] at result
    have same := congrArg lineWidth result
    rw [flat_map_width width, count] at same
    exact absurd same (by decide)

end Xineliboutput.Osd

