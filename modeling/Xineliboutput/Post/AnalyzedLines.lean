import Xineliboutput.Post.BlankLineBounds

/-!
# The lines of an analyzed frame

`analyze_frame_yv12` and `analyze_frame_yuy2` with the lines that they give to the functions. The
answer is `none` as soon as a call leaves its line, which it also does where it does not end.
-/

namespace Xineliboutput.Post

open Xineliboutput.Foundation

set_option autoImplicit false

/-! ## Frames -/

/-- One of `base` with its pitch. -/
structure Plane where
  address : Nat
  pitch : Nat
  bytes : Nat → UInt8

def Plane.line (plane : Plane) (row offset length : Nat) : Line where
  address := plane.address + row * plane.pitch + offset
  length := length
  bytes := fun i => plane.bytes (row * plane.pitch + offset + i)

/-- A frame that is intercepted; the second and the third plane are used if it has chroma planes. -/
structure AnalyzedFrame where
  format : StandardFormat
  width : Nat
  height : Nat
  planes : Fin 3 → Plane
  least : 240 ≤ width ∧ 288 ≤ height
  most : width ≤ 768 ∧ height ≤ 576
  luma : format = .yv12 → width ≤ (planes 0).pitch
  chroma : format = .yv12 → ∀ i, i ≠ 0 → width / 2 ≤ (planes i).pitch
  packed : format = .yuy2 → width * 2 ≤ (planes 0).pitch

/-! ## Tests -/

/-- `||`: the second call is made only if the first line is not blank. -/
def eitherBlank (first second : Option Bool) : Option Bool :=
  first.bind fun blank => if blank then some true else second

/-- `&&` -/
def bothBlank (first second : Option Bool) : Option Bool :=
  first.bind fun blank => if blank then second else some false

/-- A loop over lines inside a range; `none` if a call leaves its line. -/
def scanLines (blank : Nat → Option Bool) (inside : Nat → Bool) (next : Nat → Nat) :
    Nat → Nat → Option Nat
  | 0, _ => none
  | rounds + 1, y =>
      if inside y then
        (blank y).bind fun more =>
          if more then scanLines blank inside next rounds (next y) else some y
      else some y

def linesFromTop (blank : Nat → Option Bool) (step limit : Nat) : Nat → Nat → Option Nat :=
  scanLines blank (fun y => decide (y ≤ limit)) (· + step)

def linesFromBottom (blank : Nat → Option Bool) (step limit : Nat) : Nat → Nat → Option Nat :=
  scanLines blank (fun y => decide (limit ≤ y)) (· - step)

section Analysis

variable (accel : Accel) (enable64Bit : Bool) (logoWidth : Fin 100) (frame : AnalyzedFrame)

def AnalyzedFrame.logo : Nat := frame.width * logoWidth / 100

/-- `check_width` -/
def AnalyzedFrame.checked : Nat := frame.width - frame.logo logoWidth

def besidesLogo (blank : Line → Option Bool) (plane : Plane) (row logo length : Nat) : Option Bool :=
  eitherBlank (blank (plane.line row 0 length)) (blank (plane.line row logo length))

def topBlankYv12 (y : Nat) : Option Bool :=
  let chroma (i : Fin 3) := besidesLogo (blankLineUV accel) (frame.planes i) (y / 2)
    (frame.logo logoWidth / 2) (frame.checked logoWidth / 2)
  let luma (row : Nat) := besidesLogo (blankLineY accel) (frame.planes 0) row
    (frame.logo logoWidth) (frame.checked logoWidth)
  bothBlank (chroma 1) (bothBlank (chroma 2) (bothBlank (luma y) (luma (y + 1))))

def fullBlankYv12 (first second chroma : Nat) : Option Bool :=
  let luma (row : Nat) := blankLineY accel ((frame.planes 0).line row 0 frame.width)
  let chroma (i : Fin 3) := blankLineUV accel ((frame.planes i).line chroma 0 (frame.width / 2))
  bothBlank (luma first) (bothBlank (luma second) (bothBlank (chroma 1) (chroma 2)))

/-- From the line above the last four on, a line of chroma for two of luma. -/
def bottomBlankYv12 (y : Nat) : Option Bool :=
  fullBlankYv12 accel frame y (y - 1) ((frame.height - 4) / 2 - 1 - (frame.height - 5 - y) / 2)

def centerBlankYv12 : Option Bool :=
  fullBlankYv12 accel frame (frame.height / 4 * 2) (frame.height / 4 * 2 + 1) (frame.height / 4)

/-- What is cropped; the inner `none` is a black frame, which only bars of the largest size can
be. -/
def cropUnlessBlack (height cropTop cropBottom : Nat) (center : Option Bool) :
    Option (Option (Nat × Nat)) :=
  let maxCrop := height / 4 / 2
  if maxCrop * 2 ≤ cropTop ∧ cropBottom ≤ height - maxCrop then
    center.map fun black => if black then none else some (cropTop, cropBottom)
  else some (some (cropTop, cropBottom))

def analyzeLinesYv12 : Option (Option (Nat × Nat)) :=
  let maxCrop := frame.height / 4 / 2
  (linesFromTop (topBlankYv12 accel logoWidth frame) 2 (maxCrop * 2) (frame.height + 1) 8).bind
    fun y => (linesFromBottom (bottomBlankYv12 accel frame) 2 (frame.height - maxCrop)
        (frame.height + 1) (frame.height - 5)).bind
      fun cropBottom => cropUnlessBlack frame.height (if 8 < y then y else 0) cropBottom
        (centerBlankYv12 accel frame)

def topBlankYuy2 (y : Nat) : Option Bool :=
  besidesLogo (blankLinePacked enable64Bit accel) (frame.planes 0) y (2 * frame.logo logoWidth)
    (frame.checked logoWidth * 2)

def fullBlankYuy2 (y : Nat) : Option Bool :=
  blankLinePacked enable64Bit accel ((frame.planes 0).line y 0 (frame.width * 2))

def analyzeLinesYuy2 : Option (Option (Nat × Nat)) :=
  let maxCrop := frame.height / 4 / 2
  (linesFromTop (topBlankYuy2 accel enable64Bit logoWidth frame) 1 (maxCrop * 2)
      (frame.height + 1) 6).bind
    fun cropTop => (linesFromBottom (fullBlankYuy2 accel enable64Bit frame) 1
        (frame.height - maxCrop) (frame.height + 1) (frame.height - 5)).bind
      fun cropBottom => cropUnlessBlack frame.height cropTop cropBottom
        (fullBlankYuy2 accel enable64Bit frame (frame.height / 2))

def analyzeLines : Option (Option (Nat × Nat)) :=
  match frame.format with
  | .yv12 => analyzeLinesYv12 accel logoWidth frame
  | .yuy2 => analyzeLinesYuy2 accel enable64Bit logoWidth frame

end Analysis

/-! ## Calls that stay in their lines -/

section Loops

variable {blank : Nat → Option Bool} {step limit : Nat}

theorem either_blank_is_some {first second : Option Bool} (same : first.isSome = second.isSome) :
    (eitherBlank first second).isSome = first.isSome := by
  cases first with
  | none => rfl
  | some blank =>
      cases blank with
      | true => rfl
      | false => exact same.symm

theorem both_blank_is_some (first second : Option Bool) : (bothBlank first second).isSome = true ↔
    first.isSome = true ∧ (first = some true → second.isSome = true) := by
  cases first with
  | none => simp [bothBlank]
  | some blank => cases blank <;> simp [bothBlank]

theorem both_blank_eq_true (first second : Option Bool) :
    bothBlank first second = some true ↔ first = some true ∧ second = some true := by
  cases first with
  | none => simp [bothBlank]
  | some blank => cases blank <;> simp [bothBlank]

theorem scan_lines_start {inside : Nat → Bool} {next : Nat → Nat} {rounds y : Nat}
    (start : inside y = true) : scanLines blank inside next (rounds + 1) y =
      (blank y).bind fun more =>
        if more then scanLines blank inside next rounds (next y) else some y := by
  rw [scanLines, if_pos start]

/-- `left` bounds the rounds that are left. -/
theorem scan_lines_is_some {inside : Nat → Bool} {next left : Nat → Nat}
    (all : ∀ y, (blank y).isSome = true)
    (fewer : ∀ y, inside y = true → left (next y) < left y) (rounds : Nat) {y : Nat}
    (enough : left y < rounds) :
    (scanLines blank inside next rounds y).isSome = true := by
  induction rounds generalizing y with
  | zero => omega
  | succ rounds ih =>
      rw [scanLines]
      obtain ⟨more, answered⟩ := Option.isSome_iff_exists.mp (all y)
      rw [answered, Option.bind_some]
      split_ifs with onward
      · have less := fewer y onward
        exact ih (by omega)
      · rfl
      · rfl

theorem lines_from_top_is_some (positive : 0 < step) (all : ∀ y, (blank y).isSome = true)
    (rounds : Nat) {y : Nat} (enough : limit < rounds + y) :
    (linesFromTop blank step limit (rounds + 1) y).isSome = true := by
  apply @scan_lines_is_some blank _ _ (limit + 1 - ·) all
  · intro y inside
    rw [decide_eq_true_iff] at inside
    omega
  · omega

theorem lines_from_bottom_is_some (positive : 0 < step) (deep : step ≤ limit)
    (all : ∀ y, (blank y).isSome = true) (rounds : Nat) {y : Nat} (enough : y < rounds + limit) :
    (linesFromBottom blank step limit (rounds + 1) y).isSome = true := by
  apply @scan_lines_is_some blank _ _ (· + 1 - limit) all
  · intro y inside
    rw [decide_eq_true_iff] at inside
    omega
  · omega

theorem bind_is_some {α β : Type} {first : Option α} {next : α → Option β}
    (all : ∀ a, (next a).isSome = true) : (first.bind next).isSome = first.isSome := by
  cases first with
  | none => rfl
  | some a => exact all a

theorem crop_unless_black_is_some {center : Option Bool} (answered : center.isSome = true)
    (height cropTop cropBottom : Nat) :
    (cropUnlessBlack height cropTop cropBottom center).isSome = true := by
  unfold cropUnlessBlack
  dsimp only
  split_ifs
  · rwa [Option.isSome_map]
  · rfl

end Loops

section Lines

variable {accel : Accel} {enable64Bit : Bool} {logoWidth : Fin 100} {frame : AnalyzedFrame}

theorem besides_logo_is_some {blank : Line → Option Bool} {ends : Nat → Prop}
    (rule : ∀ line : Line, (blank line).isSome = true ↔ ends line.length) (plane : Plane)
    (row logo length : Nat) :
    (besidesLogo blank plane row logo length).isSome = true ↔ ends length := by
  rw [besidesLogo, either_blank_is_some]
  · exact rule _
  · rw [Bool.eq_iff_iff, rule, rule]
    rfl

theorem besides_logo_black {plane : Plane} {row logo length : Nat}
    (long : shortestChroma accel ≤ length) :
    besidesLogo (blankLineUV accel) plane row logo length = some true ↔
      ¬(¬ChromaBlack accel (plane.line row 0 length) ∧
        ¬ChromaBlack accel (plane.line row logo length)) := by
  obtain ⟨first, firstIs⟩ := Option.isSome_iff_exists.mp
    ((@blank_line_uv_is_some accel (plane.line row 0 length)).mpr long)
  obtain ⟨second, secondIs⟩ := Option.isSome_iff_exists.mp
    ((@blank_line_uv_is_some accel (plane.line row logo length)).mpr long)
  rw [besidesLogo, firstIs, secondIs, ← blank_line_uv_iff firstIs, ← blank_line_uv_iff secondIs]
  cases first <;> cases second <;> decide

theorem top_blank_yv12_is_some (y : Nat) :
    (topBlankYv12 accel logoWidth frame y).isSome = true ↔
      shortestChroma accel ≤ frame.checked logoWidth / 2 ∧
        (besidesLogo (blankLineUV accel) (frame.planes 1) (y / 2) (frame.logo logoWidth / 2)
            (frame.checked logoWidth / 2) = some true →
          besidesLogo (blankLineUV accel) (frame.planes 2) (y / 2) (frame.logo logoWidth / 2)
            (frame.checked logoWidth / 2) = some true →
          shortestLuma accel ≤ frame.checked logoWidth) := by
  have chroma := @besides_logo_is_some (blankLineUV accel) (shortestChroma accel ≤ ·)
    (fun line => blank_line_uv_is_some)
  have luma := @besides_logo_is_some (blankLineY accel) (shortestLuma accel ≤ ·)
    (fun line => blank_line_y_is_some)
  unfold topBlankYv12
  simp only [both_blank_is_some, chroma, luma]
  constructor
  · rintro ⟨long, others⟩
    exact ⟨long, fun first second => ((others first).2 second).1⟩
  · rintro ⟨long, others⟩
    exact ⟨long, fun first => ⟨long, fun second => ⟨others first second, fun _ => others first second⟩⟩⟩

theorem full_blank_yv12_is_some (first second chroma : Nat) :
    (fullBlankYv12 accel frame first second chroma).isSome = true := by
  have wide := frame.least.1
  have luma : ∀ row, (blankLineY accel ((frame.planes 0).line row 0 frame.width)).isSome = true := by
    intro row
    rw [blank_line_y_is_some]
    refine Nat.le_trans ?_ wide
    cases accel <;> decide
  have chroma : ∀ i row, (blankLineUV accel
      ((frame.planes i).line row 0 (frame.width / 2))).isSome = true := by
    intro i row
    rw [blank_line_uv_is_some]
    refine Nat.le_trans ?_ (by omega : 120 ≤ frame.width / 2)
    cases accel <;> decide
  unfold fullBlankYv12
  simp only [both_blank_is_some, luma, chroma, true_and, implies_true]

/-- In the first row that is tested, a plane is not black with the logo on either side. -/
def Coloured (accel : Accel) (logoWidth : Fin 100) (frame : AnalyzedFrame) (i : Fin 3) : Prop :=
  ¬ChromaBlack accel ((frame.planes i).line 4 0 (frame.checked logoWidth / 2)) ∧
    ¬ChromaBlack accel
      ((frame.planes i).line 4 (frame.logo logoWidth / 2) (frame.checked logoWidth / 2))

theorem lines_from_top_iff {blank : Nat → Option Bool} {step limit rounds y : Nat}
    (positive : 0 < step) (enough : limit < rounds + y) (start : y ≤ limit)
    (others : blank y = some true → ∀ row, (blank row).isSome = true) :
    (linesFromTop blank step limit (rounds + 1) y).isSome = true ↔ (blank y).isSome = true := by
  have inside : decide (y ≤ limit) = true := decide_eq_true start
  cases first : blank y with
  | none =>
      rw [linesFromTop, scan_lines_start inside, first]
      rfl
  | some more =>
      refine iff_of_true ?_ rfl
      cases more with
      | true => exact lines_from_top_is_some positive (others first) rounds enough
      | false =>
          rw [linesFromTop, scan_lines_start inside, first]
          rfl

theorem analyze_lines_yv12_is_some_iff : (analyzeLinesYv12 accel logoWidth frame).isSome = true ↔
    shortestChroma accel ≤ frame.checked logoWidth / 2 ∧
      (shortestLuma accel ≤ frame.checked logoWidth ∨
        Coloured accel logoWidth frame 1 ∨ Coloured accel logoWidth frame 2) := by
  have tall := frame.least.2
  have bottom : ∀ y, (bottomBlankYv12 accel frame y).isSome = true :=
    fun y => full_blank_yv12_is_some _ _ _
  have center : (centerBlankYv12 accel frame).isSome = true := full_blank_yv12_is_some _ _ _
  have others : topBlankYv12 accel logoWidth frame 8 = some true →
      ∀ y, (topBlankYv12 accel logoWidth frame y).isSome = true := by
    intro black y
    obtain ⟨long, luma⟩ := (top_blank_yv12_is_some 8).mp (Option.isSome_of_eq_some black)
    unfold topBlankYv12 at black
    simp only [both_blank_eq_true] at black
    rw [top_blank_yv12_is_some]
    exact ⟨long, fun _ _ => luma black.1 black.2.1⟩
  have ends : ∀ y, ((linesFromBottom (bottomBlankYv12 accel frame) 2
      (frame.height - frame.height / 4 / 2) (frame.height + 1) (frame.height - 5)).bind
        fun cropBottom => cropUnlessBlack frame.height (if 8 < y then y else 0) cropBottom
          (centerBlankYv12 accel frame)).isSome = true := by
    intro y
    rw [bind_is_some (crop_unless_black_is_some center _ _)]
    exact lines_from_bottom_is_some (by decide) (by omega) bottom _ (by omega)
  rw [analyzeLinesYv12, bind_is_some ends,
    lines_from_top_iff (by decide) (by omega) (by omega) others, top_blank_yv12_is_some]
  apply and_congr_right
  intro long
  rw [besides_logo_black long, besides_logo_black long]
  unfold Coloured
  tauto

theorem analyze_lines_yuy2_is_some_iff :
    (analyzeLinesYuy2 accel enable64Bit logoWidth frame).isSome = true ↔
      PackedEnds accel enable64Bit (frame.checked logoWidth * 2) ∧
        PackedEnds accel enable64Bit (frame.width * 2) := by
  have tall := frame.least.2
  have top : ∀ y, (topBlankYuy2 accel enable64Bit logoWidth frame y).isSome = true ↔
      PackedEnds accel enable64Bit (frame.checked logoWidth * 2) :=
    fun y => besides_logo_is_some (fun line => blank_line_packed_is_some) _ _ _ _
  have full : ∀ y, (fullBlankYuy2 accel enable64Bit frame y).isSome = true ↔
      PackedEnds accel enable64Bit (frame.width * 2) :=
    fun y => blank_line_packed_is_some
  have others : topBlankYuy2 accel enable64Bit logoWidth frame 6 = some true →
      ∀ y, (topBlankYuy2 accel enable64Bit logoWidth frame y).isSome = true := by
    intro black y
    exact (top y).mpr ((top 6).mp (Option.isSome_of_eq_some black))
  by_cases wide : PackedEnds accel enable64Bit (frame.width * 2)
  · have bottom := lines_from_bottom_is_some (by decide : 0 < 1)
      (by omega : 1 ≤ frame.height - frame.height / 4 / 2) (fun y => (full y).mpr wide)
      frame.height (by omega : frame.height - 5 < _)
    have ends : ∀ cropTop, ((linesFromBottom (fullBlankYuy2 accel enable64Bit frame) 1
        (frame.height - frame.height / 4 / 2) (frame.height + 1) (frame.height - 5)).bind
          fun cropBottom => cropUnlessBlack frame.height cropTop cropBottom
            (fullBlankYuy2 accel enable64Bit frame (frame.height / 2))).isSome = true := by
      intro cropTop
      rw [bind_is_some (crop_unless_black_is_some ((full _).mpr wide) _ _)]
      exact bottom
    rw [analyzeLinesYuy2, bind_is_some ends,
      lines_from_top_iff (by decide) (by omega) (by omega) others, top]
    exact (and_iff_left wide).symm
  · refine iff_of_false ?_ (fun both => wide both.2)
    have missing : fullBlankYuy2 accel enable64Bit frame (frame.height - 5) = none :=
      Option.not_isSome_iff_eq_none.mp (fun answered => wide ((full _).mp answered))
    have bottom : linesFromBottom (fullBlankYuy2 accel enable64Bit frame) 1
        (frame.height - frame.height / 4 / 2) (frame.height + 1) (frame.height - 5) = none := by
      rw [linesFromBottom, scan_lines_start (decide_eq_true (by omega)), missing]
      rfl
    unfold analyzeLinesYuy2
    dsimp only
    rw [bottom]
    simp

end Lines

/-! ## What the calls answer -/

section Picture

variable {blank : Nat → Option Bool} {step limit : Nat}

theorem scan_lines_eq {inside : Nat → Bool} {next : Nat → Nat} {first : Nat → Nat → Nat}
    (zero : ∀ y, first 0 y = y)
    (succ : ∀ rounds y, first (rounds + 1) y =
      if inside y = true ∧ (blank y).getD false = true then first rounds (next y) else y)
    (rounds : Nat) {y found : Nat} (ended : scanLines blank inside next (rounds + 1) y = some found) :
    first rounds y = found := by
  induction rounds generalizing y with
  | zero =>
      rw [scanLines] at ended
      split_ifs at ended with onward
      · rcases Option.bind_eq_some_iff.mp ended with ⟨more, -, ended⟩
        cases more with
        | true => cases ended
        | false => rw [zero, ← Option.some.inj ended]
      · rw [zero, ← Option.some.inj ended]
  | succ rounds ih =>
      rw [scanLines] at ended
      rw [succ]
      split_ifs at ended with onward
      · rcases Option.bind_eq_some_iff.mp ended with ⟨more, answered, ended⟩
        rw [answered, Option.getD_some]
        cases more with
        | true =>
            rw [if_pos ⟨onward, rfl⟩]
            exact ih ended
        | false =>
            rw [if_neg (fun both => Bool.false_ne_true both.2)]
            exact Option.some.inj ended
      · rw [if_neg (fun both => onward both.1)]
        exact Option.some.inj ended

theorem lines_from_top_eq (rounds : Nat) {y first : Nat}
    (found : linesFromTop blank step limit (rounds + 1) y = some first) :
    firstFromTop (fun row => (blank row).getD false) step limit rounds y = first := by
  refine scan_lines_eq (fun _ => rfl) (fun rounds y => ?_) rounds found
  simp only [firstFromTop, decide_eq_true_iff]

theorem lines_from_bottom_eq (rounds : Nat) {y first : Nat}
    (found : linesFromBottom blank step limit (rounds + 1) y = some first) :
    firstFromBottom (fun row => (blank row).getD false) step limit rounds y = first := by
  refine scan_lines_eq (fun _ => rfl) (fun rounds y => ?_) rounds found
  simp only [firstFromBottom, decide_eq_true_iff]

theorem crop_unless_black_eq {height cropTop cropBottom : Nat} {center : Option Bool}
    {result : Option (Nat × Nat)}
    (cropped : cropUnlessBlack height cropTop cropBottom center = some result) :
    (if height / 4 / 2 * 2 ≤ cropTop ∧ cropBottom ≤ height - height / 4 / 2 ∧
        center.getD false = true then none else some (cropTop, cropBottom)) = result := by
  unfold cropUnlessBlack at cropped
  dsimp only at cropped
  split_ifs at cropped with wide
  · obtain ⟨black, rfl, rfl⟩ := Option.map_eq_some_iff.mp cropped
    simp [wide]
  · rw [if_neg (fun all => wide ⟨all.1, all.2.1⟩)]
    exact Option.some.inj cropped

end Picture

section Seen

variable (accel : Accel) (enable64Bit : Bool) (logoWidth : Fin 100) (frame : AnalyzedFrame)

def seenPicture : Picture :=
  match frame.format with
  | .yv12 =>
      { topBlank := fun y => (topBlankYv12 accel logoWidth frame y).getD false
        bottomBlank := fun y => (bottomBlankYv12 accel frame y).getD false
        centerBlank := (centerBlankYv12 accel frame).getD false }
  | .yuy2 =>
      { topBlank := fun y => (topBlankYuy2 accel enable64Bit logoWidth frame y).getD false
        bottomBlank := fun y => (fullBlankYuy2 accel enable64Bit frame y).getD false
        centerBlank := (fullBlankYuy2 accel enable64Bit frame (frame.height / 2)).getD false }

theorem analyze_lines_refines {result : Option (Nat × Nat)}
    (analyzed : analyzeLines accel enable64Bit logoWidth frame = some result) :
    detectBars false (some frame.format) frame.height
      (seenPicture accel enable64Bit logoWidth frame) = result := by
  unfold analyzeLines at analyzed
  unfold detectBars seenPicture
  cases format : frame.format with
  | yv12 =>
      rw [format] at analyzed
      rcases Option.bind_eq_some_iff.mp analyzed with ⟨y, top, analyzed⟩
      rcases Option.bind_eq_some_iff.mp analyzed with ⟨cropBottom, bottom, cropped⟩
      simp only [analyzeFrameYv12, lines_from_top_eq _ top, lines_from_bottom_eq _ bottom]
      exact crop_unless_black_eq cropped
  | yuy2 =>
      rw [format] at analyzed
      rcases Option.bind_eq_some_iff.mp analyzed with ⟨cropTop, top, analyzed⟩
      rcases Option.bind_eq_some_iff.mp analyzed with ⟨cropBottom, bottom, cropped⟩
      simp only [analyzeFrameYuy2, lines_from_top_eq _ top, lines_from_bottom_eq _ bottom]
      exact crop_unless_black_eq cropped

end Seen

/-! ## Frames whose lines are long enough -/

section Frames

variable (accel : Accel) (enable64Bit : Bool) (logoWidth : Fin 100) (frame : AnalyzedFrame)

/-- Luma and chroma planes are tested besides the logo first, packed lines must have an even number
of words. -/
def LinesSuffice : Prop :=
  match frame.format with
  | .yv12 =>
      shortestChroma accel ≤ frame.checked logoWidth / 2 ∧
        (shortestLuma accel ≤ frame.checked logoWidth ∨
          Coloured accel logoWidth frame 1 ∨ Coloured accel logoWidth frame 2)
  | .yuy2 =>
      PackedEnds accel enable64Bit (frame.checked logoWidth * 2) ∧
        PackedEnds accel enable64Bit (frame.width * 2)

/-- Every call ends and reads its line only if and only if the lines suffice. -/
theorem calls_in_lines_iff : (analyzeLines accel enable64Bit logoWidth frame).isSome = true ↔
    LinesSuffice accel enable64Bit logoWidth frame := by
  unfold analyzeLines LinesSuffice
  cases frame.format with
  | yv12 => exact analyze_lines_yv12_is_some_iff
  | yuy2 => exact analyze_lines_yuy2_is_some_iff

def packedFrame : AnalyzedFrame where
  format := .yuy2
  width := 768
  height := 576
  planes := fun _ => ⟨0, 1536, fun i => if i % 2 = 0 then 0x10 else 0x80⟩
  least := by decide
  most := by decide
  luma := nofun
  chroma := nofun
  packed := fun _ => Nat.le_refl 1536

/-- 275 words are checked besides a logo of a fifth of the width. -/
theorem odd_line_runs_away :
    ¬∀ (accel : Accel) (enable64Bit : Bool) (logoWidth : Fin 100) (frame : AnalyzedFrame),
      (analyzeLines accel enable64Bit logoWidth frame).isSome = true := by
  intro all
  have called := all .c false 20 packedFrame
  unfold analyzeLines at called
  have ends := analyze_lines_yuy2_is_some_iff.mp called
  exact absurd ends.1 (by decide)

end Frames

end Xineliboutput.Post
