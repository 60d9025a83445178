import Xineliboutput.Elementary.NalRoundTrip

/-!
# Where the removal of emulation prevention reads

On a unit that ends where the memory ends. `h264_nal_unescape` takes a unit in groups and reads
outside exactly where one or two zeros are left; `h265_nal_unescape` reads outside exactly where
the unit is shorter than three bytes.
-/

namespace Xineliboutput.Elementary

set_option autoImplicit false

/-- A unit without its escapes, taken in groups: two zeros with the byte behind them, or with an
escape and the byte behind it, and other bytes one by one. One or two zeros are no group. -/
def withoutEscapes : List UInt8 → Option (List UInt8)
  | [] => some []
  | [byte] => if byte = 0 then none else some [byte]
  | [first, second] =>
      if first = 0 ∧ second = 0 then none
      else (withoutEscapes [second]).map (first :: ·)
  | [first, second, third] =>
      if first = 0 ∧ second = 0 then
        if third = 3 then some [0, 0] else some [0, 0, third]
      else (withoutEscapes [second, third]).map (first :: ·)
  | first :: second :: third :: fourth :: rest =>
      if first = 0 ∧ second = 0 then
        if third = 3 then (withoutEscapes rest).map ([0, 0, fourth] ++ ·)
        else (withoutEscapes (fourth :: rest)).map ([0, 0, third] ++ ·)
      else (withoutEscapes (second :: third :: fourth :: rest)).map (first :: ·)

/-- What `h265_nal_unescape` makes of a unit: the last three bytes or fewer are left out. -/
def withoutEnd : List UInt8 → List UInt8
  | first :: second :: third :: fourth :: rest =>
      if first = 0 ∧ second = 0 ∧ third ≠ 0 then
        if third = 3 then [0, 0] ++ withoutEnd (fourth :: rest)
        else [0, 0] ++ withoutEnd (third :: fourth :: rest)
      else first :: withoutEnd (second :: third :: fourth :: rest)
  | _ => []

section Runs

variable {src rest dst : List UInt8} {room s left : Nat}

/-- The rest of a unit lies ahead, up to the end of the memory, and fits into the buffer. -/
structure Before (src : List UInt8) (room : Nat) (rest : List UInt8) (s : Nat) (dst : List UInt8)
    (left : Nat) : Prop where
  ahead : src.drop s = rest
  length : src.length = s + rest.length
  enough : rest.length < left
  fits : dst.length + rest.length ≤ room

theorem Before.step {taken put rest' : List UInt8} {bound : Nat}
    {round : Nat → List UInt8 → Option Round} (before : Before src room rest s dst left)
    (parts : rest = taken ++ rest') (some' : 0 < taken.length) (short : s < bound)
    (ran : round s dst = some (.goesOn (s + taken.length) (dst ++ put)))
    (fewer : put.length ≤ taken.length) :
    ∃ left', whileBelow bound round left s dst =
        whileBelow bound round left' (s + taken.length) (dst ++ put) ∧
      Before src room rest' (s + taken.length) (dst ++ put) left' := by
  obtain ⟨ahead, length, enough, fits⟩ := before
  rw [parts] at ahead
  rw [parts, List.length_append] at length enough fits
  cases left with
  | zero => exact absurd enough (Nat.not_lt_zero _)
  | succ left =>
      refine ⟨left, while_below_goes_on short ran, drop_further taken ahead, by omega, by omega, ?_⟩
      rw [List.length_append]
      omega

theorem Before.ends {bound : Nat} {round : Nat → List UInt8 → Option Round}
    (before : Before src room rest s dst left) (long : bound ≤ s) :
    whileBelow bound round left s dst = some dst := by
  have enough := before.enough
  cases left with
  | zero => exact absurd enough (Nat.not_lt_zero _)
  | succ left => exact while_below_ends long

theorem Before.last {bound : Nat} {round : Nat → List UInt8 → Option Round} {out : List UInt8}
    (before : Before src room rest s dst left) (short : s < bound)
    (ran : round s dst = some (.returns out)) :
    whileBelow bound round left s dst = some out := by
  have enough := before.enough
  cases left with
  | zero => exact absurd enough (Nat.not_lt_zero _)
  | succ left => exact while_below_returns short ran

/-! ## H.264 -/

theorem map_append_append (put : List UInt8) (result : Option (List UInt8)) :
    (result.map (put ++ ·)).map (dst ++ ·) = result.map (dst ++ put ++ ·) := by
  cases result with
  | none => rfl
  | some out => simp

theorem h264_round_zero (there : src.drop s = [0]) :
    h264Round src src.length room s dst = none := by
  rw [h264Round, zeros_ahead_zero there]
  rfl

theorem h264_round_two_zeros (there : src.drop s = [0, 0]) :
    h264Round src src.length room s dst = none := by
  rw [h264Round, zeros_ahead_pair there, Option.bind_eq_bind, Option.bind_some, if_pos rfl]
  cases stored : storeZeros room dst with
  | none => rfl
  | some after =>
      rw [Option.bind_eq_bind, Option.bind_some, read_ahead there 2]
      rfl

theorem h264_round_returns {len : Nat} (there : src.drop s = 0 :: 0 :: 3 :: rest)
    (last : len ≤ s + 3) (fits : dst.length + 2 ≤ room) :
    h264Round src len room s dst = some (.returns (dst ++ [0, 0])) := by
  rw [h264_round_hit (zeros_ahead_pair there) fits, read_ahead there 2]
  exact if_pos last

theorem h264_round_single {first second : UInt8} {len : Nat}
    (there : src.drop s = first :: second :: rest) (apart : ¬(first = 0 ∧ second = 0))
    (fits : dst.length < room) :
    h264Round src len room s dst = some (.goesOn (s + 1) (dst ++ [first])) := by
  have none : zerosAhead src s = some false := by
    by_cases zero : first = 0
    · rw [zero] at there apart
      exact zeros_ahead_single there fun second => apart ⟨rfl, second⟩
    · exact zeros_ahead_other there zero
  exact h264_round_copy none there fits

def Unescapes (src : List UInt8) (room : Nat) (rest : List UInt8) : Prop :=
  ∀ (s left : Nat) (dst : List UInt8), Before src room rest s dst left →
    whileBelow src.length (h264Round src src.length room) left s dst =
      (withoutEscapes rest).map (dst ++ ·)

theorem unescapes_step (put : List UInt8) {taken rest' : List UInt8} (parts : rest = taken ++ rest')
    (some' : 0 < taken.length) (fewer : put.length ≤ taken.length)
    (round : ∀ (s left : Nat) (dst : List UInt8), Before src room rest s dst left →
      h264Round src src.length room s dst = some (.goesOn (s + taken.length) (dst ++ put)))
    (same : withoutEscapes rest = (withoutEscapes rest').map (put ++ ·))
    (others : Unescapes src room rest') : Unescapes src room rest := by
  intro s left dst before
  have length := before.length
  rw [parts, List.length_append] at length
  have short : s < src.length := by omega
  obtain ⟨left', ran, after⟩ := before.step parts some' short (round s left dst before) fewer
  rw [ran, others _ left' _ after, same, map_append_append]

theorem unescapes_single {first second : UInt8} (apart : ¬(first = 0 ∧ second = 0))
    (same : withoutEscapes (first :: second :: rest) =
      (withoutEscapes (second :: rest)).map (first :: ·))
    (others : Unescapes src room (second :: rest)) :
    Unescapes src room (first :: second :: rest) := by
  have parts : first :: second :: rest = [first] ++ second :: rest := rfl
  apply unescapes_step [first] parts Nat.one_pos (Nat.le_refl 1) _ same others
  intro s left dst before
  have fits := before.fits
  rw [List.length_cons] at fits
  exact h264_round_single before.ahead apart (by omega)

theorem unescapes_plain_pair {third : UInt8} (plain : third ≠ 3)
    (same : withoutEscapes (0 :: 0 :: third :: rest) =
      (withoutEscapes rest).map ([0, 0, third] ++ ·))
    (others : Unescapes src room rest) : Unescapes src room (0 :: 0 :: third :: rest) := by
  have parts : 0 :: 0 :: third :: rest = [0, 0, third] ++ rest := rfl
  apply unescapes_step [0, 0, third] parts (Nat.zero_lt_succ 2) (Nat.le_refl 3) _ same others
  intro s left dst before
  have fits := before.fits
  simp only [List.length_cons] at fits
  exact h264_round_pair before.ahead plain (by omega)

theorem unescapes_escape {fourth : UInt8}
    (same : withoutEscapes (0 :: 0 :: 3 :: fourth :: rest) =
      (withoutEscapes rest).map ([0, 0, fourth] ++ ·))
    (others : Unescapes src room rest) : Unescapes src room (0 :: 0 :: 3 :: fourth :: rest) := by
  have parts : 0 :: 0 :: 3 :: fourth :: rest = [0, 0, 3, fourth] ++ rest := rfl
  apply unescapes_step [0, 0, fourth] parts (Nat.zero_lt_succ 3) (Nat.le_succ 3) _ same others
  intro s left dst before
  have fits := before.fits
  have length := before.length
  simp only [List.length_cons] at fits length
  exact h264_round_escape before.ahead (by omega) (by omega)

theorem unescapes_nil : Unescapes src room [] := by
  intro s left dst before
  have length := before.length
  rw [before.ends (Nat.le_of_eq length)]
  simp [withoutEscapes]

theorem unescapes_byte (byte : UInt8) : Unescapes src room [byte] := by
  intro s left dst before
  have length := before.length
  have fits := before.fits
  rw [List.length_singleton] at length fits
  by_cases zero : byte = 0
  · subst zero
    exact while_below_fails (by omega) (h264_round_zero before.ahead)
  · have short : s < src.length := by omega
    have copied : h264Round src src.length room s dst = some (.goesOn (s + 1) (dst ++ [byte])) :=
      h264_round_copy (zeros_ahead_other before.ahead zero) before.ahead fits
    obtain ⟨left', ran, after⟩ := before.step (List.append_nil [byte]).symm Nat.one_pos short
      copied (Nat.le_refl 1)
    rw [ran, unescapes_nil _ left' _ after, withoutEscapes, withoutEscapes, if_neg zero]
    simp

theorem unescapes_two_zeros : Unescapes src room [0, 0] := by
  intro s left dst before
  have length := before.length
  simp only [List.length_cons] at length
  exact while_below_fails (by omega) (h264_round_two_zeros before.ahead)

theorem unescapes_last_escape : Unescapes src room [0, 0, 3] := by
  intro s left dst before
  have length := before.length
  have fits := before.fits
  simp only [List.length_cons, List.length_nil] at length fits
  exact before.last (by omega) (h264_round_returns before.ahead (by omega) (by omega))

theorem h264_unescapes (src : List UInt8) (room : Nat) (rest : List UInt8) :
    Unescapes src room rest := by
  induction rest using withoutEscapes.induct with
  | case1 => exact unescapes_nil
  | case2 | case3 => exact unescapes_byte _
  | case4 first second zeros =>
      obtain ⟨rfl, rfl⟩ := zeros
      exact unescapes_two_zeros
  | case5 first second apart ih =>
      exact unescapes_single apart (if_neg apart) ih
  | case6 first second zeros =>
      obtain ⟨rfl, rfl⟩ := zeros
      exact unescapes_last_escape
  | case7 first second third zeros plain =>
      obtain ⟨rfl, rfl⟩ := zeros
      apply unescapes_plain_pair plain _ unescapes_nil
      simp [withoutEscapes, plain]
  | case8 first second third apart ih =>
      exact unescapes_single apart (if_neg apart) ih
  | case9 first second fourth rest zeros ih =>
      obtain ⟨rfl, rfl⟩ := zeros
      exact unescapes_escape (by simp [withoutEscapes]) ih
  | case10 first second third fourth rest zeros plain ih =>
      obtain ⟨rfl, rfl⟩ := zeros
      exact unescapes_plain_pair plain (by simp [withoutEscapes, plain]) ih
  | case11 first second third fourth rest apart ih =>
      exact unescapes_single apart (if_neg apart) ih

theorem h264_nal_unescape_eq {src : List UInt8} {room : Nat} (fits : src.length ≤ room) :
    h264NalUnescape src src.length room = withoutEscapes src := by
  have before : Before src room src 0 [] (src.length + 1) :=
    ⟨rfl, (Nat.zero_add _).symm, Nat.lt_succ_self _, by rw [List.length_nil]; omega⟩
  rw [h264NalUnescape, h264_unescapes src room src 0 _ [] before]
  simp

/-! Where memory follows the unit, a round writes no more than it reads, and reads up to two bytes
behind the unit. -/

theorem h264_round_inside {len : Nat} (dst : List UInt8) (short : s < len) (more : len + 2 ≤ src.length)
    (fits : dst.length + 3 ≤ room) :
    ∃ result, h264Round src len room s dst = some result ∧
      ∀ next after, result = .goesOn next after →
        s < next ∧ after.length + s ≤ dst.length + next := by
  obtain ⟨first, second, third, rest, there⟩ :
      ∃ first second third rest, src.drop s = first :: second :: third :: rest := by
    have length : (src.drop s).length = src.length - s := List.length_drop
    rcases ahead : src.drop s with _ | ⟨first, _ | ⟨second, _ | ⟨third, rest⟩⟩⟩
    · rw [ahead, List.length_nil] at length
      omega
    · rw [ahead, List.length_singleton] at length
      omega
    · rw [ahead] at length
      simp only [List.length_cons, List.length_nil] at length
      omega
    · exact ⟨first, second, third, rest, rfl⟩
  by_cases zeros : first = 0 ∧ second = 0
  · obtain ⟨rfl, rfl⟩ := zeros
    by_cases escape : third = 3
    · subst escape
      by_cases last : len ≤ s + 3
      · refine ⟨_, h264_round_returns there last (by omega), ?_⟩
        intro next after same
        cases same
      · obtain ⟨fourth, behind⟩ : ∃ fourth, src[s + 3]? = some fourth :=
          ⟨_, List.getElem?_eq_getElem (by omega)⟩
        rw [read_ahead there 3, List.getElem?_cons_succ, List.getElem?_cons_succ,
          List.getElem?_cons_succ] at behind
        obtain ⟨others, rfl⟩ : ∃ others, rest = fourth :: others := by
          cases rest with
          | nil => cases behind
          | cons byte others =>
              rw [List.getElem?_cons_zero] at behind
              exact ⟨others, by rw [Option.some.inj behind]⟩
        refine ⟨_, h264_round_escape there (Nat.not_le.mp last) fits, ?_⟩
        intro next after same
        cases same
        simp only [List.length_append, List.length_cons, List.length_nil]
        omega
    · refine ⟨_, h264_round_pair there escape fits, ?_⟩
      intro next after same
      cases same
      simp only [List.length_append, List.length_cons, List.length_nil]
      omega
  · refine ⟨_, h264_round_single there zeros (by omega), ?_⟩
    intro next after same
    cases same
    simp only [List.length_append, List.length_cons, List.length_nil]
    omega

theorem h264_loop_inside {len : Nat} (more : len + 2 ≤ src.length) (wide : len + 2 ≤ room)
    (some' : 0 < left) (enough : len < s + left) (written : dst.length ≤ s) :
    (whileBelow len (h264Round src len room) left s dst).isSome = true := by
  induction left generalizing s dst with
  | zero => exact absurd some' (Nat.lt_irrefl 0)
  | succ left ih =>
      rw [whileBelow]
      split
      · next short =>
          obtain ⟨result, ran, onward⟩ := h264_round_inside dst short more
            (show dst.length + 3 ≤ room by omega)
          rw [ran, Option.bind_some]
          cases result with
          | returns after => rfl
          | goesOn next after =>
              obtain ⟨later, grown⟩ := onward next after rfl
              exact ih (by omega) (by omega) (by omega)
      · rfl

theorem h264_writes_inside {len : Nat} (more : len + 2 ≤ src.length) (wide : len + 2 ≤ room) :
    (h264NalUnescape src len room).isSome = true :=
  h264_loop_inside more wide (Nat.zero_lt_succ _) (by omega) (Nat.zero_le 0)

/-! ## H.265 -/

theorem h265_runs_out {bound len : Nat} (there : src.drop s = rest) (few : rest.length < 3)
    (far : s + rest.length < bound) :
    whileBelow bound (h265Round src len room) left s dst = none := by
  induction rest generalizing s left dst with
  | nil =>
      apply while_below_fails (by omega)
      rw [h265Round, zerosThenOther, zerosAhead, read_first there]
      rfl
  | cons byte rest ih =>
      rw [List.length_cons] at few far
      have behind : src[s + 2]? = none := by
        rw [read_ahead there 2, List.getElem?_eq_none]
        rw [List.length_cons]
        omega
      cases ahead : zerosAhead src s with
      | none =>
          apply while_below_fails (by omega)
          rw [h265Round, zerosThenOther, ahead]
          rfl
      | some zeros =>
          cases zeros with
          | true =>
              have outside : zerosThenOther src s = none := by
                rw [zerosThenOther, ahead, Option.bind_eq_bind, Option.bind_some, if_pos rfl,
                  behind]
                rfl
              apply while_below_fails (by omega)
              rw [h265Round, outside]
              rfl
          | false =>
              have other := zeros_then_other_false ahead
              by_cases fits : dst.length < room
              · cases left with
                | zero => rfl
                | succ left =>
                    rw [while_below_goes_on (by omega) (h265_round_copy other there fits)]
                    exact ih (drop_further [byte] there) (by omega) (by omega)
              · apply while_below_fails (by omega)
                rw [h265Round, other, Option.bind_eq_bind, Option.bind_some,
                  if_neg Bool.false_ne_true, copyByte, read_first there, List.getElem?_cons_zero,
                  Option.bind_eq_bind, Option.bind_some, store, if_neg fits]
                rfl

theorem h265_short_fails {src : List UInt8} (few : src.length < 3) (room : Nat) :
    h265NalUnescape src src.length room = none := by
  have far := size_sub_short few
  have whole : src.drop 0 = src := rfl
  exact h265_runs_out whole few (by omega)

theorem zeros_then_other_single {first second third : UInt8} {rest : List UInt8}
    (there : src.drop s = first :: second :: third :: rest)
    (apart : ¬(first = 0 ∧ second = 0 ∧ third ≠ 0)) : zerosThenOther src s = some false := by
  by_cases zero : first = 0
  · subst zero
    by_cases pair : second = 0
    · subst pair
      have third' : third = 0 := by
        by_contra other
        exact apart ⟨rfl, rfl, other⟩
      rw [zerosThenOther, zeros_ahead_pair there, Option.bind_eq_bind, Option.bind_some,
        if_pos rfl, read_ahead there 2, third']
      rfl
    · exact zeros_then_other_false (zeros_ahead_single there pair)
  · exact zeros_then_other_false (zeros_ahead_other there zero)

theorem h265_writes (src : List UInt8) (room : Nat) (rest : List UInt8) (s left : Nat)
    (dst : List UInt8) (before : Before src room rest s dst left) :
    whileBelow (src.length - 3) (h265Round src src.length room) left s dst =
      some (dst ++ withoutEnd rest) := by
  induction rest using withoutEnd.induct generalizing s left dst with
  | case1 first second fourth rest zeros ih =>
      obtain ⟨rfl, rfl, other⟩ := zeros
      have length := before.length
      have fits := before.fits
      simp only [List.length_cons] at length fits
      have short : s < src.length - 3 := by omega
      have ran : h265Round src src.length room s dst = some (.goesOn (s + 3) (dst ++ [0, 0])) := by
        rw [h265_round_pair before.ahead other (by omega), if_pos rfl, if_neg (by omega)]
      have parts : (0 : UInt8) :: 0 :: 3 :: fourth :: rest = [0, 0, 3] ++ fourth :: rest := rfl
      obtain ⟨left', same, after⟩ := before.step parts (by decide) short ran
        (by decide)
      rw [same, ih _ left' _ after, withoutEnd, if_pos ⟨rfl, rfl, other⟩, if_pos rfl,
        List.append_assoc]
  | case2 first second third fourth rest zeros plain ih =>
      obtain ⟨rfl, rfl, other⟩ := zeros
      have length := before.length
      have fits := before.fits
      simp only [List.length_cons] at length fits
      have short : s < src.length - 3 := by omega
      have ran : h265Round src src.length room s dst = some (.goesOn (s + 2) (dst ++ [0, 0])) := by
        rw [h265_round_pair before.ahead other (by omega), if_neg plain]
      have parts : (0 : UInt8) :: 0 :: third :: fourth :: rest =
          [0, 0] ++ third :: fourth :: rest := rfl
      obtain ⟨left', same, after⟩ := before.step parts (by decide) short ran
        (by decide)
      rw [same, ih _ left' _ after, withoutEnd, if_pos ⟨rfl, rfl, other⟩, if_neg plain,
        List.append_assoc]
  | case3 first second third fourth rest apart ih =>
      have length := before.length
      have fits := before.fits
      simp only [List.length_cons] at length fits
      have short : s < src.length - 3 := by omega
      have ran : h265Round src src.length room s dst =
          some (.goesOn (s + 1) (dst ++ [first])) :=
        h265_round_copy (zeros_then_other_single before.ahead apart) before.ahead (by omega)
      have parts : first :: second :: third :: fourth :: rest =
          [first] ++ second :: third :: fourth :: rest := rfl
      obtain ⟨left', same, after⟩ := before.step parts Nat.one_pos short ran
        (Nat.le_refl 1)
      rw [same, ih _ left' _ after, withoutEnd, if_neg apart, List.append_assoc]
      rfl
  | case4 rest few =>
      have short : rest.length ≤ 3 := by
        rcases rest with _ | ⟨first, _ | ⟨second, _ | ⟨third, _ | ⟨fourth, rest⟩⟩⟩⟩
        · exact Nat.zero_le 3
        · exact Nat.le_add_left 1 2
        · exact Nat.le_succ 2
        · exact Nat.le_refl 3
        · exact absurd rfl (few first second third fourth rest)
      have length := before.length
      rw [before.ends (by omega), withoutEnd, List.append_nil]
      exact few

theorem h265_nal_unescape_eq {src : List UInt8} {room : Nat} (fits : src.length ≤ room)
    (many : 3 ≤ src.length) : h265NalUnescape src src.length room = some (withoutEnd src) := by
  have before : Before src room src 0 [] (src.length + 1) :=
    ⟨rfl, (Nat.zero_add _).symm, Nat.lt_succ_self _, by rw [List.length_nil]; omega⟩
  rw [h265NalUnescape, sizeSub, if_pos many, h265_writes src room src 0 _ [] before,
    List.nil_append]

end Runs
end Xineliboutput.Elementary
