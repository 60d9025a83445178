import Mathlib.Data.List.TakeWhile
import Xineliboutput.Server.InfoHandler

/-!
# Termination of the information handler

The loops of `TRACKMAP AUDIO` and `METAINFO` consume something in every round. The one of
`TRACKMAP SPU` does so only where an entry, a star or a blank begins: it ends on the texts
that are made of those, and goes on for ever on all others.
-/

namespace Xineliboutput.Server

open Xineliboutput.Foundation

set_option autoImplicit false

/-- Blanks, stars, choices such as `*-2:none`, and entries such as `3:eng`, of which the
last need not be complete. -/
inductive SpuText : List UInt8 → Prop where
  | done : SpuText []
  | blank {rest : List UInt8} (more : SpuText rest) : SpuText (32 :: rest)
  | star {rest : List UInt8} (more : SpuText rest) : SpuText (42 :: rest)
  | choice {word rest : List UInt8} (unbroken : ∀ byte ∈ word, notByte 32 byte = true)
      (ended : rest = [] ∨ rest.head? = some 32) (more : SpuText rest) :
      SpuText (42 :: 45 :: (word ++ rest))
  | entry {digit : UInt8} {number lang rest : List UInt8} (digital : isDigit digit = true)
      (plain : ∀ byte ∈ number, notByte 58 byte = true)
      (unbroken : ∀ byte ∈ lang, notByte 32 byte = true) (more : SpuText rest) :
      SpuText (digit :: (number ++ 58 :: (lang ++ 32 :: rest)))
  | lastLang {digit : UInt8} {number lang : List UInt8} (digital : isDigit digit = true)
      (plain : ∀ byte ∈ number, notByte 58 byte = true)
      (unbroken : ∀ byte ∈ lang, notByte 32 byte = true) :
      SpuText (digit :: (number ++ 58 :: lang))
  | lastNumber {digit : UInt8} {number : List UInt8} (digital : isDigit digit = true)
      (plain : ∀ byte ∈ number, notByte 58 byte = true) : SpuText (digit :: number)

/-! ## Entries -/

theorem digit_is {byte : UInt8} (digital : isDigit byte = true) :
    byte ≠ 32 ∧ byte ≠ 42 ∧ byte ≠ 45 ∧ byte ≠ 58 := by
  refine ⟨?_, ?_, ?_, ?_⟩ <;> rintro rfl <;> cases digital

theorem not_byte_iff {byte other : UInt8} : notByte byte other = true ↔ other ≠ byte := by
  simp [notByte]

theorem plain_of_all {byte : UInt8} {text : List UInt8} (all : text.all (notByte byte) = true) :
    ∀ other ∈ text, other ≠ byte := by
  intro other inside
  exact not_byte_iff.mp (List.all_eq_true.mp all other inside)

theorem drop_unbroken {byte : UInt8} {word rest : List UInt8}
    (unbroken : ∀ other ∈ word, notByte byte other = true) :
    (word ++ byte :: rest).dropWhile (notByte byte) = byte :: rest := by
  rw [List.dropWhile_append_of_pos unbroken, List.dropWhile_cons_of_neg]
  simp [notByte]

theorem drop_all {byte : UInt8} {word : List UInt8}
    (unbroken : ∀ other ∈ word, notByte byte other = true) : word.dropWhile (notByte byte) = [] :=
  List.dropWhile_eq_nil_iff.mpr unbroken

theorem text_head {byte : UInt8} {rest : List UInt8} (text : SpuText (byte :: rest)) :
    byte = 32 ∨ byte = 42 ∨ isDigit byte = true := by
  cases text with
  | blank => exact Or.inl rfl
  | star => exact Or.inr (Or.inl rfl)
  | choice => exact Or.inr (Or.inl rfl)
  | entry digital => exact Or.inr (Or.inr digital)
  | lastLang digital => exact Or.inr (Or.inr digital)
  | lastNumber digital => exact Or.inr (Or.inr digital)

theorem split_at_byte (byte : UInt8) (text : List UInt8) :
    (∀ other ∈ text, notByte byte other = true) ∨
      ∃ word rest, text = word ++ byte :: rest ∧ ∀ other ∈ word, notByte byte other = true := by
  induction text with
  | nil => exact Or.inl fun _ member => absurd member List.not_mem_nil
  | cons head text ih =>
      by_cases same : head = byte
      · exact Or.inr ⟨[], text, by rw [same]; rfl, fun _ member => absurd member List.not_mem_nil⟩
      · have other := not_byte_iff.mpr same
        rcases ih with all | ⟨word, rest, split, unbroken⟩
        · exact Or.inl (List.forall_mem_cons.mpr ⟨other, all⟩)
        · exact Or.inr ⟨head :: word, rest, by rw [split]; rfl,
            List.forall_mem_cons.mpr ⟨other, unbroken⟩⟩

variable {digit : UInt8} {number tail : List UInt8}

theorem take_entry_rest (digital : isDigit digit = true)
    (plain : ∀ byte ∈ number, notByte 58 byte = true) (behind : List UInt8) :
    (takeEntry (digit :: (number ++ 58 :: behind))).rest =
      (behind.dropWhile (notByte 32)).drop 1 := by
  have all : ∀ byte ∈ digit :: number, notByte 58 byte = true :=
    List.forall_mem_cons.mpr ⟨not_byte_iff.mpr (digit_is digital).2.2.2, plain⟩
  unfold takeEntry
  dsimp only
  rw [← List.cons_append, drop_unbroken all, List.drop_succ_cons, List.drop_zero]

theorem take_entry_bare (digital : isDigit digit = true)
    (plain : ∀ byte ∈ number, notByte 58 byte = true) : (takeEntry (digit :: number)).rest = [] := by
  have all : ∀ byte ∈ digit :: number, notByte 58 byte = true :=
    List.forall_mem_cons.mpr ⟨not_byte_iff.mpr (digit_is digital).2.2.2, plain⟩
  unfold takeEntry
  dsimp only
  rw [drop_all all]
  rfl

theorem take_entry_shorter (map : List UInt8) (some_left : map ≠ []) :
    (takeEntry map).rest.length < map.length := by
  cases map with
  | nil => exact absurd rfl some_left
  | cons head map =>
      have behind : (((head :: map).dropWhile (notByte 58)).drop 1).length ≤ map.length := by
        have dropped := List.length_dropWhile_le (notByte 58) (head :: map)
        rw [List.length_drop]
        rw [List.length_cons] at dropped
        omega
      have rest := List.length_dropWhile_le (notByte 32) (((head :: map).dropWhile (notByte 58)).drop 1)
      unfold takeEntry
      dsimp only
      rw [List.length_drop, List.length_cons]
      omega

theorem entry_text (digital : isDigit digit = true) :
    SpuText (takeEntry (digit :: tail)).rest ↔ SpuText (digit :: tail) := by
  constructor
  · intro more
    rcases split_at_byte 58 tail with plain | ⟨number, behind, rfl, plain⟩
    · exact .lastNumber digital plain
    · rw [take_entry_rest digital plain] at more
      rcases split_at_byte 32 behind with unbroken | ⟨lang, rest, rfl, unbroken⟩
      · exact .lastLang digital plain unbroken
      · rw [drop_unbroken unbroken] at more
        exact .entry digital plain unbroken more
  · intro text
    cases text with
    | blank => cases digital
    | star => cases digital
    | choice => cases digital
    | entry _ plain unbroken more =>
        rw [take_entry_rest digital plain, drop_unbroken unbroken]
        exact more
    | lastLang _ plain unbroken =>
        rw [take_entry_rest digital plain, drop_all unbroken]
        exact .done
    | lastNumber _ plain =>
        rw [take_entry_bare digital plain]
        exact .done

/-! ## Rounds -/

/-- The text behind a round of the loop of `TRACKMAP SPU`. -/
def behindRound (map : List UInt8) : List UInt8 :=
  let (current, map) := takeStar (skipBlanks map)
  if current = true ∧ map.head? = some 45 then map.dropWhile (notByte 32)
  else if map.head?.any isDigit then (takeEntry map).rest
  else map

theorem spu_round_map (loop : TrackLoop) : (spuRound loop).map = behindRound loop.map := by
  unfold spuRound behindRound
  dsimp only
  split
  · rfl
  · split <;> rfl

theorem skip_blanks_text (map : List UInt8) : SpuText (skipBlanks map) ↔ SpuText map := by
  unfold skipBlanks
  induction map with
  | nil => exact Iff.rfl
  | cons head map ih =>
      by_cases blank : head = 32
      · subst blank
        rw [List.dropWhile_cons_of_pos rfl, ih]
        constructor
        · exact SpuText.blank
        · intro text
          cases text with
          | blank more => exact more
          | entry digital => cases digital
          | lastLang digital => cases digital
          | lastNumber digital => cases digital
      · rw [List.dropWhile_cons_of_neg (by simpa using blank)]

theorem skip_blanks_head (map : List UInt8) : (skipBlanks map).head? ≠ some 32 := by
  unfold skipBlanks
  induction map with
  | nil => exact fun same => nomatch same
  | cons head map ih =>
      by_cases blank : head = 32
      · subst blank
        rwa [List.dropWhile_cons_of_pos rfl]
      · rw [List.dropWhile_cons_of_neg (by simpa using blank)]
        simpa using blank

def behindStar (rest : List UInt8) : List UInt8 :=
  if rest.head? = some 45 then rest.dropWhile (notByte 32)
  else if rest.head?.any isDigit then (takeEntry rest).rest
  else rest

theorem skip_blanks_plain {text : List UInt8} (plain : text.head? ≠ some 32) :
    skipBlanks text = text := by
  cases text with
  | nil => rfl
  | cons byte text =>
      apply List.dropWhile_cons_of_neg
      intro blank
      exact plain (congrArg some (eq_of_beq blank))

theorem skip_blank (text : List UInt8) : skipBlanks (32 :: text) = skipBlanks text := rfl

theorem not_dash_text (rest : List UInt8) : ¬SpuText (45 :: rest) := by
  intro text
  rcases text_head text with same | same | digital
  · cases same
  · cases same
  · cases digital

theorem star_cases {rest : List UInt8} (text : SpuText (42 :: rest)) :
    SpuText rest ∨ ∃ word behind, rest = 45 :: (word ++ behind) ∧
      (∀ byte ∈ word, notByte 32 byte = true) ∧ (behind = [] ∨ behind.head? = some 32) ∧
      SpuText behind := by
  cases text with
  | star more => exact Or.inl more
  | choice unbroken ended more => exact Or.inr ⟨_, _, rfl, unbroken, ended, more⟩
  | entry digital => cases digital
  | lastLang digital => cases digital
  | lastNumber digital => cases digital

theorem choice_text (rest : List UInt8) :
    SpuText (rest.dropWhile (notByte 32)) ↔ SpuText (42 :: 45 :: rest) := by
  constructor
  · intro more
    rcases split_at_byte 32 rest with unbroken | ⟨word, behind, rfl, unbroken⟩
    · have text := SpuText.choice unbroken (Or.inl rfl) SpuText.done
      rwa [List.append_nil] at text
    · rw [drop_unbroken unbroken] at more
      exact .choice unbroken (Or.inr rfl) more
  · intro text
    rcases star_cases text with more | ⟨word, behind, same, unbroken, ended, more⟩
    · exact absurd more (not_dash_text rest)
    · obtain rfl := (List.cons.inj same).2
      cases behind with
      | nil =>
          rw [List.append_nil, drop_all unbroken]
          exact .done
      | cons head behind =>
          have blank : head = 32 := by simpa using ended
          subst blank
          rw [drop_unbroken unbroken]
          exact more

theorem star_text (rest : List UInt8) : SpuText (behindStar rest) ↔ SpuText (42 :: rest) := by
  unfold behindStar
  cases rest with
  | nil => exact iff_of_true .done (.star .done)
  | cons head rest =>
      by_cases dash : head = 45
      · subst dash
        rw [List.head?_cons, if_pos rfl, List.dropWhile_cons_of_pos rfl]
        exact choice_text rest
      · have starred : SpuText (42 :: head :: rest) ↔ SpuText (head :: rest) := by
          constructor
          · intro text
            rcases star_cases text with more | ⟨word, behind, same, -⟩
            · exact more
            · exact absurd (List.cons.inj same).1 dash
          · exact SpuText.star
        rw [starred, List.head?_cons, if_neg (by simpa using dash), Option.any_some]
        by_cases digital : isDigit head = true
        · rw [if_pos digital]
          exact entry_text digital
        · rw [if_neg digital]

theorem behind_round_star {map rest : List UInt8} (starred : skipBlanks map = 42 :: rest) :
    behindRound map = behindStar rest := by
  unfold behindRound behindStar
  rw [starred]
  simp [takeStar]

theorem behind_round_plain {map : List UInt8} (plain : (skipBlanks map).head? ≠ some 42) :
    behindRound map = if (skipBlanks map).head?.any isDigit then (takeEntry (skipBlanks map)).rest
      else skipBlanks map := by
  unfold behindRound
  generalize skipBlanks map = text at plain
  cases text with
  | nil => rfl
  | cons head rest =>
      have other : head ≠ 42 := by simpa using plain
      unfold takeStar
      dsimp only
      rw [if_neg other]
      dsimp only
      rw [if_neg fun both => Bool.false_ne_true both.1]

theorem round_text (map : List UInt8) : SpuText (behindRound map) ↔ SpuText map := by
  rw [← skip_blanks_text map]
  cases skipped : skipBlanks map with
  | nil =>
      have nothing : behindRound map = [] := by
        rw [behind_round_plain (by rw [skipped]; simp), skipped]
        rfl
      rw [nothing]
  | cons head rest =>
      by_cases starred : head = 42
      · subst starred
        rw [behind_round_star skipped]
        exact star_text rest
      · rw [behind_round_plain (by rw [skipped]; simpa using starred), skipped, List.head?_cons,
          Option.any_some]
        by_cases digital : isDigit head = true
        · rw [if_pos digital]
          exact entry_text digital
        · rw [if_neg digital]

theorem behind_star_length (rest : List UInt8) : (behindStar rest).length ≤ rest.length := by
  unfold behindStar
  split
  · exact List.length_dropWhile_le _ _
  · split
    · rename_i digital
      apply Nat.le_of_lt
      apply take_entry_shorter
      rintro rfl
      cases digital
    · exact Nat.le_refl _

theorem round_consumes {map : List UInt8} (text : SpuText map) (some_left : map ≠ []) :
    (behindRound map).length < map.length := by
  have shorter : (skipBlanks map).length ≤ map.length := List.length_dropWhile_le _ _
  have unblank := skip_blanks_head map
  rw [← skip_blanks_text map] at text
  cases skipped : skipBlanks map with
  | nil =>
      have nothing : behindRound map = [] := by
        rw [behind_round_plain (by rw [skipped]; simp), skipped]
        rfl
      rw [nothing]
      exact List.length_pos_iff.mpr some_left
  | cons head rest =>
      rw [skipped] at text shorter unblank
      rw [List.length_cons] at shorter
      by_cases starred : head = 42
      · subst starred
        rw [behind_round_star skipped]
        have onward := behind_star_length rest
        omega
      · rw [behind_round_plain (by rw [skipped]; simpa using starred), skipped, List.head?_cons,
          Option.any_some]
        have digital : isDigit head = true := by
          rcases text_head text with blank | star | digital
          · exact absurd (congrArg some blank) unblank
          · exact absurd star starred
          · exact digital
        rw [if_pos digital]
        have onward := take_entry_shorter (head :: rest) (List.cons_ne_nil _ _)
        rw [List.length_cons] at onward
        omega

/-! ## Loops -/

theorem goes_on_iff (loop : TrackLoop) : loop.goesOn = true ↔ loop.map ≠ [] := by
  simp [TrackLoop.goesOn]

theorem spu_loop_ends {limit : Nat} (loop : TrackLoop) (text : SpuText loop.map)
    (enough : loop.map.length ≤ limit) :
    ∃ final, whileWithin TrackLoop.goesOn spuRound limit loop = some final := by
  apply while_within_measure (fun loop => SpuText loop.map) (fun loop => loop.map.length) _ text enough
  intro loop text goes
  rw [spu_round_map]
  exact ⟨(round_text loop.map).mpr text, round_consumes text ((goes_on_iff loop).mp goes)⟩

theorem spu_loop_text {limit : Nat} {loop final : TrackLoop}
    (ends : whileWithin TrackLoop.goesOn spuRound limit loop = some final) : SpuText loop.map := by
  apply while_within_backward (fun loop => SpuText loop.map) _ _ ends
  · intro loop stops
    have empty : loop.map = [] := by simpa [TrackLoop.goesOn] using stops
    rw [empty]
    exact .done
  · intro loop _ text
    rw [spu_round_map] at text
    exact (round_text loop.map).mp text

theorem take_star_length (map : List UInt8) : (takeStar map).2.length ≤ map.length := by
  unfold takeStar
  cases map with
  | nil => exact Nat.le_refl _
  | cons head map =>
      dsimp only
      split
      · exact Nat.le_succ _
      · exact Nat.le_refl _

theorem audio_loop_ends {limit : Nat} (loop : TrackLoop) (enough : loop.map.length ≤ limit) :
    ∃ final, whileWithin TrackLoop.goesOn audioRound limit loop = some final := by
  apply while_within_measure (fun _ => True) (fun loop => loop.map.length) _ trivial enough
  intro loop _ goes
  refine ⟨trivial, ?_⟩
  have some_left := List.length_pos_iff.mpr ((goes_on_iff loop).mp goes)
  have blanks : (skipBlanks loop.map).length ≤ loop.map.length := List.length_dropWhile_le _ _
  have star := take_star_length (skipBlanks loop.map)
  change (takeEntry (takeStar (skipBlanks loop.map)).2).rest.length < loop.map.length
  by_cases empty : (takeStar (skipBlanks loop.map)).2 = []
  · rw [empty]
    exact some_left
  · have entry := take_entry_shorter _ empty
    omega

theorem split_once_length {word text before behind : List UInt8}
    (split : splitOnce word text = some (before, behind)) :
    behind.length + word.length ≤ text.length := by
  induction text generalizing before with
  | nil =>
      unfold splitOnce at split
      split at split
      · cases split
        simp [*]
      · cases split
  | cons byte text ih =>
      unfold splitOnce at split
      split at split
      · rename_i front
        cases split
        have bound := (List.isPrefixOf_iff_prefix.mp front).length_le
        rw [List.length_drop]
        omega
      · obtain ⟨⟨_, _⟩, later, same⟩ := Option.map_eq_some_iff.mp split
        cases same
        exact Nat.le_succ_of_le (ih later)

theorem meta_round_cases (loop : MetaLoop) :
    (metaRound loop).left = true ∨
      (metaRound loop).left = loop.left ∧ (metaRound loop).map.length + 3 ≤ loop.map.length := by
  have blanks : (skipBlanks loop.map).length ≤ loop.map.length := List.length_dropWhile_le _ _
  unfold metaRound
  dsimp only
  cases named : splitOnce (ascii "=@".toList) (skipBlanks loop.map) with
  | none => exact Or.inl rfl
  | some parts =>
      have first := split_once_length named
      have word : (ascii "=@".toList).length = 2 := rfl
      dsimp only
      cases valued : splitOnce (ascii "@".toList) parts.2 with
      | none => exact Or.inl rfl
      | some rest =>
          have second := split_once_length valued
          have sign : (ascii "@".toList).length = 1 := rfl
          refine Or.inr ⟨rfl, ?_⟩
          dsimp only
          omega

theorem meta_loop_ends {limit : Nat} (loop : MetaLoop) (enough : loop.map.length ≤ limit) :
    ∃ final, whileWithin MetaLoop.goesOn metaRound limit loop = some final := by
  have measured : (if loop.left then 0 else loop.map.length) ≤ limit := by
    split
    · exact Nat.zero_le _
    · exact enough
  apply while_within_measure (fun _ => True)
    (fun loop => if loop.left then 0 else loop.map.length) _ trivial measured
  intro loop _ goes
  refine ⟨trivial, ?_⟩
  obtain ⟨some_left, stays⟩ : loop.map ≠ [] ∧ loop.left = false := by
    simpa [MetaLoop.goesOn] using goes
  have positive := List.length_pos_iff.mpr some_left
  rcases meta_round_cases loop with left | ⟨same, shorter⟩
  · rw [left, if_pos rfl, stays, if_neg Bool.false_ne_true]
    exact positive
  · rw [same, stays, if_neg Bool.false_ne_true, if_neg Bool.false_ne_true]
    omega

/-! ## The handler -/

def Terminates (info : List UInt8) : Prop := ∃ limit, (infoHandler limit info).isSome = true

/-- The part of a `TRACKMAP SPU` message that its loop runs over. -/
def spuMap (info : List UInt8) : List UInt8 := (info.takeWhile (notByte 13)).drop 12

theorem map_length (info : List UInt8) (count : Nat) :
    ((info.takeWhile (notByte 13)).drop count).length ≤ info.length := by
  have front := (List.takeWhile_prefix (notByte 13) (l := info)).length_le
  rw [List.length_drop]
  omega

/-- The handler ends on every text except a map of subtitle tracks that is not made of
entries, stars and blanks; and then after at most as many rounds as the text has bytes. -/
theorem terminates_iff (info : List UInt8) :
    (Terminates info ↔ (trackmapSpuWord.isPrefixOf info = true → SpuText (spuMap info))) ∧
      (Terminates info → (infoHandler info.length info).isSome = true) := by
  have needed : Terminates info →
      (trackmapSpuWord.isPrefixOf info = true → SpuText (spuMap info)) := by
    rintro ⟨limit, ends⟩ spu
    unfold infoHandler at ends
    rw [if_pos spu, Option.isSome_map] at ends
    obtain ⟨final, ended⟩ := Option.isSome_iff_exists.mp ends
    exact spu_loop_text ended
  have enough : (trackmapSpuWord.isPrefixOf info = true → SpuText (spuMap info)) →
      (infoHandler info.length info).isSome = true := by
    intro right
    unfold infoHandler
    dsimp only
    split
    · rename_i spu
      obtain ⟨final, ended⟩ := spu_loop_ends ⟨spuMap info, ttXSubtitleAuto, []⟩ (right spu)
        (map_length info 12)
      rw [spuMap] at ended
      rw [ended]
      rfl
    · split
      · obtain ⟨final, ended⟩ := audio_loop_ends ⟨_, ttXSubtitleAuto, [.clrAvailableTracks]⟩
          (map_length info 14)
        rw [ended]
        rfl
      · split
        · obtain ⟨final, ended⟩ := meta_loop_ends ⟨_, false, []⟩ (map_length info 8)
          rw [ended]
          rfl
        · rfl
  exact ⟨⟨needed, fun right => ⟨_, enough right⟩⟩, fun ends => enough (needed ends)⟩

/-- A letter where an entry should begin. -/
theorem letter_hangs : ¬Terminates (ascii "TRACKMAP SPU en".toList) := by
  rintro ⟨limit, ends⟩
  have spu : trackmapSpuWord.isPrefixOf (ascii "TRACKMAP SPU en".toList) = true := by decide
  unfold infoHandler at ends
  rw [if_pos spu, Option.isSome_map] at ends
  obtain ⟨final, ended⟩ := Option.isSome_iff_exists.mp ends
  have text : SpuText [32, 101, 110] := spu_loop_text ended
  rcases text_head ((skip_blanks_text _).mpr text) with same | same | digital
  · revert same
    decide
  · revert same
    decide
  · revert digital
    decide

end Xineliboutput.Server
