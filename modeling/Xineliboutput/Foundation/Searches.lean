import Mathlib

/-!
# Looking for a marker in a stream that comes in pieces

A reader drops from a stream what cannot belong to a marker, and keeps everything from
the first marker on. What it holds after each piece depends only on the bytes that have
come, not on the pieces, once a marker is among them.
-/

namespace Xineliboutput.Foundation.Marker

set_option autoImplicit false

variable {Byte : Type*}

def Starts (marker text : List Byte) : Prop := marker <+: text

/-- The text begins with the marker, or may do so once more has come. -/
def CouldStart (marker text : List Byte) : Prop :=
  text ≠ [] ∧ text.take marker.length <+: marker

/-- What follows the first marker of a stream, with the marker itself. -/
structure First (marker stream start : List Byte) : Prop where
  suffix : start <:+ stream
  starts : Starts marker start
  earliest : ∀ other, other <:+ stream → Starts marker other → other <:+ start

structure Held (marker stream content : List Byte) : Prop where
  suffix : content <:+ stream
  keeps : ∀ text, text <:+ stream → CouldStart marker text → text <:+ content
  settled : Starts marker content ∨ content.length < marker.length

theorem could_start_of_starts {marker text : List Byte} (nonempty : marker ≠ [])
    (starts : Starts marker text) : CouldStart marker text := by
  obtain ⟨rest, rfl⟩ := starts
  refine ⟨by simp [nonempty], ?_⟩
  simp only [List.take_left, List.prefix_refl]

theorem could_start_of_append {marker text more : List Byte} (nonempty : text ≠ [])
    (could : CouldStart marker (text ++ more)) : CouldStart marker text := by
  refine ⟨nonempty, ?_⟩
  have shorter : text.take marker.length <+: (text ++ more).take marker.length := by
    rw [List.take_append]
    exact List.prefix_append _ _
  exact shorter.trans could.2

theorem held_self {marker stream : List Byte}
    (settled : Starts marker stream ∨ stream.length < marker.length) :
    Held marker stream stream where
  suffix := List.suffix_refl stream
  keeps := by
    intro text suffix _
    exact suffix
  settled := settled

theorem Held.drop_byte {marker rest next : List Byte} {byte : Byte}
    (cannot : ¬ CouldStart marker (byte :: rest)) (held : Held marker rest next) :
    Held marker (byte :: rest) next where
  suffix := held.suffix.trans (List.suffix_cons byte rest)
  keeps := by
    intro text suffix could
    rcases List.suffix_cons_iff.mp suffix with rfl | inside
    · exact absurd could cannot
    · exact held.keeps text inside could
  settled := held.settled

/-- A further piece: the reader need not look at what it has dropped before. -/
theorem Held.append {marker stream content piece next : List Byte}
    (held : Held marker stream content) (onward : Held marker (content ++ piece) next) :
    Held marker (stream ++ piece) next where
  suffix := onward.suffix.trans (List.suffix_append_self_iff.mpr held.suffix)
  keeps := by
    intro text suffix could
    rcases List.suffix_or_suffix_of_suffix suffix (List.suffix_append stream piece) with
      inside | longer
    · exact onward.keeps text (inside.trans (List.suffix_append content piece)) could
    · obtain ⟨front, rfl⟩ := longer
      apply onward.keeps _ _ could
      apply List.suffix_append_self_iff.mpr
      by_cases none_ : front = []
      · rw [none_]
        exact List.nil_suffix
      · exact held.keeps front (List.suffix_append_self_iff.mp suffix)
          (could_start_of_append none_ could)
  settled := onward.settled

theorem Held.first {marker stream content start : List Byte} (nonempty : marker ≠ [])
    (held : Held marker stream content) (first : First marker stream start) : content = start := by
  have kept := held.keeps start first.suffix (could_start_of_starts nonempty first.starts)
  have begins : Starts marker content := by
    apply held.settled.resolve_right
    have longer := kept.length_le
    have marked := first.starts.length_le
    omega
  have within := first.earliest content held.suffix begins
  exact within.eq_of_length (Nat.le_antisymm within.length_le kept.length_le)

theorem Held.starts_first {marker stream content : List Byte} (nonempty : marker ≠ [])
    (held : Held marker stream content) (starts : Starts marker content) :
    First marker stream content where
  suffix := held.suffix
  starts := starts
  earliest := by
    intro other suffix begins
    exact held.keeps other suffix (could_start_of_starts nonempty begins)

end Xineliboutput.Foundation.Marker

/-!
# Searches that may fail

A loop over a range of numbers whose body reads something, fails, or ends the search with a
result. The first number at which the body does not go on decides what comes out.
-/

namespace Xineliboutput.Foundation

set_option autoImplicit false

variable {Result : Type*}

def searchRange (body : Nat → Option (Option Result)) : Nat → Nat → Option (Option Result)
  | 0, _ => some none
  | rounds + 1, i =>
      (body i).bind fun found =>
        match found with
        | some result => some (some result)
        | none => searchRange body rounds (i + 1)

section Search

variable {body : Nat → Option (Option Result)} {out : Option (Option Result)}

theorem search_goes_on {i : Nat} (goes : body i = some none) (rounds : Nat) :
    searchRange body (rounds + 1) i = searchRange body rounds (i + 1) := by
  rw [searchRange, goes]
  rfl

theorem search_ends_here {i : Nat} (stops : body i ≠ some none) (rounds : Nat) :
    searchRange body (rounds + 1) i = body i := by
  rw [searchRange]
  cases read : body i with
  | none => rfl
  | some found =>
      cases found with
      | none => exact absurd read stops
      | some result => rfl

/-- Any other outcome than that of the whole range comes from the first number with it. -/
theorem search_stops_iff (stop : out ≠ some none) (rounds first : Nat) :
    searchRange body rounds first = out ↔
      ∃ i, first ≤ i ∧ i < first + rounds ∧ body i = out ∧
        ∀ j, first ≤ j → j < i → body j = some none := by
  induction rounds generalizing first with
  | zero =>
      constructor
      · intro ran
        exact absurd ran.symm stop
      · rintro ⟨i, above, below, _⟩
        omega
  | succ rounds ih =>
      by_cases goes : body first = some none
      · rw [search_goes_on goes, ih]
        constructor
        · rintro ⟨i, above, below, here, before⟩
          refine ⟨i, by omega, by omega, here, ?_⟩
          intro j upper lower
          rcases Nat.eq_or_lt_of_le upper with rfl | later
          · exact goes
          · exact before j later lower
        · rintro ⟨i, above, below, here, before⟩
          have other : i ≠ first := by
            intro same
            rw [same, goes] at here
            exact stop here.symm
          exact ⟨i, by omega, by omega, here, fun j upper => before j (by omega)⟩
      · rw [search_ends_here goes]
        constructor
        · intro here
          exact ⟨first, Nat.le_refl _, by omega, here, fun j upper lower => by omega⟩
        · rintro ⟨i, above, below, here, before⟩
          rcases Nat.eq_or_lt_of_le above with rfl | later
          · exact here
          · exact absurd (before first (Nat.le_refl _) later) goes

theorem search_isSome_iff (rounds first : Nat) :
    (searchRange body rounds first).isSome = true ↔
      ∀ i, first ≤ i → i < first + rounds → (∀ j, first ≤ j → j < i → body j = some none) →
        (body i).isSome = true := by
  simp only [Option.isSome_iff_ne_none, ne_eq, search_stops_iff (Option.some_ne_none none).symm]
  constructor
  · intro never i above below before failed
    exact never ⟨i, above, below, failed, before⟩
  · rintro reads ⟨i, above, below, failed, before⟩
    exact reads i above below before failed

theorem search_isSome {rounds first : Nat}
    (reads : ∀ i, first ≤ i → i < first + rounds → (body i).isSome = true) :
    (searchRange body rounds first).isSome = true :=
  (search_isSome_iff rounds first).mpr fun i above below _ => reads i above below

/-- A search for units that goes on behind an incomplete one, and fails at one that is not whole:
it does not fail exactly where every unit that it comes to is whole. -/
theorem search_units_isSome_iff {rounds first : Nat} {Unit Incomplete Whole : Nat → Prop}
    (goes : ∀ i, first ≤ i → i < first + rounds → (body i = some none ↔ (Unit i → Incomplete i)))
    (reads : ∀ i, first ≤ i → i < first + rounds →
      ((body i).isSome = true ↔ (Unit i → Whole i))) :
    (searchRange body rounds first).isSome = true ↔
      ∀ i, first ≤ i → i < first + rounds → Unit i →
        (∀ j, first ≤ j → j < i → Unit j → Incomplete j) → Whole i := by
  rw [search_isSome_iff]
  constructor
  · intro never i above below unit before
    apply (reads i above below).mp _ unit
    apply never i above below
    intro j upper lower
    exact (goes j upper (Nat.lt_trans lower below)).mpr (before j upper lower)
  · intro whole i above below before
    apply (reads i above below).mpr
    intro unit
    apply whole i above below unit
    intro j upper lower
    exact (goes j upper (Nat.lt_trans lower below)).mp (before j upper lower)

end Search
end Xineliboutput.Foundation
