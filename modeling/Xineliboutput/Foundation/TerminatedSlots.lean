import Mathlib.Data.List.Basic
import Mathlib.Data.List.Nodup
import Mathlib.Logic.Function.Basic

/-!
# Arrays walked up to the first empty slot

An array of optional items without a count. A walk looks at one slot after the other until it
finds an empty one; it may hand the item out, and empty its slot. In an array without an empty
slot it leaves the array, and behind the first empty slot it sees nothing.
-/

namespace Xineliboutput.Foundation

set_option autoImplicit false

abbrev Slots (Item : Type*) (size : Nat) := Fin size → Option Item

namespace Slots

variable {Item : Type*} {size : Nat}

/-- A walk from a slot on; `none` where it leaves the array. -/
def walkFrom (handles : Nat → Bool) (clears : Bool) :
    Nat → Nat → Slots Item size → List Item → Option (Slots Item size × List Item)
  | 0, _, slots, visited => some (slots, visited)
  | rounds + 1, i, slots, visited =>
      if inside : i < size then
        match slots ⟨i, inside⟩ with
        | none => some (slots, visited)
        | some item =>
            if handles i then
              walkFrom handles clears rounds (i + 1)
                (if clears then Function.update slots ⟨i, inside⟩ none else slots)
                (visited ++ [item])
            else walkFrom handles clears rounds (i + 1) slots visited
      else none

def walk (handles : Nat → Bool) (clears : Bool) (slots : Slots Item size) :
    Option (Slots Item size × List Item) :=
  walkFrom handles clears (size + 1) 0 slots []

/-- The items of `count` slots from `start` on that are handed out. -/
def handled (handles : Nat → Bool) (slots : Slots Item size) (start count : Nat) : List Item :=
  (List.range' start count).filterMap fun i =>
    if inside : i < size then if handles i then slots ⟨i, inside⟩ else none else none

/-- The slots after a walk from `start` up to `stop`. -/
def swept (handles : Nat → Bool) (clears : Bool) (slots : Slots Item size) (start stop : Nat) :
    Slots Item size :=
  fun place =>
    if start ≤ place.val ∧ place.val < stop ∧ handles place.val = true ∧ clears = true then none
    else slots place

/-- The first `count` slots are filled, and no other. -/
def Filled (slots : Slots Item size) (count : Nat) : Prop :=
  ∀ place : Fin size, (slots place).isSome = true ↔ place.val < count

def Distinct (slots : Slots Item size) : Prop :=
  ∀ first second item, slots first = some item → slots second = some item → first = second

variable {handles : Nat → Bool} {clears : Bool} {slots : Slots Item size}

theorem handled_succ (start count : Nat) :
    handled handles slots start (count + 1) =
      (if inside : start < size then if handles start then slots ⟨start, inside⟩ else none
        else none).toList ++ handled handles slots (start + 1) count := by
  rw [handled, List.range'_succ, List.filterMap_cons]
  split
  · next none => rw [none]; rfl
  · next item found => rw [found]; rfl

theorem handled_congr {other : Slots Item size} {start count : Nat}
    (same : ∀ place : Fin size, start ≤ place.val → other place = slots place) :
    handled handles other start count = handled handles slots start count := by
  apply List.filterMap_congr
  intro i member
  by_cases inside : i < size
  · rw [dif_pos inside, dif_pos inside, same ⟨i, inside⟩ (List.mem_range'_1.mp member).1]
  · rw [dif_neg inside, dif_neg inside]

theorem swept_nothing (start : Nat) : swept handles clears slots start start = slots := by
  funext place
  rw [swept, if_neg]
  omega

theorem swept_succ (handles : Nat → Bool) (clears : Bool) (slots : Slots Item size)
    {start stop : Nat} (inside : start < size) (before : start < stop) :
    swept handles clears
        (if handles start = true ∧ clears = true then Function.update slots ⟨start, inside⟩ none
          else slots) (start + 1) stop =
      swept handles clears slots start stop := by
  funext place
  unfold swept
  by_cases here : place = ⟨start, inside⟩
  · subst here
    rw [if_neg fun beyond => Nat.not_succ_le_self start beyond.1]
    by_cases empties : handles start = true ∧ clears = true
    · rw [if_pos empties, Function.update_self,
        if_pos ⟨Nat.le_refl start, before, empties.1, empties.2⟩]
    · rw [if_neg empties, if_neg fun all => empties ⟨all.2.2.1, all.2.2.2⟩]
  · have apart : start + 1 ≤ place.val ↔ start ≤ place.val := by
      have different : place.val ≠ start := fun same => here (Fin.ext same)
      omega
    have other : (if handles start = true ∧ clears = true then
        Function.update slots ⟨start, inside⟩ none else slots) place = slots place := by
      split
      · exact Function.update_of_ne here none slots
      · rfl
    rw [other]
    simp only [apart]

theorem walk_from_run (rounds : Nat) {stop : Fin size} {slots : Slots Item size}
    (empty : slots stop = none) {i : Nat} (before : i ≤ stop.val) (enough : stop.val < i + rounds)
    (filled : ∀ place : Fin size, i ≤ place.val → place.val < stop.val →
      (slots place).isSome = true) (visited : List Item) :
    walkFrom handles clears rounds i slots visited =
      some (swept handles clears slots i stop.val,
        visited ++ handled handles slots i (stop.val - i)) := by
  induction rounds generalizing slots i visited with
  | zero => omega
  | succ rounds ih =>
      have inside : i < size := Nat.lt_of_le_of_lt before stop.isLt
      rw [walkFrom, dif_pos inside]
      by_cases arrived : i = stop.val
      · subst arrived
        rw [empty, swept_nothing, Nat.sub_self, handled]
        simp
      · obtain ⟨item, holds⟩ := Option.isSome_iff_exists.mp
          (filled ⟨i, inside⟩ (Nat.le_refl i) (Nat.lt_of_le_of_ne before arrived))
        obtain ⟨count, more⟩ : ∃ count, stop.val - i = count + 1 := ⟨stop.val - i - 1, by omega⟩
        have fewer : stop.val - (i + 1) = count := by omega
        rw [holds, more, handled_succ, dif_pos inside]
        dsimp only
        by_cases chosen : handles i = true
        · rw [if_pos chosen, if_pos chosen, holds]
          have later : ∀ place : Fin size, i + 1 ≤ place.val →
              (if clears then Function.update slots ⟨i, inside⟩ none else slots) place =
                slots place := by
            intro place beyond
            split
            · apply Function.update_of_ne
              intro same
              rw [same] at beyond
              exact Nat.not_succ_le_self i beyond
            · rfl
          rw [ih ((later stop (by omega)).trans empty) (by omega) (by omega)
            (fun place beyond short => by
              rw [later place beyond]
              exact filled place (by omega) short), fewer, handled_congr later,
            List.append_assoc]
          have one := swept_succ handles clears slots inside
            (Nat.lt_of_le_of_ne before arrived)
          rw [← one]
          cases clears with
          | false => simp
          | true => simp [chosen]
        · rw [if_neg chosen, if_neg chosen, ih empty (by omega) (by omega)
            (fun place beyond short => filled place (by omega) short), fewer]
          have one := swept_succ handles clears slots inside
            (Nat.lt_of_le_of_ne before arrived)
          rw [← one, if_neg fun both => chosen both.1]
          rfl

theorem walk_run {stop : Fin size} (empty : slots stop = none)
    (filled : ∀ place : Fin size, place.val < stop.val → (slots place).isSome = true) :
    walk handles clears slots =
      some (swept handles clears slots 0 stop.val, handled handles slots 0 stop.val) := by
  rw [walk, walk_from_run (size + 1) empty (Nat.zero_le _) (by omega)
    (fun place _ short => filled place short), Nat.sub_zero]
  rfl

theorem walk_from_outside (rounds : Nat) {slots : Slots Item size} {i : Nat}
    (enough : size < i + rounds) (within : i ≤ size)
    (filled : ∀ place : Fin size, i ≤ place.val → (slots place).isSome = true)
    (visited : List Item) : walkFrom handles clears rounds i slots visited = none := by
  induction rounds generalizing slots i visited with
  | zero => omega
  | succ rounds ih =>
      rw [walkFrom]
      by_cases inside : i < size
      · obtain ⟨item, holds⟩ := Option.isSome_iff_exists.mp (filled ⟨i, inside⟩ (Nat.le_refl i))
        rw [dif_pos inside, holds]
        dsimp only
        split
        · apply ih (by omega) inside
          intro place beyond
          have kept := filled place (by omega)
          split
          · rw [Function.update_of_ne]
            · exact kept
            · intro same
              rw [same] at beyond
              exact Nat.not_succ_le_self i beyond
          · exact kept
        · exact ih (by omega) inside (fun place beyond => filled place (by omega)) visited
      · rw [dif_neg inside]

theorem walk_outside (filled : ∀ place, (slots place).isSome = true) :
    walk handles clears slots = none :=
  walk_from_outside (size + 1) (by omega) (Nat.zero_le _) (fun place _ => filled place) []

theorem first_empty (some : ∃ place, slots place = none) :
    ∃ stop, slots stop = none ∧
      ∀ place : Fin size, place.val < stop.val → (slots place).isSome = true := by
  obtain ⟨place, empty⟩ := some
  induction h : place.val using Nat.strongRecOn generalizing place with
  | ind index ih =>
      by_cases earlier : ∃ other : Fin size, other.val < place.val ∧ slots other = none
      · obtain ⟨other, before, empty⟩ := earlier
        exact ih other.val (h ▸ before) other empty rfl
      · refine ⟨place, empty, ?_⟩
        intro other before
        rw [Option.isSome_iff_ne_none]
        intro empty
        exact earlier ⟨other, before, empty⟩

theorem handled_mem {start count : Nat} {item : Item} :
    item ∈ handled handles slots start count ↔
      ∃ place : Fin size, start ≤ place.val ∧ place.val < start + count ∧
        handles place.val = true ∧ slots place = some item := by
  rw [handled, List.mem_filterMap]
  constructor
  · intro found
    obtain ⟨i, member, holds⟩ := found
    obtain ⟨lower, upper⟩ := List.mem_range'_1.mp member
    split at holds
    · next inside =>
        split at holds
        · next chosen => exact ⟨⟨i, inside⟩, lower, upper, chosen, holds⟩
        · cases holds
    · cases holds
  · intro found
    obtain ⟨place, lower, upper, chosen, holds⟩ := found
    refine ⟨place.val, List.mem_range'_1.mpr ⟨lower, upper⟩, ?_⟩
    rw [dif_pos place.isLt, if_pos chosen]
    exact holds

theorem handled_nodup (distinct : Distinct slots) (start count : Nat) :
    (handled handles slots start count).Nodup := by
  apply List.Nodup.filterMap _ List.nodup_range'
  intro first second item holds again
  rw [Option.mem_def] at holds again
  split at holds
  · next inside =>
      split at again
      · next inside' =>
          split at holds
          · split at again
            · exact congrArg Fin.val (distinct _ _ item holds again)
            · cases again
          · cases holds
      · cases again
  · cases holds

theorem walk_visited {after : Slots Item size} {visited : List Item}
    (walked : walk handles clears slots = some (after, visited)) {item : Item}
    (member : item ∈ visited) : ∃ place, slots place = some item := by
  by_cases some : ∃ place, slots place = none
  · obtain ⟨stop, empty, before⟩ := first_empty some
    rw [walk_run empty before] at walked
    cases walked
    obtain ⟨place, _, _, _, holds⟩ := handled_mem.mp member
    exact ⟨place, holds⟩
  · have filled : ∀ place, (slots place).isSome = true := by
      intro place
      rw [Option.isSome_iff_ne_none]
      intro empty
      exact some ⟨place, empty⟩
    rw [walk_outside filled] at walked
    cases walked

/-! ## Arrays filled from the front -/

theorem Filled.empty_at {count : Nat} (filled : Filled slots count) (room : count < size) :
    slots ⟨count, room⟩ = none := by
  rw [← Option.not_isSome_iff_eq_none, filled]
  exact Nat.lt_irrefl count

theorem Filled.walk {count : Nat} (filled : Filled slots count) (room : count < size) :
    walk handles clears slots =
      some (swept handles clears slots 0 count, handled handles slots 0 count) :=
  walk_run (filled.empty_at room) fun place short =>
    (filled place).mpr short

theorem Filled.mem {count : Nat} (filled : Filled slots count) {item : Item} :
    item ∈ handled (fun _ => true) slots 0 count ↔ ∃ place, slots place = some item := by
  rw [handled_mem]
  constructor
  · intro found
    obtain ⟨place, _, _, _, holds⟩ := found
    exact ⟨place, holds⟩
  · intro found
    obtain ⟨place, holds⟩ := found
    have short := (filled place).mp (by rw [holds]; rfl)
    exact ⟨place, Nat.zero_le _, by omega, rfl, holds⟩

theorem filled_nothing : Filled (fun _ => none : Slots Item size) 0 := by
  intro place
  simp

theorem Filled.count_eq {count other : Nat} (filled : Filled slots count)
    (again : Filled slots other) (within : count ≤ size) (room : other < size) :
    count = other := by
  have there := (filled ⟨other, room⟩).symm.trans (again ⟨other, room⟩)
  have enough : ¬other < count := fun short => Nat.lt_irrefl other (there.mp short)
  by_contra different
  have short : count < other := by omega
  have here := (filled ⟨count, by omega⟩).symm.trans (again ⟨count, by omega⟩)
  exact Nat.lt_irrefl count (here.mpr short)

theorem Filled.room_iff {count : Nat} (filled : Filled slots count) (within : count ≤ size) :
    (∃ other < size, Filled slots other) ↔ count < size := by
  constructor
  · intro found
    obtain ⟨other, room, again⟩ := found
    exact filled.count_eq again within room ▸ room
  · intro room
    exact ⟨count, room, filled⟩

theorem Filled.swept {count : Nat} (filled : Filled slots count) :
    swept (fun _ => true) true slots 0 count = fun _ => none := by
  funext place
  rw [Slots.swept]
  split
  · rfl
  · next beyond =>
      rw [← Option.not_isSome_iff_eq_none, filled]
      intro short
      exact beyond ⟨Nat.zero_le _, short, rfl, rfl⟩

/-- A walk that stays inside and hands out everything has found the array filled from the
front, with an empty slot behind. -/
theorem filled_of_walk {after : Slots Item size} {visited : List Item}
    (walked : Slots.walk (fun _ => true) clears slots = some (after, visited))
    (all : ∀ place item, slots place = some item → item ∈ visited) (distinct : Distinct slots) :
    ∃ count < size, Filled slots count := by
  by_cases some : ∃ place, slots place = none
  · obtain ⟨stop, empty, before⟩ := first_empty some
    rw [walk_run empty before] at walked
    cases walked
    refine ⟨stop.val, stop.isLt, ?_⟩
    intro place
    constructor
    · intro holds
      obtain ⟨item, holds⟩ := Option.isSome_iff_exists.mp holds
      obtain ⟨other, _, short, _, again⟩ := handled_mem.mp (all place item holds)
      rw [distinct place other item holds again]
      omega
    · exact before place
  · have filled : ∀ place, (slots place).isSome = true := by
      intro place
      rw [Option.isSome_iff_ne_none]
      intro empty
      exact some ⟨place, empty⟩
    rw [walk_outside filled] at walked
    cases walked

end Slots
end Xineliboutput.Foundation
