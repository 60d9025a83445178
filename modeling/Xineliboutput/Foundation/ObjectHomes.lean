import Mathlib.Data.List.Basic
import Mathlib.Data.List.Nodup
import Mathlib.Logic.Function.Basic

/-!
# Objects and their homes

Every object is created for a place, its home, and numbered in the order of creation. While an
object is alive its home holds it; what no place holds has been disposed, once.
-/

namespace Xineliboutput.Foundation

set_option autoImplicit false

variable {Place : Type*}

structure Housed (held : Place → Option Nat) (homes : List Place) (disposed : List Nat) : Prop where
  once : disposed.Nodup
  known : ∀ number ∈ disposed, number < homes.length
  home : ∀ place number, held place = some number → homes[number]? = some place
  alive : ∀ place number, held place = some number → number ∉ disposed
  owned : ∀ place number, homes[number]? = some place → number ∉ disposed →
    held place = some number

namespace Housed

variable {held after : Place → Option Nat} {homes : List Place} {disposed gone : List Nat}

theorem nothing : Housed (fun _ : Place => none) [] [] where
  once := .nil
  known := nofun
  home := nofun
  alive := nofun
  owned := fun _ _ home => nomatch home

theorem one_place (housed : Housed held homes disposed) {first second : Place} {number : Nat}
    (one : held first = some number) (other : held second = some number) : first = second := by
  have home := housed.home first number one
  rw [housed.home second number other] at home
  exact (Option.some.inj home).symm

theorem release (housed : Housed held homes disposed) (once : gone.Nodup)
    (kept : ∀ place number, after place = some number → held place = some number)
    (left : ∀ place number, held place = some number →
      (number ∈ gone ↔ after place ≠ some number))
    (ours : ∀ number ∈ gone, ∃ place, held place = some number) :
    Housed after homes (disposed ++ gone) where
  once := by
    rw [List.nodup_append]
    refine ⟨housed.once, once, ?_⟩
    intro number earlier other member same
    obtain ⟨place, holds⟩ := ours other member
    exact housed.alive place other holds (same ▸ earlier)
  known := by
    intro number member
    rcases List.mem_append.mp member with earlier | now
    · exact housed.known number earlier
    · obtain ⟨place, holds⟩ := ours number now
      exact (List.getElem?_eq_some_iff.mp (housed.home place number holds)).1
  home := fun place number holds => housed.home place number (kept place number holds)
  alive := by
    intro place number holds member
    have before := kept place number holds
    rcases List.mem_append.mp member with earlier | now
    · exact housed.alive place number before earlier
    · exact (left place number before).mp now holds
  owned := by
    intro place number home alive
    rw [List.mem_append, not_or] at alive
    have before := housed.owned place number home alive.1
    by_contra lost
    exact alive.2 ((left place number before).mpr lost)

variable [DecidableEq Place]

theorem create (housed : Housed held homes disposed) {place : Place} (empty : held place = none) :
    Housed (Function.update held place (some homes.length)) (homes ++ [place]) disposed where
  once := housed.once
  known := by
    intro number member
    rw [List.length_append]
    exact Nat.lt_add_right 1 (housed.known number member)
  home := by
    intro other number holds
    by_cases here : other = place
    · subst here
      rw [Function.update_self] at holds
      cases holds
      rw [List.getElem?_append_right (Nat.le_refl _), Nat.sub_self]
      rfl
    · rw [Function.update_of_ne here] at holds
      have home := housed.home other number holds
      rw [List.getElem?_append_left (List.getElem?_eq_some_iff.mp home).1]
      exact home
  alive := by
    intro other number holds member
    by_cases here : other = place
    · subst here
      rw [Function.update_self] at holds
      cases holds
      exact Nat.lt_irrefl _ (housed.known _ member)
    · rw [Function.update_of_ne here] at holds
      exact housed.alive other number holds member
  owned := by
    intro other number home alive
    by_cases earlier : number < homes.length
    · rw [List.getElem?_append_left earlier] at home
      have holds := housed.owned other number home alive
      rw [Function.update_of_ne]
      · exact holds
      · intro here
        rw [here, empty] at holds
        cases holds
    · obtain ⟨within, _⟩ := List.getElem?_eq_some_iff.mp home
      have last : number = homes.length := by
        rw [List.length_append, List.length_singleton] at within
        omega
      subst last
      rw [List.getElem?_append_right (Nat.le_refl _), Nat.sub_self] at home
      cases home
      rw [Function.update_self]

omit [DecidableEq Place] in
theorem all_disposed (housed : Housed held homes disposed) (empty : ∀ place, held place = none)
    {number : Nat} (created : number < homes.length) : number ∈ disposed := by
  by_contra alive
  have holds := housed.owned homes[number] number (List.getElem?_eq_getElem created) alive
  rw [empty] at holds
  cases holds

end Housed
end Xineliboutput.Foundation

/-!
# Descriptors and the places that hold them

A program keeps the numbers of its descriptors in several places. The system gives a new
descriptor any number that is not in use; a number may come back once it has been closed.
What a place holds is its own as long as every number is stored once and is in use.
-/

namespace Xineliboutput.Foundation

set_option autoImplicit false

structure Kernel where
  next : List Nat → Nat
  unused : ∀ opened, next opened ∉ opened

/-- The numbers in use after `close` of what a place holds. -/
def closed (opened : List Nat) : Option Nat → List Nat
  | none => opened
  | some fd => opened.erase fd

theorem used_after_close {opened : List Nat} {holding : Option Nat} {fd : Nat} (used : fd ∈ opened)
    (other : holding ≠ some fd) : fd ∈ closed opened holding := by
  cases holding with
  | none => exact used
  | some number =>
      apply (List.mem_erase_of_ne ?_).mpr used
      intro same
      exact other (congrArg some same.symm)

structure Owned {Place : Type*} (held : Place → Option Nat) (opened : List Nat) : Prop where
  used : ∀ place fd, held place = some fd → fd ∈ opened
  once : ∀ first second fd, held first = some fd → held second = some fd → first = second

namespace Owned

variable {Place : Type*} {held : Place → Option Nat} {opened : List Nat}

theorem empty : Owned (fun _ : Place => none) opened where
  used := fun _ _ holds => nomatch holds
  once := fun _ _ _ holds => nomatch holds

theorem widen {more : List Nat} (owned : Owned held opened) (wider : ∀ fd ∈ opened, fd ∈ more) :
    Owned held more where
  used := fun place fd holds => wider fd (owned.used place fd holds)
  once := owned.once

theorem unheld (owned : Owned held opened) {fd : Nat} (unused : fd ∉ opened) (place : Place) :
    held place ≠ some fd := by
  intro holds
  exact unused (owned.used place fd holds)

theorem still_used (owned : Owned held opened) {place other : Place} (different : other ≠ place)
    {fd : Nat} (holds : held other = some fd) : fd ∈ closed opened (held place) := by
  apply used_after_close (owned.used other fd holds)
  intro mine
  exact different (owned.once other place fd holds mine)

variable [DecidableEq Place]

theorem forget (owned : Owned held opened) (place : Place) :
    Owned (Function.update held place none) opened := by
  have kept : ∀ other fd, Function.update held place none other = some fd →
      held other = some fd := by
    intro other fd holds
    rw [Function.update_apply] at holds
    split at holds
    · cases holds
    · exact holds
  constructor
  · intro other fd holds
    exact owned.used other fd (kept other fd holds)
  · intro first second fd one two
    exact owned.once first second fd (kept first fd one) (kept second fd two)

theorem close (owned : Owned held opened) (place : Place) :
    Owned (Function.update held place none) (closed opened (held place)) := by
  constructor
  · intro other fd holds
    rw [Function.update_apply] at holds
    split at holds
    · cases holds
    · next different => exact owned.still_used different holds
  · exact (owned.forget place).once

theorem take (owned : Owned held opened) (place : Place) {fd : Nat} (used : fd ∈ opened)
    (free : ∀ other, held other ≠ some fd) :
    Owned (Function.update held place (some fd)) opened := by
  constructor
  · intro other number holds
    rw [Function.update_apply] at holds
    split at holds
    · cases holds
      exact used
    · exact owned.used other number holds
  · intro first second number one two
    rw [Function.update_apply] at one two
    split at one
    · next atFirst =>
        split at two
        · next atSecond => rw [atFirst, atSecond]
        · cases one
          exact absurd two (free second)
    · split at two
      · cases two
        exact absurd one (free first)
      · exact owned.once first second number one two

theorem open_new (owned : Owned held opened) (place : Place) (kernel : Kernel) :
    Owned (Function.update held place (some (kernel.next opened)))
      (kernel.next opened :: opened) :=
  (owned.widen fun _ used => List.mem_cons_of_mem _ used).take place List.mem_cons_self
    (owned.unheld (kernel.unused opened))

theorem move (owned : Owned held opened) (source target : Place) {fd : Nat}
    (holds : held source = some fd) :
    Owned (Function.update (Function.update held source none) target (some fd)) opened := by
  apply (owned.forget source).take target (owned.used source fd holds)
  intro other same
  rw [Function.update_apply] at same
  split at same
  · cases same
  · next different => exact different (owned.once other source fd same holds)

end Owned
end Xineliboutput.Foundation
