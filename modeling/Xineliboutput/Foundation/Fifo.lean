import Mathlib.Data.List.Chain
import Mathlib.Data.List.Forall2
import Mathlib.Data.Nat.ModEq
import Xineliboutput.Foundation.Machine

/-!
# A queue with one item in transit

The purpose of a sender in its own terms: items are put behind a queue, taken
from its front one at a time, and handed over before the next one is taken. The
whole queue may be given up at any moment, which does not reach the item in
transit.
-/

namespace Xineliboutput.Foundation

set_option autoImplicit false

structure Fifo (Item : Type*) where
  waiting : List Item
  inTransit : Option Item

namespace Fifo

variable {Item : Type*}

inductive Move (Item : Type*) where
  | put (item : Item)
  | take (item : Item)
  | hand (item : Item)
  | giveUp

inductive Step : Fifo Item → Move Item → Fifo Item → Prop where
  | put (queue : Fifo Item) (item : Item) :
      Step queue (.put item) { queue with waiting := queue.waiting ++ [item] }
  | take (item : Item) (rest : List Item) :
      Step ⟨item :: rest, none⟩ (.take item) ⟨rest, some item⟩
  | hand (item : Item) (waiting : List Item) :
      Step ⟨waiting, some item⟩ (.hand item) ⟨waiting, none⟩
  | giveUp (queue : Fifo Item) : Step queue .giveUp { queue with waiting := [] }

def machine (Item : Type*) : Machine (Fifo Item) (Move Item) where
  initial queue := queue = ⟨[], none⟩
  step := Step

def put? : Move Item → Option Item
  | .put item => some item
  | .take _ | .hand _ | .giveUp => none

def taken? : Move Item → Option Item
  | .take item => some item
  | .put _ | .hand _ | .giveUp => none

def handed? : Move Item → Option Item
  | .hand item => some item
  | .put _ | .take _ | .giveUp => none

def isGiveUp : Move Item → Bool
  | .giveUp => true
  | .put _ | .take _ | .hand _ => false

/-- As long as nothing is given up, what has been taken so far followed by what
still waits is what has been put, in order. -/
theorem taken_append_waiting {moves : List (Move Item)} {queue : Fifo Item}
    (run : (machine Item).Run moves queue) (kept : ∀ move ∈ moves, isGiveUp move = false) :
    moves.filterMap taken? ++ queue.waiting = moves.filterMap put? := by
  induction run with
  | start initially =>
      obtain rfl := initially
      rfl
  | @snoc moves queue prior move next step ih =>
      have before := ih fun earlier member => kept earlier (by simp [member])
      cases step with
      | put item => simp [← before, put?, taken?]
      | take item rest => simpa [List.filterMap_cons, put?, taken?] using before
      | hand item waiting => simpa [List.filterMap_cons, put?, taken?] using before
      | giveUp => simpa [isGiveUp] using kept .giveUp (by simp)

theorem handed_append_transit {moves : List (Move Item)} {queue : Fifo Item}
    (run : (machine Item).Run moves queue) :
    moves.filterMap handed? ++ queue.inTransit.toList = moves.filterMap taken? := by
  induction run with
  | start initially =>
      obtain rfl := initially
      rfl
  | @snoc moves queue prior move next step ih =>
      cases step with
      | put item => simpa [List.filterMap_cons, handed?, taken?] using ih
      | take item rest => simpa [List.filterMap_cons, handed?, taken?] using ih
      | hand item waiting => simpa [List.filterMap_cons, handed?, taken?] using ih
      | giveUp => simpa [List.filterMap_cons, handed?, taken?] using ih

end Fifo
end Xineliboutput.Foundation

/-!
# What a withdrawn item leaves behind

Items are numbered when they are put into a queue. When waiting items are given
up, their numbers are gone, and the items taken before and after them are no
longer neighbours. Which numbers are missing depends only on how many items were
withdrawn between two that were taken.
-/

namespace Xineliboutput.Foundation.Fifo

set_option autoImplicit false

variable {Item : Type*}

/-- An account of the moves: how many items wait, how many were withdrawn since
the last one was taken, and how many just before each item taken. -/
structure Withdrawals where
  waiting : Nat
  withdrawn : Nat
  before : List Nat

namespace Withdrawals

def after (account : Withdrawals) : Move Item → Withdrawals
  | .put _ => { account with waiting := account.waiting + 1 }
  | .take _ => {
      waiting := account.waiting - 1
      withdrawn := 0
      before := account.before ++ [account.withdrawn] }
  | .hand _ => account
  | .giveUp => {
      waiting := 0
      withdrawn := account.withdrawn + account.waiting
      before := account.before }

def ofMoves (moves : List (Move Item)) : Withdrawals := moves.foldl after ⟨0, 0, []⟩

@[simp] theorem of_moves_nil : ofMoves ([] : List (Move Item)) = ⟨0, 0, []⟩ := rfl

@[simp] theorem of_moves_snoc (moves : List (Move Item)) (move : Move Item) :
    ofMoves (moves ++ [move]) = (ofMoves moves).after move := by
  simp [ofMoves]

end Withdrawals

/-- The places of items when so many have been left out before each. -/
def places (start : Nat) : List Nat → List Nat
  | [] => []
  | gap :: gaps => (start + gap) :: places (start + gap + 1) gaps

def placesEnd (start : Nat) : List Nat → Nat
  | [] => start
  | gap :: gaps => placesEnd (start + gap + 1) gaps

theorem places_snoc (start : Nat) (gaps : List Nat) (gap : Nat) :
    places start (gaps ++ [gap]) = places start gaps ++ [placesEnd start gaps + gap] := by
  induction gaps generalizing start with
  | nil => rfl
  | cons first gaps ih => simp [places, placesEnd, ih]

theorem places_end_snoc (start : Nat) (gaps : List Nat) (gap : Nat) :
    placesEnd start (gaps ++ [gap]) = placesEnd start gaps + gap + 1 := by
  induction gaps generalizing start with
  | nil => rfl
  | cons first gaps ih => simp [placesEnd, ih]

theorem places_take (start : Nat) (gaps : List Nat) (count : Nat) :
    (places start gaps).take count = places start (gaps.take count) := by
  induction gaps generalizing start count with
  | nil => simp [places]
  | cons gap gaps ih =>
      cases count with
      | zero => rfl
      | succ count => simp [places, ih]

/-- Each number follows the one before it, in arithmetic modulo `modulus`. -/
def Consecutive (modulus : Nat) (numbers : List Nat) : Prop :=
  numbers.IsChain fun earlier later => later = (earlier + 1) % modulus

instance (modulus : Nat) (numbers : List Nat) : Decidable (Consecutive modulus numbers) :=
  inferInstanceAs (Decidable (List.IsChain _ numbers))

theorem follows_iff (modulus place gap : Nat) :
    (place + 1 + gap) % modulus = (place % modulus + 1) % modulus ↔ modulus ∣ gap := by
  rw [Nat.mod_add_mod]
  have apart := Nat.modEq_iff_dvd' (n := modulus) (Nat.le_add_right (place + 1) gap)
  rw [Nat.add_sub_cancel_left] at apart
  rw [← apart]
  exact eq_comm

/-- Consecutive numbers at the places: only whole turns of the numbering are left out
between two of them. What is left out before the first does not show. -/
theorem consecutive_places_iff (modulus base start : Nat) (gaps : List Nat) :
    Consecutive modulus ((places start gaps).map fun place => (base + place) % modulus) ↔
      ∀ gap ∈ gaps.tail, modulus ∣ gap := by
  induction gaps generalizing start with
  | nil => simp [places, Consecutive]
  | cons first gaps ih =>
      cases gaps with
      | nil => simp [places, Consecutive]
      | cons gap gaps =>
          have onward := ih (start + first + 1)
          have next := follows_iff modulus (base + (start + first)) gap
          have same : base + (start + first) + 1 + gap = base + (start + first + 1 + gap) := by
            omega
          rw [same] at next
          simp only [Consecutive, places, List.map_cons, List.isChain_cons_cons] at onward ⊢
          simp only [List.tail_cons, List.forall_mem_cons] at onward ⊢
          rw [onward, next]

/-- The items taken are those at the counted places among all that were put. -/
structure Placed (moves : List (Move Item)) (queue : Fifo Item) : Prop where
  counted : (Withdrawals.ofMoves moves).waiting = queue.waiting.length
  rest : (moves.filterMap put?).drop
    (placesEnd 0 (Withdrawals.ofMoves moves).before + (Withdrawals.ofMoves moves).withdrawn) =
      queue.waiting
  within : placesEnd 0 (Withdrawals.ofMoves moves).before +
    (Withdrawals.ofMoves moves).withdrawn ≤ (moves.filterMap put?).length
  taken : List.Forall₂ (fun place item => (moves.filterMap put?)[place]? = some item)
    (places 0 (Withdrawals.ofMoves moves).before) (moves.filterMap taken?)

theorem run_placed {moves : List (Move Item)} {queue : Fifo Item}
    (run : (machine Item).Run moves queue) : Placed moves queue := by
  induction run with
  | start initially =>
      obtain rfl := initially
      exact ⟨rfl, rfl, Nat.le_refl _, List.Forall₂.nil⟩
  | @snoc moves queue prior move next step ih =>
      obtain ⟨counted, rest, within, taken⟩ := ih
      cases step with
      | put item =>
          constructor
          · simp [Withdrawals.after, counted]
          · simp only [Withdrawals.of_moves_snoc, Withdrawals.after, List.filterMap_append,
              List.drop_append_of_le_length within, rest]
            rfl
          · simp only [Withdrawals.of_moves_snoc, Withdrawals.after, List.filterMap_append,
              List.length_append]
            omega
          · simp only [Withdrawals.of_moves_snoc, Withdrawals.after, List.filterMap_append,
              List.filterMap_cons, taken?, List.filterMap_nil, List.append_nil]
            apply taken.imp
            intro place earlier found
            have bound := (List.getElem?_eq_some_iff.mp found).1
            rw [List.getElem?_append_left bound, found]
      | take item waiting =>
          simp only at rest counted
          have puts : (moves ++ [Move.take item]).filterMap put? = moves.filterMap put? := by
            simp [put?, List.filterMap_cons]
          have head : (moves.filterMap put?)[placesEnd 0 (Withdrawals.ofMoves moves).before +
              (Withdrawals.ofMoves moves).withdrawn]? = some item := by
            rw [← List.head?_drop, rest]
            rfl
          constructor
          · simp [Withdrawals.after, counted]
          · simp only [Withdrawals.of_moves_snoc, Withdrawals.after, puts, places_end_snoc,
              Nat.add_zero]
            rw [← List.tail_drop, rest]
            rfl
          · simp only [Withdrawals.of_moves_snoc, Withdrawals.after, puts, places_end_snoc]
            exact (List.getElem?_eq_some_iff.mp head).1
          · simp only [Withdrawals.of_moves_snoc, Withdrawals.after, puts, places_snoc,
              List.filterMap_append]
            exact List.rel_append taken (List.Forall₂.cons head List.Forall₂.nil)
      | hand item waiting =>
          constructor
          · simpa [Withdrawals.after] using counted
          · simpa [Withdrawals.after, put?, List.filterMap_cons] using rest
          · simpa [Withdrawals.after, put?, List.filterMap_cons] using within
          · simpa [Withdrawals.after, put?, taken?, List.filterMap_cons] using taken
      | giveUp =>
          have behind : (moves.filterMap put?).length =
              placesEnd 0 (Withdrawals.ofMoves moves).before +
                ((Withdrawals.ofMoves moves).withdrawn + (Withdrawals.ofMoves moves).waiting) := by
            have length := congrArg List.length rest
            rw [List.length_drop] at length
            omega
          constructor
          · simp [Withdrawals.after]
          · simp [Withdrawals.after, put?, List.filterMap_cons, behind]
          · simp [Withdrawals.after, put?, List.filterMap_cons, behind]
          · simpa [Withdrawals.after, put?, taken?, List.filterMap_cons] using taken

def NumberedFrom (modulus base : Nat) (number : Item → Nat) (items : List Item) : Prop :=
  ∀ place item, items[place]? = some item → number item = (base + place) % modulus

theorem NumberedFrom.snoc {modulus base : Nat} {number : Item → Nat} {items : List Item}
    (numbered : NumberedFrom modulus base number items) {last : Item}
    (next : number last = (base + items.length) % modulus) :
    NumberedFrom modulus base number (items ++ [last]) := by
  intro place item found
  rcases Nat.lt_trichotomy place items.length with earlier | rfl | beyond
  · rw [List.getElem?_append_left earlier] at found
    exact numbered place item found
  · rw [List.getElem?_concat_length, Option.some.injEq] at found
    rw [← found, next]
  · rw [List.getElem?_eq_none (by simp; omega)] at found
    cases found

theorem taken_numbers {moves : List (Move Item)} {queue : Fifo Item}
    (run : (machine Item).Run moves queue) {modulus base : Nat} {number : Item → Nat}
    (numbered : NumberedFrom modulus base number (moves.filterMap put?)) :
    (moves.filterMap taken?).map number =
      (places 0 (Withdrawals.ofMoves moves).before).map fun place => (base + place) % modulus := by
  have taken := (run_placed run).taken
  rw [← List.forall₂_eq_eq_eq, List.forall₂_map_left_iff, List.forall₂_map_right_iff]
  apply taken.flip.imp
  intro item place found
  exact numbered place item found

/-- The items handed over carry consecutive numbers exactly if whole turns of the
numbering, or nothing, were withdrawn between each two of them. -/
theorem handed_consecutive_iff {moves : List (Move Item)} {queue : Fifo Item}
    (run : (machine Item).Run moves queue) {modulus base : Nat} {number : Item → Nat}
    (numbered : NumberedFrom modulus base number (moves.filterMap put?)) :
    Consecutive modulus ((moves.filterMap handed?).map number) ↔
      ∀ gap ∈ ((Withdrawals.ofMoves moves).before.take (moves.filterMap handed?).length).tail,
        modulus ∣ gap := by
  have prefix_taken : moves.filterMap handed? =
      (moves.filterMap taken?).take (moves.filterMap handed?).length := by
    rw [← handed_append_transit run, List.take_left]
  have numbers := taken_numbers run numbered
  rw [← consecutive_places_iff modulus base 0, ← places_take, List.map_take, ← numbers,
    ← List.map_take, ← prefix_taken]

end Xineliboutput.Foundation.Fifo
