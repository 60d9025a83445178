import Mathlib

/-!
# Taken and given back

A ledger of things that are taken one after another and given back in any order, such as blocks
of memory. At any time what was taken is held, or given back, or lost: held by nobody and not
given back.
-/

namespace Xineliboutput.Foundation

set_option autoImplicit false

variable {Item : Type*}

structure Ledger (Item : Type*) where
  taken : List Item
  returned : List Item
  deriving DecidableEq

namespace Ledger

def take (ledger : Ledger Item) (items : List Item) : Ledger Item :=
  { ledger with taken := items ++ ledger.taken }

def giveBack (ledger : Ledger Item) (items : List Item) : Ledger Item :=
  { ledger with returned := items ++ ledger.returned }

/-- Nothing is taken twice, and every item taken is at one place. -/
structure Accounts (ledger : Ledger Item) (held lost : List Item) : Prop where
  distinct : ledger.taken.Nodup
  parts : ledger.taken.Perm (held ++ (lost ++ ledger.returned))

variable {ledger : Ledger Item} {held lost items : List Item}

theorem accounts_nil : Accounts (⟨[], []⟩ : Ledger Item) [] [] where
  distinct := List.nodup_nil
  parts := List.Perm.refl []

namespace Accounts

theorem perm {other : List Item} (accounts : ledger.Accounts held lost) (same : held.Perm other) :
    ledger.Accounts other lost where
  distinct := accounts.distinct
  parts := accounts.parts.trans (same.append_right _)

theorem parts_nodup (accounts : ledger.Accounts held lost) :
    (held ++ (lost ++ ledger.returned)).Nodup := by
  exact accounts.parts.nodup_iff.mp accounts.distinct

theorem take (accounts : ledger.Accounts held lost) (once : items.Nodup)
    (fresh : ∀ item ∈ items, item ∉ ledger.taken) :
    (ledger.take items).Accounts (items ++ held) lost where
  distinct := by
    apply List.Nodup.append once accounts.distinct
    intro item new old
    exact fresh item new old
  parts := by
    rw [Ledger.take, List.append_assoc]
    exact accounts.parts.append_left items

theorem give_back (accounts : ledger.Accounts (items ++ held) lost) :
    (ledger.giveBack items).Accounts held lost where
  distinct := accounts.distinct
  parts := by
    have behind : (items ++ (held ++ (lost ++ ledger.returned))).Perm
        (held ++ (lost ++ (items ++ ledger.returned))) := by
      refine List.perm_append_comm_assoc _ _ _ |>.trans ?_
      exact (List.perm_append_comm_assoc _ _ _).append_left held
    have parts := accounts.parts
    rw [List.append_assoc] at parts
    exact parts.trans behind

theorem lose (accounts : ledger.Accounts (items ++ held) lost) :
    ledger.Accounts held (items ++ lost) where
  distinct := accounts.distinct
  parts := by
    have parts := accounts.parts
    rw [List.append_assoc] at parts
    rw [List.append_assoc]
    exact parts.trans (List.perm_append_comm_assoc _ _ _)

theorem returned_nodup (accounts : ledger.Accounts held lost) : ledger.returned.Nodup := by
  exact accounts.parts_nodup.of_append_right.of_append_right

theorem held_nodup (accounts : ledger.Accounts held lost) : held.Nodup := by
  exact accounts.parts_nodup.of_append_left

theorem held_taken (accounts : ledger.Accounts held lost) {item : Item} (member : item ∈ held) :
    item ∈ ledger.taken := by
  exact accounts.parts.mem_iff.mpr (List.mem_append_left _ member)

theorem returned_taken (accounts : ledger.Accounts held lost) {item : Item}
    (member : item ∈ ledger.returned) : item ∈ ledger.taken := by
  apply accounts.parts.mem_iff.mpr
  exact List.mem_append_right _ (List.mem_append_right _ member)

theorem held_not_returned (accounts : ledger.Accounts held lost) {item : Item}
    (member : item ∈ held) : item ∉ ledger.returned := by
  intro back
  exact List.disjoint_of_nodup_append accounts.parts_nodup member (List.mem_append_right _ back)

/-- When nothing is held any more, everything has been given back once if nothing was lost,
and only then. -/
theorem returned_once_iff [DecidableEq Item] (accounts : ledger.Accounts [] lost) :
    (∀ item ∈ ledger.taken, ledger.returned.count item = 1) ↔ lost = [] := by
  have parts : ledger.taken.Perm (lost ++ ledger.returned) := accounts.parts
  constructor
  · intro once
    apply List.eq_nil_iff_forall_not_mem.mpr
    intro item member
    have taken : item ∈ ledger.taken := parts.mem_iff.mpr (List.mem_append_left _ member)
    have back : item ∈ ledger.returned := by
      apply List.count_pos_iff.mp
      rw [once item taken]
      exact Nat.one_pos
    exact List.disjoint_of_nodup_append accounts.parts_nodup.of_append_right member back
  · intro nothing item member
    subst nothing
    exact List.count_eq_one_of_mem accounts.returned_nodup (parts.mem_iff.mp member)

end Accounts

end Ledger

end Xineliboutput.Foundation
