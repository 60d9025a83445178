import Mathlib

/-!
# First appearances

Items with keys: the items whose key has not appeared before, in order. A table of limited
size that takes an item when it has room and does not know the key holds the beginning of
that list.
-/

namespace Xineliboutput.Foundation

set_option autoImplicit false

variable {Item Key : Type*} [DecidableEq Key] (key : Item → Key)

def firstSeen : List Item → List Item
  | [] => []
  | item :: items => item :: (firstSeen items).filter fun other => key other != key item

def collect (limit : Nat) (table : List Item) (item : Item) : List Item :=
  if table.length < limit ∧ ∀ other ∈ table, key other ≠ key item then table ++ [item] else table

theorem first_seen_nodup (items : List Item) : ((firstSeen key items).map key).Nodup := by
  induction items with
  | nil => exact .nil
  | cons item items ih =>
      rw [firstSeen, List.map_cons, List.nodup_cons]
      constructor
      · intro again
        obtain ⟨other, member, same⟩ := List.mem_map.mp again
        have differs := (List.mem_filter.mp member).2
        rw [same] at differs
        simp at differs
      · exact ih.sublist (List.Sublist.map key List.filter_sublist)

theorem collect_length_le {limit : Nat} {table : List Item} (bounded : table.length ≤ limit)
    (item : Item) : (collect key limit table item).length ≤ limit := by
  unfold collect
  split
  · next room =>
      rw [List.length_append, List.length_singleton]
      exact room.1
  · exact bounded

theorem collect_refused {limit : Nat} {table : List Item} {item other : Item}
    (refused : collect key limit table item = table) (same : key other = key item) :
    collect key limit table other = table := by
  unfold collect at *
  rw [same]
  split at refused
  · simp at refused
  · next full => rw [if_neg full]

theorem foldl_collect {limit : Nat} (items table : List Item) (bounded : table.length ≤ limit) :
    items.foldl (collect key limit) table =
      (table ++ (firstSeen key items).filter fun item =>
        table.all fun other => key other != key item).take limit := by
  induction items generalizing table with
  | nil => simp [firstSeen, List.take_of_length_le bounded]
  | cons item items ih =>
      rw [List.foldl_cons, ih _ (collect_length_le key bounded item), firstSeen]
      by_cases full : limit ≤ table.length
      · have kept : collect key limit table item = table := by
          rw [collect, if_neg fun room => absurd room.1 (Nat.not_lt.mpr full)]
        rw [kept, List.take_append_of_le_length full, List.take_append_of_le_length full]
      · by_cases fresh : ∀ other ∈ table, key other ≠ key item
        · have taken : collect key limit table item = table ++ [item] := by
            rw [collect, if_pos ⟨Nat.lt_of_not_le full, fresh⟩]
          have kept : (table.all fun other => key other != key item) = true := by
            simpa using fresh
          have onward : ((firstSeen key items).filter fun other =>
                (table ++ [item]).all fun known => key known != key other) =
              (firstSeen key items).filter fun other =>
                (table.all fun known => key known != key other) && key other != key item := by
            apply List.filter_congr
            intro other _
            rw [List.all_append, List.all_cons, List.all_nil, Bool.and_true, bne_comm]
          rw [taken, onward, List.append_assoc, List.singleton_append, List.filter_cons,
            if_pos kept, List.filter_filter]
        · have refused : collect key limit table item = table := by
            rw [collect, if_neg fun room => fresh room.2]
          have dropped : ¬(table.all fun other => key other != key item) = true := by
            simpa using fresh
          have onward : ((firstSeen key items).filter fun other =>
                (table.all fun known => key known != key other) && key other != key item) =
              (firstSeen key items).filter fun other =>
                table.all fun known => key known != key other := by
            apply List.filter_congr
            intro other _
            cases same : key other != key item with
            | true => rw [Bool.and_true]
            | false =>
                have equal : key other = key item := by simpa using same
                rw [Bool.and_false, equal]
                exact (Bool.not_eq_true _ ▸ dropped).symm
          rw [refused, List.filter_cons, if_neg dropped, List.filter_filter, onward]

theorem foldl_collect_nil (limit : Nat) (items : List Item) :
    items.foldl (collect key limit) [] = (firstSeen key items).take limit := by
  rw [foldl_collect key items [] (Nat.zero_le limit)]
  simp

end Xineliboutput.Foundation

/-!
# Chosen items in front

Items have keys. For each key of a list the first item with it is taken out and put in front,
in the order of the keys, and the others keep their order. The result is a permutation of the
items.
-/

namespace Xineliboutput.Foundation

set_option autoImplicit false

variable {Item Key : Type*} [DecidableEq Key] (key : Item → Key)

/-- The first item with each of the keys, where there is one. -/
def firstWith (keys : List Key) (items : List Item) : List Item :=
  keys.filterMap fun wanted => items.find? fun item => key item = wanted

/-- The items without the first one of each of the keys. -/
def withoutFirst (keys : List Key) (items : List Item) : List Item :=
  keys.foldl (fun rest wanted => rest.eraseP fun item => key item = wanted) items

section Selection

variable {key} {keys : List Key} {items : List Item} {wanted : Key}

theorem without_first_sublist (keys : List Key) (items : List Item) :
    (withoutFirst key keys items).Sublist items := by
  induction keys generalizing items with
  | nil => exact List.Sublist.refl items
  | cons wanted keys ih => exact (ih _).trans List.eraseP_sublist

theorem without_first_concat (keys : List Key) (wanted : Key) (items : List Item) :
    withoutFirst key (keys ++ [wanted]) items =
      (withoutFirst key keys items).eraseP fun item => key item = wanted := by
  exact List.foldl_append

theorem first_with_concat (keys : List Key) (wanted : Key) (items : List Item) :
    firstWith key (keys ++ [wanted]) items =
      firstWith key keys items ++ (items.find? fun item => key item = wanted).toList := by
  rw [firstWith, List.filterMap_append, firstWith, List.filterMap_cons]
  cases items.find? fun item => decide (key item = wanted) with
  | none => rfl
  | some item => rfl

theorem find_erase_other {other : Key} (differs : other ≠ wanted) (items : List Item) :
    (items.eraseP fun item => key item = other).find? (fun item => key item = wanted) =
      items.find? fun item => key item = wanted := by
  induction items with
  | nil => rfl
  | cons item items ih =>
      by_cases same : key item = other
      · have unlike : key item ≠ wanted := same ▸ differs
        rw [List.eraseP_cons_of_pos (by simpa using same), List.find?_cons_of_neg (by simpa)]
      · rw [List.eraseP_cons_of_neg (by simpa using same), List.find?_cons, List.find?_cons, ih]

theorem find_without_first (fresh : wanted ∉ keys) (items : List Item) :
    (withoutFirst key keys items).find? (fun item => key item = wanted) =
      items.find? fun item => key item = wanted := by
  induction keys generalizing items with
  | nil => rfl
  | cons other keys ih =>
      obtain ⟨differs, others⟩ := not_or.mp (mt List.mem_cons.mpr fresh)
      rw [← find_erase_other (Ne.symm differs) items]
      exact ih others _

theorem first_with_keys {item : Item} (member : item ∈ firstWith key keys items) :
    key item ∈ keys := by
  obtain ⟨wanted, listed, found⟩ := List.mem_filterMap.mp member
  have same := List.find?_some found
  rw [decide_eq_true_eq] at same
  exact same ▸ listed

theorem find_erase_perm (matches' : Item → Bool) (items : List Item) :
    ((items.find? matches').toList ++ items.eraseP matches').Perm items := by
  induction items with
  | nil => exact List.Perm.refl _
  | cons item items ih =>
      by_cases here : matches' item
      · rw [List.find?_cons_of_pos here, List.eraseP_cons_of_pos here]
        exact List.Perm.refl _
      · rw [List.find?_cons_of_neg here, List.eraseP_cons_of_neg here]
        exact List.perm_middle.trans (ih.cons item)

theorem first_with_perm (distinct : keys.Nodup) (items : List Item) :
    (firstWith key keys items ++ withoutFirst key keys items).Perm items := by
  induction keys using List.reverseRecOn with
  | nil => exact List.Perm.refl _
  | append_singleton keys wanted ih =>
      obtain ⟨before, _, apart⟩ := List.nodup_append.mp distinct
      have fresh : wanted ∉ keys := by
        intro listed
        exact apart wanted listed wanted (List.mem_singleton_self wanted) rfl
      rw [first_with_concat, without_first_concat, ← find_without_first fresh, List.append_assoc]
      exact ((find_erase_perm _ _).append_left _).trans (ih before)

end Selection
end Xineliboutput.Foundation
