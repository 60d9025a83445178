import Mathlib

/-!
# Insertion behind equals

Items with levels are inserted one after the other, each behind those of its level or a higher
one. The list that grows is ordered by falling level, and keeps the order of arrival within a
level.
-/

namespace Xineliboutput.Foundation

set_option autoImplicit false

variable {Item Level : Type*} [LinearOrder Level] (level : Item → Level)

def insertBehind (item : Item) : List Item → List Item
  | [] => [item]
  | other :: rest =>
      if level item ≤ level other then other :: insertBehind item rest
      else item :: other :: rest

def arrange (items : List Item) : List Item :=
  items.foldl (fun sorted item => insertBehind level item sorted) []

def Falling (items : List Item) : Prop := items.Pairwise fun first second =>
  level second ≤ level first

/-- The same items, by falling level, and by arrival within a level. -/
structure ArrangedAs (items sorted : List Item) : Prop where
  perm : sorted.Perm items
  falling : Falling level sorted
  stable : ∀ rank, sorted.filter (fun item => level item = rank) =
    items.filter fun item => level item = rank

section Insertion

variable {level} {items sorted : List Item} {item : Item}

theorem insert_perm (item : Item) (sorted : List Item) :
    (insertBehind level item sorted).Perm (item :: sorted) := by
  induction sorted with
  | nil => exact List.Perm.refl _
  | cons other rest ih =>
      rw [insertBehind]
      split
      · exact (ih.cons other).trans (List.Perm.swap item other rest)
      · exact List.Perm.refl _

theorem insert_length (item : Item) (sorted : List Item) :
    (insertBehind level item sorted).length = sorted.length + 1 :=
  (insert_perm item sorted).length_eq

theorem insert_falling (falling : Falling level sorted) (item : Item) :
    Falling level (insertBehind level item sorted) := by
  induction sorted with
  | nil => exact List.pairwise_singleton _ item
  | cons other rest ih =>
      obtain ⟨below, others⟩ := List.pairwise_cons.mp falling
      rw [insertBehind]
      split
      · next behind =>
          apply List.pairwise_cons.mpr
          refine ⟨?_, ih others⟩
          intro later member
          rcases List.mem_cons.mp ((insert_perm item rest).mem_iff.mp member) with rfl | old
          · exact behind
          · exact below later old
      · next above =>
          have higher := le_of_lt (not_le.mp above)
          apply List.pairwise_cons.mpr
          refine ⟨?_, falling⟩
          intro later member
          rcases List.mem_cons.mp member with rfl | old
          · exact higher
          · exact (below later old).trans higher

theorem insert_filter (falling : Falling level sorted) (item : Item) (rank : Level) :
    (insertBehind level item sorted).filter (fun other => level other = rank) =
      sorted.filter (fun other => level other = rank) ++ [item].filter fun other =>
        level other = rank := by
  induction sorted with
  | nil => rfl
  | cons other rest ih =>
      obtain ⟨below, others⟩ := List.pairwise_cons.mp falling
      rw [insertBehind]
      split
      · rw [List.filter_cons, List.filter_cons, ih others]
        split
        · rfl
        · rfl
      · next above =>
          by_cases same : level item = rank
          · -- All that follow are below this level.
            have none' : (other :: rest).filter (fun later => level later = rank) = [] := by
              apply List.filter_eq_nil_iff.mpr
              intro later member
              have lower : level later < level item := by
                rcases List.mem_cons.mp member with rfl | old
                · exact not_le.mp above
                · exact lt_of_le_of_lt (below later old) (not_le.mp above)
              rw [decide_eq_true_eq, ← same]
              exact ne_of_lt lower
            rw [List.filter_cons, none', List.nil_append, List.filter_cons, List.filter_nil]
          · have other' : [item].filter (fun other => level other = rank) = [] := by simp [same]
            rw [other', List.append_nil, List.filter_cons, if_neg (by simpa using same)]

theorem foldl_insert_arranged {seen : List Item} (items : List Item)
    (arranged : ArrangedAs level seen sorted) :
    ArrangedAs level (seen ++ items)
      (items.foldl (fun sorted item => insertBehind level item sorted) sorted) := by
  induction items generalizing seen sorted with
  | nil =>
      rw [List.append_nil]
      exact arranged
  | cons item items ih =>
      have next : ArrangedAs level (seen ++ [item]) (insertBehind level item sorted) := by
        refine ⟨?_, insert_falling arranged.falling item, ?_⟩
        · exact (insert_perm item sorted).trans
            ((arranged.perm.cons item).trans (List.perm_append_singleton item seen).symm)
        · intro rank
          rw [insert_filter arranged.falling, arranged.stable, List.filter_append]
      have all := ih next
      rw [List.append_assoc] at all
      exact all

theorem arrange_arranged (items : List Item) : ArrangedAs level items (arrange level items) :=
  foldl_insert_arranged items ⟨List.Perm.refl _, .nil, fun _ => rfl⟩

end Insertion
end Xineliboutput.Foundation
