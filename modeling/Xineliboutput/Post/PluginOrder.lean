import Xineliboutput.Foundation.FirstSeen
import Xineliboutput.Post.PostElements

/-!
# The post plugin chain

`_pplugin_join_deinterlace_and_post_elements` and `_pplugin_join_visualization_and_post_elements`
of `post.c`: the enabled elements of two arrays are joined in a new one, and some plugins of the
video chain are moved to its beginning.
-/

namespace Xineliboutput.Post

open Xineliboutput.Foundation

set_option autoImplicit false

def order : List String := ["autocrop", "thread", "tvtime", "swscale"]

/-- The new array while elements are copied, and `n`. -/
structure Joining where
  cells : PostCells
  skipped : Nat

/-- A round of a loop that copies the enabled elements. The index of the write is the sum of both
loop counters less the number of elements that were skipped. -/
def copyRound (elements : PostCells) (other : Nat) (joining : Joining) (k : Nat) :
    Option Joining := do
  let element ← elementAt elements k
  if element.IsEnabled then
    if joining.skipped ≤ other + k then
      (storeCell joining.cells (other + k - joining.skipped) (some element)).map fun cells =>
        { joining with cells }
    else none
  else some { joining with skipped := joining.skipped + 1 }

/-- `if(enable) for(k = 0; k < num; k++)` -/
def copyEnabled (enable : Int) (elements : PostArray) (other : Nat) (joining : Joining) :
    Option Joining :=
  if enable ≠ 0 then (List.range elements.num).foldlM (copyRound elements.cells other) joining
  else some joining

/-- The elements of an array, and where the counter of its loop ends. -/
def countWhere (enable : Int) (elements : PostArray) : Nat :=
  if enable ≠ 0 then elements.num else 0

def joinElements (enable : Int) (elements : PostArray) (enable' : Int) (elements' : PostArray) :
    Option PostArray :=
  let total := countWhere enable elements + countWhere enable' elements'
  if total = 0 then some nullArray
  else
    ((copyEnabled enable elements 0 ⟨List.replicate total none, 0⟩).bind
      (copyEnabled enable' elements' (countWhere enable elements))).map fun joining =>
        if total - joining.skipped = 0 then nullArray
        else ⟨joining.cells, total - joining.skipped⟩

/-- The loop that searches the first element of a name among the elements from `i` on. -/
def searchNamed (cells : PostCells) (name : String) : Nat → Nat → Option (Option Nat)
  | 0, _ => some none
  | left + 1, i =>
      (elementAt cells i).bind fun element =>
        if element.name = name then some (some i) else searchNamed cells name left (i + 1)

/-- `for(j=i; j>n; j--) post_elements[j] = post_elements[j-1];` -/
def moveDown (n : Nat) : Nat → PostCells → Option PostCells
  | 0, cells => some cells
  | j + 1, cells =>
      if j + 1 > n then
        (cells[j]?).bind fun cell => (storeCell cells (j + 1) cell).bind (moveDown n j)
      else some cells

/-- `post_elements[n] = post_elements[i]` after those between have been moved. -/
def moveForward (cells : PostCells) (i n : Nat) : Option PostCells :=
  if i ≠ n then
    (cells[i]?).bind fun tmp => (moveDown n i cells).bind fun moved => storeCell moved n tmp
  else some cells

/-- The array and `n`, after the plugin of a name has been moved. -/
def bringForward (num : Nat) (state : PostCells × Nat) (name : String) :
    Option (PostCells × Nat) :=
  (searchNamed state.1 name num 0).bind fun found =>
    match found with
    | none => some state
    | some i => (moveForward state.1 i state.2).map fun cells => (cells, state.2 + 1)

/-- `_pplugin_join_deinterlace_and_post_elements` -/
def joinDeinterlaceAndPostElements (fe : PostPlugins) : Option PostArray :=
  (joinElements fe.postPipEnable fe.postPipElements fe.postVideoEnable
    fe.postVideoElements).bind fun joined =>
      if joined.num = 0 then some joined
      else (order.foldlM (bringForward joined.num) (joined.cells, 0)).map fun state =>
        ⟨state.1, joined.num⟩

/-- `_pplugin_join_visualization_and_post_elements` -/
def joinVisualizationAndPostElements (fe : PostPlugins) : Option PostArray :=
  joinElements fe.postAudioEnable fe.postAudioElements fe.postVisEnable fe.postVisElements

def enabledOf (elements : List PostElement) : List PostElement :=
  elements.filter fun element => element.IsEnabled

def contributed (enable : Int) (elements : List PostElement) : List PostElement :=
  if enable ≠ 0 then enabledOf elements else []

/-- All elements, the first of each name of `order` in front. -/
structure InChainOrder (elements chain : List PostElement) : Prop where
  perm : chain.Perm elements
  fronts : ∃ others, chain = firstWith PostElement.name order elements ++ others ∧
    others.Sublist elements

/-! ## Joining -/

section Join

variable {front elements : List PostElement} {spare before after : PostCells}
  {cell : Option PostElement} {element : PostElement} {other skipped k free : Nat}

/-- The array with these elements in front, after some others were skipped. -/
def joiningOf (elements : List PostElement) (free skipped : Nat) : Joining :=
  ⟨elements.map some ++ List.replicate free none, skipped⟩

theorem copy_round_enabled (read : elementAt spare k = some element)
    (enabled : element.IsEnabled) (place : front.length + skipped = other + k) :
    copyRound spare other (joiningOf front (free + 1) skipped) k =
      some (joiningOf (front ++ [element]) free skipped) := by
  have index : other + k - skipped = (front.map some : PostCells).length := by
    rw [List.length_map]
    omega
  have inside : (joiningOf front (free + 1) skipped).skipped ≤ other + k := by
    change skipped ≤ other + k
    omega
  rw [copyRound, read, Option.bind_eq_bind, Option.bind_some, if_pos enabled, if_pos inside]
  simp only [joiningOf]
  rw [index, List.replicate_succ, store_front, Option.map_some, List.map_append,
    List.append_assoc]
  rfl

theorem copy_round_disabled {joining : Joining} (read : elementAt spare k = some element)
    (disabled : ¬element.IsEnabled) :
    copyRound spare other joining k = some { joining with skipped := joining.skipped + 1 } := by
  rw [copyRound, read, Option.bind_eq_bind, Option.bind_some, if_neg disabled]

theorem enabled_of_concat (elements : List PostElement) (element : PostElement) :
    enabledOf (elements ++ [element]) =
      enabledOf elements ++ if element.IsEnabled then [element] else [] := by
  rw [enabledOf, List.filter_append, List.filter_cons]
  simp only [decide_eq_true_eq]
  rfl

theorem enabled_of_length_le (elements : List PostElement) :
    (enabledOf elements).length ≤ elements.length := List.length_filter_le _ _

/-- The induction is on the elements from behind: what follows those that a loop has read are
cells like any others. -/
theorem copy_rounds (elements : List PostElement) (spare : PostCells)
    (counted : front.length + skipped = other) (room : elements.length ≤ free) :
    (List.range elements.length).foldlM (copyRound (elements.map some ++ spare) other)
        (joiningOf front free skipped) =
      some (joiningOf (front ++ enabledOf elements) (free - (enabledOf elements).length)
        (skipped + (elements.length - (enabledOf elements).length))) := by
  induction elements using List.reverseRecOn generalizing spare with
  | nil =>
      rw [enabledOf, List.filter_nil, List.append_nil]
      rfl
  | append_singleton elements element ih =>
      have fewer := enabled_of_length_le elements
      have read : elementAt (elements.map some ++ some element :: spare) elements.length =
          some element := by
        have there := @element_at_front (elements.map some) spare element
        rw [List.length_map] at there
        exact there
      rw [List.length_append, List.length_singleton] at room
      rw [List.length_append, List.length_singleton, List.range_succ, List.foldlM_append,
        List.map_append, List.append_assoc, List.map_cons, List.map_nil, List.singleton_append,
        ih (some element :: spare) (by omega), Option.bind_eq_bind, Option.bind_some,
        List.foldlM_cons, enabled_of_concat]
      by_cases enabled : element.IsEnabled
      · have place : (front ++ enabledOf elements).length +
            (skipped + (elements.length - (enabledOf elements).length)) =
              other + elements.length := by
          rw [List.length_append]
          omega
        obtain ⟨left, more⟩ : ∃ left, free - (enabledOf elements).length = left + 1 :=
          ⟨free - (enabledOf elements).length - 1, by omega⟩
        have less : free - ((enabledOf elements).length + 1) = left := by omega
        have same : elements.length + 1 - ((enabledOf elements).length + 1) =
            elements.length - (enabledOf elements).length := by omega
        rw [more, copy_round_enabled read enabled place, if_pos enabled, List.length_append,
          List.length_singleton, less, same, List.append_assoc]
        rfl
      · have same : skipped + (elements.length - (enabledOf elements).length) + 1 =
            skipped + (elements.length + 1 - (enabledOf elements).length) := by omega
        rw [copy_round_disabled read enabled, if_neg enabled, List.append_nil, ← same]
        rfl

theorem contributed_length_le (enable : Int) (elements : List PostElement) (spare : PostCells) :
    (contributed enable elements).length ≤
      countWhere enable (PostArray.holding elements spare) := by
  rw [contributed, countWhere]
  split
  · exact enabled_of_length_le elements
  · exact Nat.le_refl 0

theorem copy_enabled (enable : Int) (elements : List PostElement) (spare : PostCells)
    (counted : front.length + skipped = other)
    (room : countWhere enable (PostArray.holding elements spare) ≤ free) :
    copyEnabled enable (PostArray.holding elements spare) other (joiningOf front free skipped) =
      some (joiningOf (front ++ contributed enable elements)
        (free - (contributed enable elements).length)
        (skipped + (countWhere enable (PostArray.holding elements spare) -
          (contributed enable elements).length))) := by
  rw [countWhere] at *
  rw [copyEnabled, contributed]
  by_cases goes : enable ≠ 0
  · rw [if_pos goes] at *
    rw [if_pos goes, if_pos goes]
    exact copy_rounds elements spare counted room
  · rw [if_neg goes, if_neg goes, if_neg goes, List.append_nil]
    rfl

theorem join_elements (enable enable' : Int) (first second : List PostElement)
    (spare spare' : PostCells) :
    ∃ rest, joinElements enable (.holding first spare) enable' (.holding second spare') =
      some (.holding (contributed enable first ++ contributed enable' second) rest) := by
  have fewer := contributed_length_le enable first spare
  have fewer' := contributed_length_le enable' second spare'
  rw [joinElements]
  split
  · next empty =>
      have nothing : contributed enable first = [] := List.length_eq_zero_iff.mp (by omega)
      have nothing' : contributed enable' second = [] := List.length_eq_zero_iff.mp (by omega)
      exact ⟨[], by rw [nothing, nothing']; rfl⟩
  · have copied := @copy_enabled [] 0 0 (countWhere enable (.holding first spare) +
      countWhere enable' (.holding second spare')) enable first spare rfl (by omega)
    rw [joiningOf, List.map_nil, List.nil_append, List.nil_append] at copied
    rw [copied, Option.bind_some, copy_enabled enable' second spare' (by omega) (by omega),
      Option.map_some]
    have left : countWhere enable (.holding first spare) +
        countWhere enable' (.holding second spare') -
          (0 + (countWhere enable (.holding first spare) - (contributed enable first).length) +
            (countWhere enable' (.holding second spare') -
              (contributed enable' second).length)) =
          (contributed enable first ++ contributed enable' second).length := by
      rw [List.length_append]
      omega
    simp only [joiningOf, left]
    split
    · next empty =>
        exact ⟨[], by rw [List.length_eq_zero_iff.mp empty]; rfl⟩
    · exact ⟨_, rfl⟩

end Join

/-! ## Moving to the front -/

section Front

variable {cells before after : PostCells} {front middle rest : List PostElement}
  {cell new : Option PostElement} {element : PostElement} {name : String} {n num : Nat}

theorem search_past (others : ∀ element ∈ middle, element.name ≠ name) (left : Nat) :
    searchNamed (before ++ middle.map some ++ after) name (middle.length + left) before.length =
      searchNamed (before ++ middle.map some ++ after) name left
        (before.length + middle.length) := by
  induction middle generalizing before with
  | nil =>
      rw [List.length_nil, Nat.zero_add]
      rfl
  | cons element middle ih =>
      have differs : element.name ≠ name := others element List.mem_cons_self
      have passed : before ++ (element :: middle).map some ++ after =
          (before ++ [some element]) ++ middle.map some ++ after := by simp
      have read : elementAt (before ++ (element :: middle).map some ++ after) before.length =
          some element := by
        rw [List.map_cons, List.append_assoc, List.cons_append]
        exact element_at_front
      have further := @ih (before ++ [some element])
        fun other member => others other (List.mem_cons_of_mem element member)
      rw [← passed, List.length_append, List.length_singleton] at further
      rw [List.length_cons, Nat.add_right_comm, searchNamed, read, Option.bind_some,
        if_neg differs, further, Nat.add_assoc, Nat.add_comm 1]

theorem search_none (others : ∀ element ∈ middle, element.name ≠ name) :
    searchNamed (middle.map some ++ after) name middle.length 0 = some none := by
  have past := @search_past [] after middle name others 0
  exact past

theorem search_found (others : ∀ element ∈ middle, element.name ≠ name)
    (named : element.name = name) (left : Nat) :
    searchNamed (middle.map some ++ some element :: after) name (middle.length + (left + 1)) 0 =
      some (some middle.length) := by
  have past := @search_past [] (some element :: after) middle name others (left + 1)
  have read : elementAt (middle.map some ++ some element :: after) middle.length =
      some element := by
    have there := @element_at_front (middle.map some) after element
    rw [List.length_map] at there
    exact there
  rw [List.nil_append, List.length_nil, Nat.zero_add] at past
  rw [past, searchNamed, read, Option.bind_some, if_pos named]

/-- The cells before `cell` are moved by one place, over it. -/
theorem move_down (before middle : PostCells) (cell : Option PostElement) (after : PostCells) :
    ∃ lost, moveDown before.length (before.length + middle.length)
      (before ++ middle ++ cell :: after) = some (before ++ lost :: (middle ++ after)) := by
  induction middle using List.reverseRecOn generalizing cell after with
  | nil =>
      refine ⟨cell, ?_⟩
      rw [List.length_nil, Nat.add_zero, List.append_nil, List.nil_append]
      cases before.length with
      | zero => rfl
      | succ n => rw [moveDown, if_neg (Nat.lt_irrefl _)]
  | append_singleton middle last ih =>
      obtain ⟨lost, moved⟩ := ih last (last :: after)
      have read : (before ++ (middle ++ [last]) ++ cell :: after)[before.length +
          middle.length]? = some last := by
        have parts : before ++ (middle ++ [last]) ++ cell :: after =
            (before ++ middle) ++ last :: cell :: after := by simp
        rw [parts, ← List.length_append, List.getElem?_append_right (Nat.le_refl _), Nat.sub_self]
        rfl
      have stored : storeCell (before ++ (middle ++ [last]) ++ cell :: after)
          (before.length + middle.length + 1) last =
            some (before ++ middle ++ last :: last :: after) := by
        have place : before.length + middle.length + 1 =
            (before ++ (middle ++ [last])).length := by simp [Nat.add_assoc]
        rw [place, store_front]
        simp
      refine ⟨lost, ?_⟩
      rw [List.length_append, List.length_singleton, ← Nat.add_assoc, moveDown,
        if_pos (by omega), read, Option.bind_some, stored, Option.bind_some, moved]
      simp

theorem move_forward (before middle : PostCells) (cell : Option PostElement) (after : PostCells) :
    moveForward (before ++ middle ++ cell :: after) (before.length + middle.length)
      before.length = some (before ++ cell :: (middle ++ after)) := by
  obtain ⟨lost, moved⟩ := move_down before middle cell after
  rw [moveForward]
  by_cases distant : before.length + middle.length ≠ before.length
  · have read : (before ++ middle ++ cell :: after)[before.length + middle.length]? =
        some cell := by
      rw [← List.length_append, List.getElem?_append_right (Nat.le_refl _), Nat.sub_self]
      rfl
    rw [if_pos distant, read, Option.bind_some, moved, Option.bind_some, store_front]
  · have near : middle = [] := List.length_eq_zero_iff.mp (by omega)
    rw [if_neg distant, near, List.append_nil, List.nil_append]

/-- One name: the first element of that name comes behind those already in front. -/
theorem bring_forward (absent : ∀ element ∈ front, element.name ≠ name)
    (rest : List PostElement) (spare : PostCells) :
    bringForward (front ++ rest).length ((front ++ rest).map some ++ spare, front.length) name =
      some (((front ++ (rest.find? fun element => element.name = name).toList ++
          rest.eraseP fun element => element.name = name).map some) ++ spare,
        (front ++ (rest.find? fun element => element.name = name).toList).length) := by
  by_cases there : ∃ element ∈ rest, element.name = name
  · obtain ⟨element, member, named⟩ := there
    obtain ⟨found, middle, behind, others, here, parts, erased⟩ := List.exists_of_eraseP
      (p := fun element => decide (element.name = name)) member (by simpa using named)
    have named' : found.name = name := by simpa using here
    have others' : ∀ element ∈ middle, element.name ≠ name := by
      intro element member
      simpa using others element member
    have passed : ∀ element ∈ front ++ middle, element.name ≠ name := by
      intro element member
      rcases List.mem_append.mp member with early | late
      · exact absent element early
      · exact others' element late
    have first : rest.find? (fun element => element.name = name) = some found := by
      rw [parts, List.find?_append, List.find?_eq_none.mpr (by simpa using others'),
        Option.none_or]
      exact List.find?_cons_of_pos here
    have cells : (front ++ rest).map some ++ spare =
        (front ++ middle).map some ++ some found :: (behind.map some ++ spare) := by
      rw [parts]
      simp
    have number : (front ++ rest).length = (front ++ middle).length + (behind.length + 1) := by
      rw [parts]
      simp [Nat.add_assoc]
    have moved := move_forward (front.map some) (middle.map some) (some found)
      (behind.map some ++ spare)
    rw [List.length_map, List.length_map, ← List.map_append, ← List.length_append] at moved
    rw [bringForward]
    dsimp only
    rw [cells, number, search_found passed named', Option.bind_some, first, erased]
    dsimp only
    rw [moved]
    simp
  · have none' : ∀ element ∈ rest, element.name ≠ name := fun element member named =>
      there ⟨element, member, named⟩
    have passed : ∀ element ∈ front ++ rest, element.name ≠ name := by
      intro element member
      rcases List.mem_append.mp member with early | late
      · exact absent element early
      · exact none' element late
    rw [bringForward]
    dsimp only
    rw [search_none passed, Option.bind_some, List.find?_eq_none.mpr (by simpa using none'),
      List.eraseP_of_forall_not (by simpa using none')]
    simp

theorem bring_all (elements : List PostElement) (spare : PostCells) (names : List String)
    (distinct : names.Nodup) :
    names.foldlM (bringForward elements.length) (elements.map some ++ spare, 0) =
      some (((firstWith PostElement.name names elements ++
          withoutFirst PostElement.name names elements).map some) ++ spare,
        (firstWith PostElement.name names elements).length) := by
  induction names using List.reverseRecOn with
  | nil => rfl
  | append_singleton names name ih =>
      obtain ⟨before, _, apart⟩ := List.nodup_append.mp distinct
      have fresh : name ∉ names := by
        intro listed
        exact apart name listed name (List.mem_singleton_self name) rfl
      have absent : ∀ element ∈ firstWith PostElement.name names elements,
          element.name ≠ name := by
        intro element member same
        exact fresh (same ▸ first_with_keys member)
      rw [List.foldlM_append, ih before, Option.bind_eq_bind, Option.bind_some, List.foldlM_cons,
        ← (first_with_perm before elements).length_eq, bring_forward absent,
        find_without_first fresh, ← without_first_concat, ← first_with_concat]
      rfl

end Front

/-- The chain of the enabled elements, those of the picture in picture before those of the video
but for the plugins that belong in front. -/
theorem join_in_chain_order (videos pips : List PostElement) (videoSpare pipSpare : PostCells)
    (audio vis : PostArray) (videoEnable pipEnable audioEnable visEnable : Int) :
    ∃ chain spare,
      joinDeinterlaceAndPostElements ⟨.holding videos videoSpare, .holding pips pipSpare, audio,
        vis, videoEnable, pipEnable, audioEnable, visEnable⟩ = some (.holding chain spare) ∧
      InChainOrder (contributed pipEnable pips ++ contributed videoEnable videos) chain := by
  obtain ⟨spare, joined⟩ := join_elements pipEnable videoEnable pips videos pipSpare videoSpare
  rw [joinDeinterlaceAndPostElements]
  dsimp only
  rw [joined, Option.bind_some]
  generalize contributed pipEnable pips ++ contributed videoEnable videos = elements
  have perm : (firstWith PostElement.name order elements ++
      withoutFirst PostElement.name order elements).Perm elements :=
    first_with_perm (by decide) elements
  refine ⟨firstWith PostElement.name order elements ++
    withoutFirst PostElement.name order elements, spare, ?_, perm, _, rfl,
    without_first_sublist order elements⟩
  split
  · next empty =>
      obtain rfl : elements = [] := List.length_eq_zero_iff.mp empty
      rfl
  · change ((order.foldlM (bringForward elements.length)
      (elements.map some ++ spare, 0)).map _) = _
    rw [bring_all elements spare order (by decide), Option.map_some]
    simp only [PostArray.holding, perm.length_eq]

end Xineliboutput.Post
