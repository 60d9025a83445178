import Xineliboutput.Foundation.Block
import Xineliboutput.Foundation.StableInsertion

/-!
# Overlays in drawing order

`vo_osdreorder.c`. Overlays are inserted into an array of fifty places as they are blended, and
handed on to the driver when the frame ends. The array ends with a null pointer, as long as
there is room for one. A call is `none` where it reads or writes outside the array.
-/

namespace Xineliboutput.Osd

open Xineliboutput.Foundation

set_option autoImplicit false

/-- A pointer to an overlay, with what `osd_level` reads there. -/
structure BlendedOverlay where
  address : Nat
  hiliRgbClut : Int
  layer : UInt32
  deriving DecidableEq

/-- `VDR_OSD_MAGIC` -/
def vdrOsdMagic : Int := -9999

def osdLevel (overlay : BlendedOverlay) : Int :=
  if overlay.hiliRgbClut ≠ vdrOsdMagic then 9999 else Int.bmod overlay.layer.toNat (2 ^ 32)

/-- `this->overlay` -/
abbrev OverlayArray := List (Option BlendedOverlay)

def overlayPlaces : Nat := 50

/-- After `calloc`. -/
def emptyArray : OverlayArray := List.replicate overlayPlaces none

/-- The loop that searches the position, in what is left of the array. -/
def searchPosition (myLevel : Int) : OverlayArray → Nat → Option Nat
  | [], _ => none
  | none :: _, i => some i
  | some other :: rest, i =>
      if osdLevel other ≥ myLevel then searchPosition myLevel rest (i + 1) else some i

/-- `memmove(&this->overlay[i+1], &this->overlay[i], (49-i)*sizeof(vo_overlay_t*))` -/
def makeRoom (array : OverlayArray) (i : Nat) : Option OverlayArray :=
  let count := 49 - i
  if i + 1 + count ≤ array.length then
    some (array.take (i + 1) ++ (array.drop i).take count ++ array.drop (i + 1 + count))
  else none

/-- `this->overlay[i] = overlay` -/
def storeOverlay (overlay : BlendedOverlay) (i : Nat) (array : OverlayArray) :
    Option OverlayArray :=
  if i < array.length then some (array.set i (some overlay)) else none

def overlayBlend (array : OverlayArray) (overlay : BlendedOverlay) : Option OverlayArray := do
  let i ← searchPosition (osdLevel overlay) array 0
  let occupied ← array[i]?
  if occupied.isSome then (makeRoom array i).bind (storeOverlay overlay i)
  else storeOverlay overlay i array

/-- The loop of `overlay_end`, in what is left of the array: what the driver blends, and what
remains in the places. -/
def drawOverlays : OverlayArray → Option (List BlendedOverlay × OverlayArray)
  | [] => none
  | none :: rest => some ([], none :: rest)
  | some overlay :: rest =>
      (drawOverlays rest).map fun (drawn, rest) => (overlay :: drawn, none :: rest)

def showFrame (array : OverlayArray) (overlays : List BlendedOverlay) :
    Option (List BlendedOverlay × OverlayArray) :=
  (overlays.foldlM overlayBlend array).bind drawOverlays

/-- Frame after frame the driver receives the overlays of the frame, arranged, and the array is
empty. -/
def ShowsAll : OverlayArray → List (List BlendedOverlay) → Prop
  | _, [] => True
  | array, frame :: frames => ∃ received,
      showFrame array frame = some (received, emptyArray) ∧
      ArrangedAs osdLevel frame received ∧ ShowsAll emptyArray frames

/-! ## One overlay -/

def holding (overlays : List BlendedOverlay) : OverlayArray :=
  overlays.map some ++ List.replicate (overlayPlaces - overlays.length) none

section Blend

variable {overlays : List BlendedOverlay} {overlay : BlendedOverlay}

theorem holding_nil : holding [] = emptyArray := rfl

theorem holding_length (fits : overlays.length ≤ overlayPlaces) :
    (holding overlays).length = overlayPlaces := by
  rw [holding, List.length_append, List.length_map, List.length_replicate]
  omega

theorem insert_split (overlay : BlendedOverlay) (overlays : List BlendedOverlay) :
    ∃ front back, overlays = front ++ back ∧
      insertBehind osdLevel overlay overlays = front ++ overlay :: back ∧
      (∀ other ∈ front, osdLevel overlay ≤ osdLevel other) ∧
      ∀ other, back.head? = some other → ¬osdLevel overlay ≤ osdLevel other := by
  induction overlays with
  | nil => exact ⟨[], [], rfl, rfl, by simp, by simp⟩
  | cons other rest ih =>
      rw [insertBehind]
      by_cases behind : osdLevel overlay ≤ osdLevel other
      · obtain ⟨front, back, parts, inserted, above, below⟩ := ih
        refine ⟨other :: front, back, by rw [parts]; rfl, ?_, ?_, below⟩
        · rw [if_pos behind, inserted]
          rfl
        · intro later member
          rcases List.mem_cons.mp member with rfl | old
          · exact behind
          · exact above later old
      · refine ⟨[], other :: rest, rfl, if_neg behind, by simp, ?_⟩
        intro later first
        rw [← Option.some.inj first]
        exact behind

theorem search_behind {front : List BlendedOverlay} {rest : OverlayArray} {level : Int}
    (above : ∀ other ∈ front, level ≤ osdLevel other) (i : Nat) :
    searchPosition level (front.map some ++ rest) i =
      searchPosition level rest (i + front.length) := by
  induction front generalizing i with
  | nil => rfl
  | cons other front ih =>
      have here : osdLevel other ≥ level := above other List.mem_cons_self
      rw [List.map_cons, List.cons_append, searchPosition, if_pos here,
        ih fun later member => above later (List.mem_cons_of_mem other member), List.length_cons]
      congr 1
      omega

theorem search_holding {front back : List BlendedOverlay}
    (above : ∀ other ∈ front, osdLevel overlay ≤ osdLevel other)
    (below : ∀ other, back.head? = some other → ¬osdLevel overlay ≤ osdLevel other)
    (room : (front ++ back).length < overlayPlaces) :
    searchPosition (osdLevel overlay) (holding (front ++ back)) 0 = some front.length := by
  rw [holding, List.map_append, List.append_assoc, search_behind above, Nat.zero_add]
  cases back with
  | nil =>
      obtain ⟨left, more⟩ : ∃ left, overlayPlaces - (front ++ []).length = left + 1 :=
        ⟨overlayPlaces - (front ++ []).length - 1, by omega⟩
      rw [more, List.replicate_succ]
      rfl
  | cons other back => rw [List.map_cons, List.cons_append, searchPosition, if_neg (below other rfl)]

/-- The cells from a place on are moved by one place, and the last is lost. -/
theorem make_room_eq {front tail : OverlayArray} {cell : Option BlendedOverlay}
    (whole : (front ++ cell :: tail).length = overlayPlaces) :
    makeRoom (front ++ cell :: tail) front.length =
      some (front ++ cell :: (cell :: tail).dropLast) := by
  have places : overlayPlaces = 50 := rfl
  have length := whole
  rw [List.length_append, List.length_cons, places] at length
  have bound : front.length + 1 + (49 - front.length) = 50 := by omega
  have first : (front ++ cell :: tail).take (front.length + 1) = front ++ [cell] := by
    rw [List.take_append, List.take_of_length_le (by omega)]
    simp
  have moved : ((front ++ cell :: tail).drop front.length).take (49 - front.length) =
      (cell :: tail).dropLast := by
    rw [List.drop_left, List.dropLast_eq_take, List.length_cons]
    congr 1
    omega
  have none' : (front ++ cell :: tail).drop 50 = [] := by
    rw [List.drop_eq_nil_iff, whole, places]
  simp only [makeRoom, bound, whole, places, Nat.le_refl, if_true, first, moved, none',
    List.append_nil, List.append_assoc, List.singleton_append]

theorem holding_eq {front back : List BlendedOverlay}
    (room : (front ++ back).length < overlayPlaces) :
    ∃ left, holding (front ++ back) =
        front.map some ++ (back.map some ++ List.replicate (left + 1) none) ∧
      ∀ overlay, holding (front ++ overlay :: back) =
        front.map some ++ some overlay :: (back.map some ++ List.replicate left none) := by
  refine ⟨overlayPlaces - (front ++ back).length - 1, ?_, ?_⟩
  · rw [holding, List.map_append, List.append_assoc, Nat.sub_add_cancel (by omega)]
  · intro overlay
    have fewer : overlayPlaces - (front ++ overlay :: back).length =
        overlayPlaces - (front ++ back).length - 1 := by
      simp only [List.length_append, List.length_cons] at room ⊢
      omega
    rw [holding, fewer, List.map_append, List.map_cons, List.append_assoc, List.cons_append]

theorem store_front {front tail : OverlayArray} {cell : Option BlendedOverlay}
    (overlay : BlendedOverlay) :
    storeOverlay overlay front.length (front ++ cell :: tail) =
      some (front ++ some overlay :: tail) :=
  checked_set_front front tail cell (some overlay)

theorem blend_holding (overlay : BlendedOverlay) (room : overlays.length < overlayPlaces) :
    overlayBlend (holding overlays) overlay =
      some (holding (insertBehind osdLevel overlay overlays)) := by
  obtain ⟨front, back, rfl, inserted, above, below⟩ := insert_split overlay overlays
  obtain ⟨left, before, after⟩ := holding_eq room
  have length := holding_length (Nat.le_of_lt room)
  have shorter : front.length < overlayPlaces := by
    rw [List.length_append] at room
    omega
  rw [overlayBlend, search_holding above below room, Option.bind_eq_bind, Option.bind_some,
    inserted, after, before]
  rw [before] at length
  have here : (front.map some : OverlayArray).length = front.length := List.length_map _
  cases back with
  | nil =>
      have empty : (front.map some ++ ((([] : List BlendedOverlay).map some : OverlayArray) ++
          List.replicate (left + 1) none))[front.length]? = some none := by
        rw [List.getElem?_append_right (Nat.le_of_eq here), here, Nat.sub_self]
        rfl
      rw [empty, Option.bind_eq_bind, Option.bind_some, if_neg (by simp), List.replicate_succ,
        List.map_nil, List.nil_append, List.nil_append, ← here, store_front]
  | cons other back =>
      have full : (front.map some ++ (((other :: back).map some : OverlayArray) ++
          List.replicate (left + 1) none))[front.length]? = some (some other) := by
        rw [List.getElem?_append_right (Nat.le_of_eq here), here, Nat.sub_self]
        rfl
      have moved : (some other :: (back.map some ++ List.replicate (left + 1) none)).dropLast =
          some other :: (back.map some ++ List.replicate left none) := by
        rw [List.replicate_succ', ← List.append_assoc, ← List.cons_append, List.dropLast_concat]
      rw [List.map_cons, List.cons_append] at full length ⊢
      rw [full, Option.bind_eq_bind, Option.bind_some, if_pos Option.isSome_some, ← here,
        make_room_eq length,
        moved, Option.bind_some, store_front]
      rfl

/-! ## Frames -/

theorem foldlM_blend_holding (frame overlays : List BlendedOverlay)
    (room : overlays.length + frame.length ≤ overlayPlaces) :
    frame.foldlM overlayBlend (holding overlays) =
      some (holding (frame.foldl (fun sorted item => insertBehind osdLevel item sorted)
        overlays)) := by
  induction frame generalizing overlays with
  | nil => rfl
  | cons overlay frame ih =>
      rw [List.length_cons] at room
      rw [List.foldlM_cons, blend_holding overlay (by omega), Option.bind_eq_bind,
        Option.bind_some, ih _ (by rw [insert_length]; omega), List.foldl_cons]

theorem draw_holding (overlays : List BlendedOverlay) (left : Nat) :
    drawOverlays (overlays.map some ++ List.replicate (left + 1) none) =
      some (overlays, List.replicate (overlays.length + (left + 1)) none) := by
  induction overlays with
  | nil =>
      rw [List.length_nil, Nat.zero_add]
      rfl
  | cons overlay overlays ih =>
      rw [List.map_cons, List.cons_append, drawOverlays, ih, Option.map_some, List.length_cons,
        Nat.succ_add, List.replicate_succ]

theorem show_frame_fits {frame : List BlendedOverlay} (room : frame.length < overlayPlaces) :
    showFrame emptyArray frame = some (arrange osdLevel frame, emptyArray) := by
  have same : (arrange osdLevel frame).length = frame.length :=
    (arrange_arranged frame).perm.length_eq
  have few := foldlM_blend_holding frame [] (by rw [List.length_nil]; omega)
  obtain ⟨left, more⟩ : ∃ left, overlayPlaces - (arrange osdLevel frame).length = left + 1 :=
    ⟨overlayPlaces - (arrange osdLevel frame).length - 1, by omega⟩
  have whole : (arrange osdLevel frame).length + (left + 1) = overlayPlaces := by omega
  rw [showFrame, ← holding_nil, few, Option.bind_some]
  change drawOverlays (holding (arrange osdLevel frame)) = _
  rw [holding, more, draw_holding, whole]
  rfl

/-! Without a null pointer at the end the loops leave the array. -/

theorem draw_full (overlays : List BlendedOverlay) :
    drawOverlays (overlays.map some) = none := by
  induction overlays with
  | nil => rfl
  | cons overlay overlays ih => rw [List.map_cons, drawOverlays, ih, Option.map_none]

theorem blend_full {array : OverlayArray} (overlay : BlendedOverlay)
    (full : overlays.length = overlayPlaces)
    (ran : overlayBlend (overlays.map some) overlay = some array) :
    ∃ kept : List BlendedOverlay, kept.length = overlayPlaces ∧ array = kept.map some := by
  have places : overlayPlaces = 50 := rfl
  obtain ⟨i, _, ran⟩ := Option.bind_eq_some_iff.mp ran
  obtain ⟨cell, read, ran⟩ := Option.bind_eq_some_iff.mp ran
  rw [List.getElem?_map] at read
  obtain ⟨other, there, rfl⟩ := Option.map_eq_some_iff.mp read
  obtain ⟨inside, _⟩ := List.getElem?_eq_some_iff.mp there
  rw [if_pos Option.isSome_some] at ran
  obtain ⟨moved, made, stored⟩ := Option.bind_eq_some_iff.mp ran
  rw [makeRoom] at made
  split at made
  · obtain rfl := Option.some.inj made
    rw [storeOverlay] at stored
    split at stored
    · obtain rfl := Option.some.inj stored
      refine ⟨(overlays.take (i + 1) ++ (overlays.drop i).take (49 - i) ++
        overlays.drop (i + 1 + (49 - i))).set i overlay, ?_, ?_⟩
      · simp only [List.length_set, List.length_append, List.length_take, List.length_drop]
        omega
      · simp only [List.map_set, List.map_append, List.map_take, List.map_drop]
    · cases stored
  · cases made

theorem foldlM_blend_full (frame : List BlendedOverlay) {array : OverlayArray}
    (full : overlays.length = overlayPlaces)
    (ran : frame.foldlM overlayBlend (overlays.map some) = some array) :
    ∃ kept : List BlendedOverlay, array = kept.map some := by
  induction frame generalizing overlays with
  | nil => exact ⟨overlays, (Option.some.inj ran).symm⟩
  | cons overlay frame ih =>
      rw [List.foldlM_cons] at ran
      obtain ⟨middle, first, others⟩ := Option.bind_eq_some_iff.mp ran
      obtain ⟨kept, still, rfl⟩ := blend_full overlay full first
      exact ih still others

theorem show_frame_full {frame : List BlendedOverlay} (many : overlayPlaces ≤ frame.length) :
    showFrame emptyArray frame = none := by
  have first := foldlM_blend_holding (frame.take overlayPlaces) [] (by
    rw [List.length_nil, List.length_take]
    omega)
  have length : (arrange osdLevel (frame.take overlayPlaces)).length = overlayPlaces := by
    rw [(arrange_arranged (frame.take overlayPlaces)).perm.length_eq, List.length_take]
    omega
  have nothing : holding (arrange osdLevel (frame.take overlayPlaces)) =
      (arrange osdLevel (frame.take overlayPlaces)).map some := by
    rw [holding, length, Nat.sub_self, List.replicate_zero, List.append_nil]
  have parts : frame.foldlM overlayBlend emptyArray =
      (frame.drop overlayPlaces).foldlM overlayBlend
        ((arrange osdLevel (frame.take overlayPlaces)).map some) := by
    conv_lhs => rw [← List.take_append_drop overlayPlaces frame]
    rw [List.foldlM_append, ← holding_nil, first, ← nothing]
    rfl
  rw [showFrame, parts]
  cases ran : (frame.drop overlayPlaces).foldlM overlayBlend
      ((arrange osdLevel (frame.take overlayPlaces)).map some) with
  | none => rfl
  | some array =>
      obtain ⟨kept, rfl⟩ := foldlM_blend_full _ length ran
      exact draw_full kept

end Blend

/-- Frame after frame the overlays come out arranged exactly where no frame has fifty of
them. -/
theorem shows_all_iff (frames : List (List BlendedOverlay)) :
    ShowsAll emptyArray frames ↔ ∀ frame ∈ frames, frame.length < 50 := by
  induction frames with
  | nil => simp [ShowsAll]
  | cons frame frames ih =>
      rw [ShowsAll, List.forall_mem_cons, ← ih]
      constructor
      · rintro ⟨received, shown, _, others⟩
        refine ⟨?_, others⟩
        by_contra many
        rw [show_frame_full (Nat.not_lt.mp many)] at shown
        cases shown
      · rintro ⟨few, others⟩
        exact ⟨_, show_frame_fits few, arrange_arranged frame, others⟩

/-- With fifty overlays the end of the frame reads behind the array. -/
theorem fifty_overlays :
    ¬ShowsAll emptyArray [List.replicate 50 ⟨1, vdrOsdMagic, 5⟩] := by
  rintro ⟨received, shown, _⟩
  rw [show_frame_full (by simp [overlayPlaces])] at shown
  cases shown

end Xineliboutput.Osd
