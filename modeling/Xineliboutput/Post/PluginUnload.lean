import Xineliboutput.Post.PostElements

/-!
# Disabling and unloading post plugins

`_pplugin_disable_post`, `_pplugin_unload_post` and their callers for video and audio in
`post.c`. Each caller works on two arrays, and the second is disabled only where nothing was
changed in the first.
-/

namespace Xineliboutput.Post

set_option autoImplicit false

inductive PostSide where
  | video
  | audio
  deriving DecidableEq

inductive PostEvent where
  | unwire (side : PostSide)
  | dispose (post : Nat)
  deriving DecidableEq

/-- Both arrays of a side, in the order of the calls. -/
def PostSide.arrays (side : PostSide) (fe : PostPlugins) : PostArray × PostArray :=
  match side with
  | .video => (fe.postVideoElements, fe.postPipElements)
  | .audio => (fe.postAudioElements, fe.postVisElements)

def PostSide.replace (side : PostSide) (fe : PostPlugins) (arrays : PostArray × PostArray) :
    PostPlugins :=
  match side with
  | .video => { fe with postVideoElements := arrays.1, postPipElements := arrays.2 }
  | .audio => { fe with postAudioElements := arrays.1, postVisElements := arrays.2 }

structure PostOutcome where
  fe : PostPlugins
  events : List PostEvent
  result : Bool

/-- `!name || !strcmp(post_elements[i]->name, name)` -/
def PostElement.matchesName (element : PostElement) : Option String → Bool
  | none => true
  | some name => element.name == name

def PostElement.turnsOff (element : PostElement) (name : Option String) : Bool :=
  element.matchesName name && element.enable == .enabled

def disableRound (name : Option String) (state : PostCells × Bool) (i : Nat) :
    Option (PostCells × Bool) :=
  (state.1[i]?).bind fun cell =>
    match cell with
    | none => some state
    | some element =>
        if element.turnsOff name then
          (storeCell state.1 i (some { element with enable := .disabled })).map fun cells =>
            (cells, true)
        else some state

/-- `_pplugin_disable_post` -/
def pluginDisablePost (name : Option String) (elements : PostArray) : Option (PostArray × Bool) :=
  if elements.cells = [] then some (elements, false)
  else
    ((List.range elements.num).foldlM (disableRound name) (elements.cells, false)).map
      fun state => (⟨state.1, elements.num⟩, state.2)

/-- The second array is not looked at where the first has changed. -/
def disablePost (side : PostSide) (fe : PostPlugins) (name : Option String) :
    Option PostOutcome :=
  (pluginDisablePost name (side.arrays fe).1).bind fun first =>
    if first.2 then
      some ⟨side.replace fe (first.1, (side.arrays fe).2), [.unwire side], true⟩
    else
      (pluginDisablePost name (side.arrays fe).2).map fun second =>
        ⟨side.replace fe (first.1, second.1), if second.2 then [.unwire side] else [], second.2⟩

def vppluginDisablePost : PostPlugins → Option String → Option PostOutcome := disablePost .video

def appluginDisablePost : PostPlugins → Option String → Option PostOutcome := disablePost .audio

/-- `for(j=i; j < num - 1; j++) post_elements[j] = post_elements[j+1];` -/
def shiftUp (i num : Nat) (cells : PostCells) : Option PostCells :=
  (List.range' i (num - 1 - i)).foldlM
    (fun cells j => (cells[j + 1]?).bind (storeCell cells j)) cells

def removeCell (elements : PostArray) (i : Nat) : Option PostArray :=
  (shiftUp i elements.num elements.cells).bind fun cells =>
    (storeCell cells (elements.num - 1) none).map fun cells => ⟨cells, elements.num - 1⟩

def PostElement.unloads (element : PostElement) (name : Option String) : Bool :=
  element.matchesName name && (element.enable == .disabled || name.isNone)

/-- The loop of `_pplugin_unload_post` from `i` on. An index from which an element was removed is
visited again. -/
def unloadLoop (name : Option String) : Nat → Nat → PostArray →
    Option (PostArray × List PostEvent)
  | 0, i, elements => if i < elements.num then none else some (elements, [])
  | limit + 1, i, elements =>
      if i < elements.num then
        (elements.cells[i]?).bind fun cell =>
          match cell with
          | none => unloadLoop name limit (i + 1) elements
          | some element =>
              if element.unloads name then
                (removeCell elements i).bind fun fewer =>
                  (unloadLoop name limit i fewer).map fun final =>
                    (final.1, .dispose element.post :: final.2)
              else unloadLoop name limit (i + 1) elements
      else some (elements, [])

/-- `_pplugin_unload_post`, but for its result, which its callers do not use. -/
def pluginUnloadPost (name : Option String) (elements : PostArray) :
    Option (PostArray × List PostEvent) :=
  if elements.cells = [] ∨ elements.num = 0 then some (elements, [])
  else
    (unloadLoop name elements.num 0 elements).map fun final =>
      if final.1.num = 0 then (nullArray, final.2) else final

def unloadPost (side : PostSide) (fe : PostPlugins) (name : Option String) :
    Option PostOutcome :=
  (disablePost side fe name).bind fun disabled =>
    (pluginUnloadPost name (side.arrays disabled.fe).1).bind fun first =>
      (pluginUnloadPost name (side.arrays disabled.fe).2).map fun second =>
        ⟨side.replace disabled.fe (first.1, second.1), disabled.events ++ first.2 ++ second.2,
          disabled.result⟩

def vppluginUnloadPost : PostPlugins → Option String → Option PostOutcome := unloadPost .video

def appluginUnloadPost : PostPlugins → Option String → Option PostOutcome := unloadPost .audio

/-! ## What the calls are for -/

def PostSide.withLists (side : PostSide) (fe : PostPlugins) (first second : List PostElement)
    (spare spare' : PostCells) : PostPlugins :=
  side.replace fe (.holding first spare, .holding second spare')

/-- An element before and after a call that disables. -/
structure TurnedOff (name : Option String) (before after : PostElement) : Prop where
  same : after.post = before.post ∧ after.name = before.name
  off : after.matchesName name → after.enable ≠ .enabled
  others : ¬before.turnsOff name → after = before

/-- No matching element of either list is enabled, all else is as before, and the chain is unwired
if and only if something has changed. -/
def Disables (side : PostSide) (fe : PostPlugins) (name : Option String)
    (first second : List PostElement) (spare spare' : PostCells) (run : Option PostOutcome) :
    Prop :=
  ∃ outcome first' second', run = some outcome ∧
    outcome.fe = side.withLists fe first' second' spare spare' ∧
    List.Forall₂ (TurnedOff name) first first' ∧ List.Forall₂ (TurnedOff name) second second' ∧
    outcome.events = if first' ≠ first ∨ second' ≠ second then [.unwire side] else []

def PostElement.gone (element : PostElement) (name : Option String) : Bool :=
  element.matchesName name && (element.enable != .fixed || name.isNone)

/-- Every such element of both lists is disposed once, after unwiring where one of them was in
use, and the others are kept in order. -/
def Unloads (InUse : PostElement → Prop) (side : PostSide) (fe : PostPlugins)
    (name : Option String) (first second : List PostElement) (run : Option PostOutcome) : Prop :=
  ∃ (outcome : PostOutcome) (spare spare' : PostCells) (wiring : List PostEvent)
      (disposed : List Nat), run = some outcome ∧
    outcome.fe = side.withLists fe (first.filter fun element => !element.gone name)
      (second.filter fun element => !element.gone name) spare spare' ∧
    outcome.events = wiring ++ disposed.map PostEvent.dispose ∧
    disposed.Perm (((first ++ second).filter fun element => element.gone name).map
      PostElement.post) ∧
    (∀ event ∈ wiring, event = .unwire side) ∧
    ∀ element ∈ first ++ second, element.gone name → InUse element → .unwire side ∈ wiring

/-! ## Disabling -/

section Disable

variable {name : Option String} {element : PostElement}

def PostElement.switchedOff (element : PostElement) (name : Option String) : PostElement :=
  if element.turnsOff name then { element with enable := .disabled } else element

theorem disable_rounds (name : Option String) (elements : List PostElement)
    (spare : PostCells) :
    (List.range elements.length).foldlM (disableRound name) (elements.map some ++ spare, false) =
      some ((elements.map fun element => element.switchedOff name).map some ++ spare,
        elements.any fun element => element.turnsOff name) := by
  induction elements using List.reverseRecOn generalizing spare with
  | nil => rfl
  | append_singleton elements element ih =>
      have length : ((elements.map fun element => element.switchedOff name).map some :
          PostCells).length = elements.length := by simp
      have read : ((elements.map fun element => element.switchedOff name).map some ++
          some element :: spare)[elements.length]? = some (some element) := by
        rw [List.getElem?_append_right (Nat.le_of_eq length), length, Nat.sub_self]
        rfl
      rw [List.length_append, List.length_singleton, List.range_succ, List.foldlM_append,
        List.map_append, List.append_assoc, List.map_cons, List.map_nil, List.singleton_append,
        ih (some element :: spare), Option.bind_eq_bind, Option.bind_some, List.foldlM_cons,
        disableRound]
      dsimp only
      rw [read, Option.bind_some]
      dsimp only
      by_cases turns : element.turnsOff name
      · rw [if_pos turns, ← length, store_front]
        simp [PostElement.switchedOff, turns]
      · rw [if_neg turns]
        simp [PostElement.switchedOff, turns]

theorem plugin_disable (name : Option String) (elements : List PostElement) (spare : PostCells) :
    pluginDisablePost name (.holding elements spare) =
      some (.holding (elements.map fun element => element.switchedOff name) spare,
        elements.any fun element => element.turnsOff name) := by
  rw [pluginDisablePost]
  split
  · next empty =>
      obtain ⟨none', _⟩ := List.append_eq_nil_iff.mp empty
      obtain rfl : elements = [] := List.map_eq_nil_iff.mp none'
      rfl
  · change ((List.range elements.length).foldlM (disableRound name)
      (elements.map some ++ spare, false)).map _ = _
    rw [disable_rounds, Option.map_some]
    simp [PostArray.holding]

theorem switched_off_self (stays : ¬element.turnsOff name) : element.switchedOff name = element :=
  if_neg stays

theorem map_switched_off {elements : List PostElement}
    (stay : ¬elements.any fun element => element.turnsOff name) :
    (elements.map fun element => element.switchedOff name) = elements := by
  apply (List.map_congr_left ?_).trans (List.map_id elements)
  intro element member
  apply switched_off_self
  intro turns
  exact stay (List.any_eq_true.mpr ⟨element, member, turns⟩)

theorem map_switched_off_ne {elements : List PostElement}
    (turn : elements.any fun element => element.turnsOff name) :
    (elements.map fun element => element.switchedOff name) ≠ elements := by
  intro same
  obtain ⟨element, member, turns⟩ := List.any_eq_true.mp turn
  have fixed : element.switchedOff name = element :=
    (List.map_inj_left.mp (same.trans (List.map_id elements).symm)) element member
  rw [PostElement.switchedOff, if_pos turns] at fixed
  have enabled := (Bool.and_eq_true_iff.mp turns).2
  rw [← fixed] at enabled
  cases enabled

theorem turned_off (name : Option String) (element : PostElement) :
    TurnedOff name element (element.switchedOff name) := by
  rw [PostElement.switchedOff]
  split
  · next turns =>
      refine ⟨⟨rfl, rfl⟩, ?_, fun stays => absurd turns stays⟩
      intro _ enabled
      cases enabled
  · next stays =>
      refine ⟨⟨rfl, rfl⟩, ?_, fun _ => rfl⟩
      intro named enabled
      apply stays
      rw [PostElement.turnsOff, named, enabled]
      rfl

theorem forall_turned_off (name : Option String) (elements : List PostElement) :
    List.Forall₂ (TurnedOff name) elements
      (elements.map fun element => element.switchedOff name) := by
  rw [List.forall₂_map_right_iff, List.forall₂_same]
  intro element _
  exact turned_off name element

end Disable

/-! ## Unloading -/

section Unload

variable {before after : PostCells} {done rest : List PostElement} {element : PostElement}
  {name : Option String}

theorem shift_up (before : PostCells) (cell : Option PostElement) (behind after : PostCells) :
    ∃ lost, (List.range' before.length behind.length).foldlM
        (fun cells j => (cells[j + 1]?).bind (storeCell cells j))
        (before ++ cell :: (behind ++ after)) = some (before ++ (behind ++ lost :: after)) := by
  induction behind generalizing before cell with
  | nil => exact ⟨cell, rfl⟩
  | cons next behind ih =>
      obtain ⟨lost, shifted⟩ := ih (before ++ [next]) next
      have read : (before ++ cell :: (next :: behind ++ after))[before.length + 1]? =
          some next := by
        rw [List.getElem?_append_right (by omega), Nat.add_sub_cancel_left]
        rfl
      refine ⟨lost, ?_⟩
      rw [List.length_cons, List.range'_succ, List.foldlM_cons, read, Option.bind_some,
        store_front, Option.bind_eq_bind, Option.bind_some]
      rw [List.length_append, List.length_singleton, List.append_assoc, List.append_assoc]
        at shifted
      exact shifted

/-- An element is taken out, and the cell that becomes free is a null pointer. -/
theorem remove_cell (done rest : List PostElement) (element : PostElement) (after : PostCells) :
    removeCell ⟨(done ++ element :: rest).map some ++ after, (done ++ element :: rest).length⟩
        done.length =
      some ⟨(done ++ rest).map some ++ none :: after, (done ++ rest).length⟩ := by
  obtain ⟨lost, shifted⟩ := shift_up (done.map some) (some element) (rest.map some) after
  have many : (done ++ element :: rest).length - 1 - done.length = rest.length := by simp
  have last : (done ++ element :: rest).length - 1 =
      (done.map some ++ rest.map some : PostCells).length := by simp
  have fewer : (done ++ element :: rest).length - 1 = (done ++ rest).length := by simp
  rw [List.length_map, List.length_map] at shifted
  rw [removeCell, shiftUp]
  dsimp only
  rw [many, List.map_append, List.map_cons, List.append_assoc, List.cons_append, shifted,
    Option.bind_some, last, ← List.append_assoc, store_front, Option.map_some, ← last, fewer,
    List.map_append]

theorem unload_loop (name : Option String) (done rest : List PostElement) (after : PostCells) :
    ∃ spare, unloadLoop name rest.length done.length
        ⟨(done ++ rest).map some ++ after, (done ++ rest).length⟩ =
      some (.holding (done ++ rest.filter fun element => !element.unloads name) spare,
        (rest.filter fun element => element.unloads name).map fun element =>
          .dispose element.post) := by
  induction rest generalizing done after with
  | nil =>
      refine ⟨after, ?_⟩
      rw [List.append_nil, List.length_nil, unloadLoop, if_neg (Nat.lt_irrefl _), List.filter_nil,
        List.append_nil]
      rfl
  | cons element rest ih =>
      have read : ((done ++ element :: rest).map some ++ after)[done.length]? =
          some (some element) := by
        rw [List.getElem?_append_left (by simp)]
        simp
      have inside : done.length < (done ++ element :: rest).length := by simp
      rw [List.length_cons, unloadLoop]
      dsimp only
      rw [if_pos inside, read, Option.bind_some]
      dsimp only
      by_cases goes : element.unloads name
      · obtain ⟨spare, others⟩ := ih done (none :: after)
        refine ⟨spare, ?_⟩
        rw [if_pos goes, remove_cell, Option.bind_some, others, Option.map_some]
        simp [goes]
      · obtain ⟨spare, others⟩ := ih (done ++ [element]) after
        refine ⟨spare, ?_⟩
        rw [List.append_assoc, List.append_assoc, List.singleton_append, List.length_append,
          List.length_singleton] at others
        rw [if_neg goes, others]
        simp [goes]

theorem plugin_unload (name : Option String) (elements : List PostElement) (after : PostCells) :
    ∃ spare, pluginUnloadPost name (.holding elements after) =
      some (.holding (elements.filter fun element => !element.unloads name) spare,
        (elements.filter fun element => element.unloads name).map fun element =>
          .dispose element.post) := by
  rw [pluginUnloadPost]
  split
  · next empty =>
      have none' : elements = [] := by
        rcases empty with cells | num
        · exact List.map_eq_nil_iff.mp (List.append_eq_nil_iff.mp cells).1
        · exact List.length_eq_zero_iff.mp num
      rw [none']
      exact ⟨after, rfl⟩
  · obtain ⟨spare, ran⟩ := unload_loop name [] elements after
    rw [List.nil_append, List.nil_append, List.length_nil] at ran
    change ∃ spare, (unloadLoop name elements.length 0
      ⟨elements.map some ++ after, elements.length⟩).map _ = _
    rw [ran, Option.map_some]
    split
    · next empty =>
        have nothing : (elements.filter fun element => !element.unloads name) = [] :=
          List.length_eq_zero_iff.mp empty
        exact ⟨[], by rw [nothing]; rfl⟩
    · exact ⟨spare, rfl⟩

end Unload

/-! ## Both arrays -/

section Sides

variable {side : PostSide} {fe : PostPlugins} {name : Option String}
  {first second first' second' : List PostElement} {spare spare' rest rest' : PostCells}
  {element : PostElement}

def AnyTurnsOff (name : Option String) (elements : List PostElement) : Prop :=
  ∃ element ∈ elements, element.turnsOff name

theorem any_turns_off_iff (elements : List PostElement) :
    (elements.any fun element => element.turnsOff name) = true ↔ AnyTurnsOff name elements :=
  List.any_eq_true

@[simp] theorem arrays_replace (side : PostSide) (fe : PostPlugins)
    (arrays : PostArray × PostArray) : side.arrays (side.replace fe arrays) = arrays := by
  cases side <;> rfl

@[simp] theorem replace_replace (side : PostSide) (fe : PostPlugins)
    (arrays arrays' : PostArray × PostArray) :
    side.replace (side.replace fe arrays) arrays' = side.replace fe arrays' := by
  cases side <;> rfl

theorem holding_inj {elements elements' : List PostElement}
    (same : PostArray.holding elements spare = .holding elements' spare') :
    elements = elements' := by
  rw [PostArray.holding, PostArray.holding, PostArray.mk.injEq] at same
  obtain ⟨cells, num⟩ := same
  have parts := List.append_inj_left cells (by simpa using num)
  exact List.map_injective_iff.mpr (Option.some_injective PostElement) parts

theorem with_lists_inj (same : side.withLists fe first second spare spare' =
    side.withLists fe first' second' rest rest') : first = first' ∧ second = second' := by
  have arrays := congrArg side.arrays same
  rw [PostSide.withLists, PostSide.withLists, arrays_replace, arrays_replace,
    Prod.mk.injEq] at arrays
  exact ⟨holding_inj arrays.1, holding_inj arrays.2⟩

/-- The second list after a call that disables: as it was, where the first has changed. -/
def secondAfter (name : Option String) (first second : List PostElement) : List PostElement :=
  if first.any fun element => element.turnsOff name then second
  else second.map fun element => element.switchedOff name

def wiringOf (side : PostSide) (name : Option String) (first second : List PostElement) :
    List PostEvent :=
  if (first.any fun element => element.turnsOff name) ||
    second.any fun element => element.turnsOff name then [.unwire side] else []

theorem disable_run (side : PostSide) (fe : PostPlugins) (name : Option String)
    (first second : List PostElement) (spare spare' : PostCells) :
    disablePost side (side.withLists fe first second spare spare') name =
      some ⟨side.withLists fe (first.map fun element => element.switchedOff name)
          (secondAfter name first second) spare spare',
        wiringOf side name first second, (first.any fun element => element.turnsOff name) ||
          second.any fun element => element.turnsOff name⟩ := by
  rw [disablePost, PostSide.withLists, arrays_replace]
  dsimp only
  rw [plugin_disable, Option.bind_some, secondAfter, wiringOf]
  dsimp only
  split
  · next changed =>
      rw [changed, replace_replace, Bool.true_or, if_pos rfl]
      rfl
  · next unchanged =>
      have nothing : (first.any fun element => element.turnsOff name) = false :=
        Bool.eq_false_iff.mpr unchanged
      rw [plugin_disable, Option.map_some, nothing, replace_replace, Bool.false_or]
      rfl

theorem unload_run (side : PostSide) (fe : PostPlugins) (name : Option String)
    (first second : List PostElement) (spare spare' : PostCells) :
    ∃ rest rest', unloadPost side (side.withLists fe first second spare spare') name =
      some ⟨side.withLists fe
          ((first.map fun element => element.switchedOff name).filter fun element =>
            !element.unloads name)
          ((secondAfter name first second).filter fun element => !element.unloads name) rest rest',
        wiringOf side name first second ++ (((first.map fun element => element.switchedOff name) ++
            secondAfter name first second).filter fun element => element.unloads name).map
              fun element => .dispose element.post,
        (first.any fun element => element.turnsOff name) ||
          second.any fun element => element.turnsOff name⟩ := by
  obtain ⟨rest, gone⟩ := plugin_unload name
    (first.map fun element => element.switchedOff name) spare
  obtain ⟨rest', gone'⟩ := plugin_unload name (secondAfter name first second) spare'
  refine ⟨rest, rest', ?_⟩
  rw [unloadPost, disable_run, Option.bind_some, PostSide.withLists, arrays_replace]
  dsimp only
  rw [gone, Option.bind_some, gone', Option.map_some, replace_replace, List.filter_append,
    List.map_append, List.append_assoc]
  rfl

/-! The second list is left out exactly where both have an element to disable. -/

theorem second_after_eq (once : ¬(AnyTurnsOff name first ∧ AnyTurnsOff name second)) :
    secondAfter name first second = second.map fun element => element.switchedOff name := by
  rw [secondAfter]
  split
  · next changed =>
      have stays : ¬(second.any fun element => element.turnsOff name) = true := by
        intro turns
        exact once ⟨(any_turns_off_iff first).mp changed, (any_turns_off_iff second).mp turns⟩
      exact (map_switched_off stays).symm
  · rfl

theorem second_after_skipped (turns : AnyTurnsOff name first) :
    secondAfter name first second = second :=
  if_pos ((any_turns_off_iff first).mpr turns)

theorem map_switched_off_ne_iff (elements : List PostElement) :
    (elements.map fun element => element.switchedOff name) ≠ elements ↔
      AnyTurnsOff name elements := by
  rw [← any_turns_off_iff]
  constructor
  · intro differs
    by_contra stay
    exact differs (map_switched_off stay)
  · exact map_switched_off_ne

theorem disables_iff (side : PostSide) (fe : PostPlugins) (name : Option String)
    (first second : List PostElement) (spare spare' : PostCells) :
    Disables side fe name first second spare spare'
        (disablePost side (side.withLists fe first second spare spare') name) ↔
      ¬(AnyTurnsOff name first ∧ AnyTurnsOff name second) := by
  rw [disable_run]
  constructor
  · rintro ⟨outcome, first', second', ran, state, _, turned, _⟩ ⟨turns, element, member, off⟩
    obtain rfl := Option.some.inj ran
    have same := (with_lists_inj state).2
    rw [second_after_skipped turns] at same
    subst same
    have still := List.forall₂_same.mp turned element member
    obtain ⟨named, enabled⟩ := Bool.and_eq_true_iff.mp off
    exact still.off named (beq_iff_eq.mp enabled)
  · intro once
    refine ⟨_, _, _, rfl, rfl, forall_turned_off name first, ?_, ?_⟩
    · rw [second_after_eq once]
      exact forall_turned_off name second
    · rw [second_after_eq once, wiringOf]
      apply if_congr _ rfl rfl
      rw [map_switched_off_ne_iff, map_switched_off_ne_iff, Bool.or_eq_true, any_turns_off_iff,
        any_turns_off_iff]

/-! After disabling the elements that are unloaded are those that should go. -/

theorem gone_of_turns_off (turns : element.turnsOff name) : element.gone name := by
  obtain ⟨named, enabled⟩ := Bool.and_eq_true_iff.mp turns
  rw [PostElement.gone, named, beq_iff_eq.mp enabled]
  rfl

theorem switched_off_unloads (name : Option String) (element : PostElement) :
    (element.switchedOff name).unloads name = element.gone name := by
  rw [PostElement.switchedOff]
  split
  · next turns =>
      have named := (Bool.and_eq_true_iff.mp turns).1
      have still : ({ element with enable := .disabled } : PostElement).matchesName name =
          true := by
        rw [← named]
        cases name <;> rfl
      rw [gone_of_turns_off turns, PostElement.unloads, still]
      rfl
  · next stays =>
      rw [PostElement.unloads, PostElement.gone]
      cases named : element.matchesName name with
      | false => rfl
      | true =>
          cases held : element.enable with
          | disabled => rfl
          | enabled =>
              rw [PostElement.turnsOff, named, held] at stays
              exact absurd rfl stays
          | fixed => rfl

theorem switched_off_kept (stays : ¬element.gone name) : element.switchedOff name = element :=
  switched_off_self fun turns => stays (gone_of_turns_off turns)

theorem switched_off_post (name : Option String) (element : PostElement) :
    (element.switchedOff name).post = element.post := (turned_off name element).same.1

theorem kept_after (name : Option String) (elements : List PostElement) :
    ((elements.map fun element => element.switchedOff name).filter fun element =>
      !element.unloads name) = elements.filter fun element => !element.gone name := by
  induction elements with
  | nil => rfl
  | cons element elements ih =>
      rw [List.map_cons, List.filter_cons, List.filter_cons, ih, switched_off_unloads]
      by_cases goes : element.gone name
      · rw [goes]
        rfl
      · rw [switched_off_kept goes]

theorem disposed_after (name : Option String) (elements : List PostElement) :
    ((elements.map fun element => element.switchedOff name).filter fun element =>
      element.unloads name).map PostElement.post =
        (elements.filter fun element => element.gone name).map PostElement.post := by
  rw [List.filter_map, List.map_map]
  simp only [Function.comp_def, switched_off_post, switched_off_unloads]

theorem all_unload (element : PostElement) : element.unloads none = true := by
  rw [PostElement.unloads, Option.isNone_none, Bool.or_true]
  rfl

theorem all_gone (element : PostElement) : element.gone none = true := by
  rw [PostElement.gone, Option.isNone_none, Bool.or_true]
  rfl

theorem second_unloaded
    (whole : name = none ∨ ¬(AnyTurnsOff name first ∧ AnyTurnsOff name second)) :
    ((secondAfter name first second).filter fun element => !element.unloads name) =
        (second.filter fun element => !element.gone name) ∧
      ((secondAfter name first second).filter fun element => element.unloads name).map
        PostElement.post =
          (second.filter fun element => element.gone name).map PostElement.post := by
  by_cases both : AnyTurnsOff name first ∧ AnyTurnsOff name second
  · obtain rfl : name = none := whole.resolve_right (not_not_intro both)
    rw [second_after_skipped both.1]
    simp only [all_unload, all_gone, and_self]
  · rw [second_after_eq both]
    exact ⟨kept_after name second, disposed_after name second⟩

theorem unloads_in_use_iff (InUse : PostElement → Prop) (side : PostSide) (fe : PostPlugins)
    (name : Option String) (first second : List PostElement) (spare spare' : PostCells) :
    Unloads InUse side fe name first second
        (unloadPost side (side.withLists fe first second spare spare') name) ↔
      (name = none ∨ ¬(AnyTurnsOff name first ∧ AnyTurnsOff name second)) ∧
        ∀ element ∈ first ++ second, element.gone name → InUse element →
          AnyTurnsOff name first ∨ AnyTurnsOff name second := by
  obtain ⟨rest, rest', ran⟩ := unload_run side fe name first second spare spare'
  rw [ran]
  constructor
  · rintro ⟨outcome, end', end'', wiring, disposed, same, state, events, _, _, wired⟩
    obtain rfl := Option.some.inj same
    constructor
    · by_contra fails
      obtain ⟨named, both⟩ := not_or.mp fails
      obtain ⟨turns, element, member, off⟩ := not_not.mp both
      have kept := (with_lists_inj state).2
      rw [second_after_skipped turns] at kept
      obtain ⟨matching, enabled⟩ := Bool.and_eq_true_iff.mp off
      have stays : element.unloads name = false := by
        rw [PostElement.unloads, beq_iff_eq.mp enabled, Option.isNone_eq_false_iff.mpr
          (Option.isSome_iff_ne_none.mpr named), Bool.or_false]
        exact Bool.and_false _
      have there : element ∈ second.filter fun element => !element.unloads name :=
        List.mem_filter.mpr ⟨member, by rw [stays]; rfl⟩
      rw [kept] at there
      have absent := (List.mem_filter.mp there).2
      rw [gone_of_turns_off off] at absent
      cases absent
    · intro element member goes uses
      have unwired : PostEvent.unwire side ∈ wiring ++ disposed.map PostEvent.dispose :=
        List.mem_append_left _ (wired element member goes uses)
      rw [← events, List.mem_append] at unwired
      rcases unwired with early | late
      · rw [← any_turns_off_iff, ← any_turns_off_iff, ← Bool.or_eq_true]
        by_contra none'
        rw [wiringOf, if_neg none'] at early
        cases early
      · obtain ⟨other, _, differs⟩ := List.mem_map.mp late
        cases differs
  · rintro ⟨whole, wired⟩
    obtain ⟨kept, disposed⟩ := second_unloaded whole
    refine ⟨_, rest, rest', wiringOf side name first second,
      (((first.map fun element => element.switchedOff name) ++
        secondAfter name first second).filter fun element => element.unloads name).map
          PostElement.post, rfl, ?_, ?_, ?_, ?_, ?_⟩
    · rw [kept, kept_after]
    · rw [List.map_map]
      rfl
    · rw [List.filter_append, List.map_append, disposed, disposed_after, ← List.map_append,
        ← List.filter_append]
    · intro event member
      rw [wiringOf] at member
      split at member
      · exact List.mem_singleton.mp member
      · cases member
    · intro element member goes uses
      have turns := wired element member goes uses
      rw [← any_turns_off_iff, ← any_turns_off_iff, ← Bool.or_eq_true] at turns
      rw [wiringOf, if_pos turns]
      exact List.mem_singleton_self _

theorem any_turns_off_append (member : element ∈ first ++ second)
    (turns : element.turnsOff name) : AnyTurnsOff name first ∨ AnyTurnsOff name second :=
  (List.mem_append.mp member).imp (fun early => ⟨element, early, turns⟩)
    fun late => ⟨element, late, turns⟩

theorem turns_off_of_gone (goes : element.gone name) (enabled : element.enable = .enabled) :
    element.turnsOff name := by
  rw [PostElement.turnsOff, (Bool.and_eq_true_iff.mp goes).1, enabled]
  rfl

theorem turns_off_of_named {title : String} (goes : element.gone (some title))
    (uses : element.IsEnabled) : element.turnsOff (some title) := by
  apply turns_off_of_gone goes
  have movable := (Bool.and_eq_true_iff.mp goes).2
  cases held : element.enable with
  | disabled => exact absurd held uses
  | enabled => rfl
  | fixed =>
      rw [held] at movable
      cases movable

theorem turns_off_none (element : PostElement) :
    element.turnsOff none = true ↔ element.enable = .enabled := by
  rw [PostElement.turnsOff, PostElement.matchesName, Bool.true_and, beq_iff_eq]

end Sides

/-! ## When the calls do what they are for -/

def PostSide.disable : PostSide → PostPlugins → Option String → Option PostOutcome
  | .video => vppluginDisablePost
  | .audio => appluginDisablePost

def PostSide.unload : PostSide → PostPlugins → Option String → Option PostOutcome
  | .video => vppluginUnloadPost
  | .audio => appluginUnloadPost

theorem disable_eq (side : PostSide) : side.disable = disablePost side := by
  cases side <;> rfl

theorem unload_eq (side : PostSide) : side.unload = unloadPost side := by
  cases side <;> rfl

/-- Both lists are disabled unless each has an enabled element of the name. An unloading that is
given a name depends on the same. One without a name disposes everything; elements that can not
be disabled count as in use in the last statement, and are disposed without unwiring where there
are no others. -/
theorem disable_and_unload_iff (side : PostSide) (fe : PostPlugins) (name : Option String)
    (first second : List PostElement) (spare spare' : PostCells) :
    (Disables side fe name first second spare spare'
        (side.disable (side.withLists fe first second spare spare') name) ↔
      ¬(AnyTurnsOff name first ∧ AnyTurnsOff name second)) ∧
    (Unloads (fun element => element.enable = .enabled) side fe name first second
        (side.unload (side.withLists fe first second spare spare') name) ↔
      name = none ∨ ¬(AnyTurnsOff name first ∧ AnyTurnsOff name second)) ∧
    (Unloads PostElement.IsEnabled side fe name first second
        (side.unload (side.withLists fe first second spare spare') name) ↔
      (name ≠ none → ¬(AnyTurnsOff name first ∧ AnyTurnsOff name second)) ∧
      (name = none → (∀ element ∈ first ++ second, element.enable = .disabled) ∨
        ∃ element ∈ first ++ second, element.enable = .enabled)) := by
  rw [disable_eq, unload_eq, unloads_in_use_iff, unloads_in_use_iff]
  refine ⟨disables_iff side fe name first second spare spare', ?_, ?_⟩
  · constructor
    · exact And.left
    · intro whole
      refine ⟨whole, ?_⟩
      intro element member goes enabled
      exact any_turns_off_append member (turns_off_of_gone goes enabled)
  · cases name with
    | some title =>
        constructor
        · rintro ⟨whole, _⟩
          refine ⟨fun _ => whole.resolve_left (by simp), ?_⟩
          intro absent
          cases absent
        · rintro ⟨whole, _⟩
          refine ⟨.inr (whole (by simp)), ?_⟩
          intro element member goes uses
          exact any_turns_off_append member (turns_off_of_named goes uses)
    | none =>
        constructor
        · rintro ⟨_, wired⟩
          refine ⟨fun named => absurd rfl named, fun _ => ?_⟩
          by_cases used : ∃ element ∈ first ++ second, element.IsEnabled
          · obtain ⟨element, member, uses⟩ := used
            right
            rcases wired element member (all_gone element) uses with early | late
            · obtain ⟨other, there, turns⟩ := early
              exact ⟨other, List.mem_append_left second there, (turns_off_none other).mp turns⟩
            · obtain ⟨other, there, turns⟩ := late
              exact ⟨other, List.mem_append_right first there, (turns_off_none other).mp turns⟩
          · left
            intro element member
            by_contra uses
            exact used ⟨element, member, uses⟩
        · rintro ⟨_, held⟩
          refine ⟨.inl rfl, ?_⟩
          intro element member _ uses
          rcases held rfl with unused | ⟨other, there, enabled⟩
          · exact absurd (unused element member) uses
          · exact any_turns_off_append there ((turns_off_none other).mpr enabled)

/-- All plugins of the video chain are disabled, and the one of the picture in picture stays. -/
theorem disable_all_leaves_pip :
    ¬Disables .video ⟨nullArray, nullArray, nullArray, nullArray, 1, 1, 1, 1⟩ none
      [⟨1, "tvtime", .enabled⟩] [⟨2, "mosaico", .enabled⟩] [none] [none]
      (vppluginDisablePost (PostSide.video.withLists
        ⟨nullArray, nullArray, nullArray, nullArray, 1, 1, 1, 1⟩
        [⟨1, "tvtime", .enabled⟩] [⟨2, "mosaico", .enabled⟩] [none] [none]) none) := by
  rw [vppluginDisablePost, disables_iff, not_not]
  exact ⟨⟨_, List.mem_singleton_self _, rfl⟩, ⟨_, List.mem_singleton_self _, rfl⟩⟩

end Xineliboutput.Post
