import Xineliboutput.Osd.OsdScaler

/-!
# The copies that the scaler keeps

At most one copy of an overlay is kept, and what is handed to the driver is scaled for the
output. `osd_data_remove` frees a copy without its elements: they are lost whenever a copy is
replaced by one of another size.
-/

namespace Xineliboutput.Osd

open Xineliboutput.Foundation

set_option autoImplicit false

def ScalerOsdData.size (data : ScalerOsdData) : UInt16 × UInt16 :=
  (data.outputWidth, data.outputHeight)

def ScalerHook.size (hook : ScalerHook) : UInt16 × UInt16 := (hook.outputWidth, hook.outputHeight)

/-- Made for an output of the size, from an overlay with some extent. -/
def ScaledFor (data : ScalerOsdData) (size : UInt16 × UInt16) : Prop :=
  data.size = size ∧ ∃ overlay : VoOverlay, data.ovl = scaledOverlay overlay
    (outputFactor size.1 overlay.extra.extentWidth)
    (outputFactor size.2 overlay.extra.extentHeight)

/-- The conditions of `check_for_scaling`. -/
structure ScalingRequired (hook : ScalerHook) (frame : VoFrame) (window : Int × Int)
    (overlay : VoOverlay) : Prop where
  enabled : hook.enable = true
  drawn : overlay.rle.isSome = true
  indexed : overlay.argbLayer = false
  fromVdr : overlay.hiliRgbClut = vdrOsdMagic
  wanted : ¬overlay.extra.scaling < 1
  here : hook.customExtentSupported = false
  extent : ¬(overlay.extra.extentWidth < 128 ∨ overlay.extra.extentHeight < 128)
  output : ¬((detectOutputSize hook.unscaledSupported frame window overlay).1 < 128 ∨
    (detectOutputSize hook.unscaledSupported frame window overlay).2 < 128)
  differs :
    farFrom (detectOutputSize hook.unscaledSupported frame window overlay).1
        overlay.extra.extentWidth = true ∨
      farFrom (detectOutputSize hook.unscaledSupported frame window overlay).2
        overlay.extra.extentHeight = true

def Outdated (osds : List ScalerOsdData) (source : Nat) (size : UInt16 × UInt16) : Prop :=
  ∃ data ∈ osds, data.source = source ∧ data.size ≠ size

/-- The call blends an overlay to be scaled that has a copy for another output size. -/
def Replaces (hook : ScalerHook) : ScalerCall → Prop
  | .overlayBlend frame window source overlay =>
      ScalingRequired hook frame window overlay ∧ Outdated hook.activeOsds source
        (detectOutputSize hook.unscaledSupported frame window overlay)
  | _ => False

/-! ## The list of copies -/

theorem osd_data_clear_eq {osds : List ScalerOsdData} (scaled : ∀ data ∈ osds, data.scaled = true) :
    osdDataClear osds = osds.flatMap ScalerOsdData.blocks := by
  induction osds with
  | nil => rfl
  | cons data next ih =>
      have here : data.scaled = true := scaled data List.mem_cons_self
      have behind := ih fun other member => scaled other (List.mem_cons_of_mem _ member)
      rw [osdDataClear, osdDataDispose, if_pos here, behind]
      rfl

theorem osd_data_remove_split {front back : List ScalerOsdData} {data : ScalerOsdData}
    (first : ∀ other ∈ front, other.number ≠ data.number) :
    osdDataRemove data.number (front ++ data :: back) = (front ++ back, [.data data.number]) := by
  induction front with
  | nil => rw [List.nil_append, osdDataRemove, if_pos rfl, List.nil_append]
  | cons head front ih =>
      have behind := ih fun other member => first other (List.mem_cons_of_mem _ member)
      rw [List.cons_append, osdDataRemove, if_neg (first head List.mem_cons_self), behind]
      rfl

/-! ## Whether an overlay is scaled -/

structure SameCache (after hook : ScalerHook) : Prop where
  osds : after.activeOsds = hook.activeOsds
  heap : after.heap = hook.heap
  copies : after.copies = hook.copies

theorem same_cache_move (hook : ScalerHook) (xMove yMove : UInt16) :
    SameCache (hook.withMove xMove yMove) hook := ⟨rfl, rfl, rfl⟩

theorem same_cache_factors (hook : ScalerHook) (factorX factorY : UInt32) :
    SameCache (hook.withFactors factorX factorY) hook := ⟨rfl, rfl, rfl⟩

theorem check_output_kept (hook : ScalerHook) (overlay : VoOverlay) :
    SameCache (checkOutput hook overlay).2.1 hook := by
  rw [checkOutput]
  split
  · exact ⟨rfl, rfl, rfl⟩
  · split
    · exact same_cache_factors hook _ _
    · exact same_cache_move hook _ _

theorem check_for_scaling_kept (hook : ScalerHook) (frame : VoFrame) (window : Int × Int)
    (overlay : VoOverlay) :
    SameCache (checkForScaling hook frame window overlay).2.1 hook := by
  rw [checkForScaling]
  split_ifs
  case neg =>
    have kept := check_output_kept ((hook.withMove 0 0).withOutput
      (detectOutputSize hook.unscaledSupported frame window overlay)) (overlay.withExtent 0 0)
    exact ⟨kept.osds, kept.heap, kept.copies⟩
  all_goals exact same_cache_move hook 0 0

theorem check_output_true {hook after : ScalerHook} {overlay drawn : VoOverlay}
    (checked : checkOutput hook overlay = (true, after, drawn)) :
    ¬(hook.outputWidth < 128 ∨ hook.outputHeight < 128) ∧
      (farFrom hook.outputWidth overlay.extra.extentWidth = true ∨
        farFrom hook.outputHeight overlay.extra.extentHeight = true) ∧
      after = hook.withFactors (outputFactor hook.outputWidth overlay.extra.extentWidth)
        (outputFactor hook.outputHeight overlay.extra.extentHeight) ∧ drawn = overlay := by
  rw [checkOutput] at checked
  by_cases output : hook.outputWidth < 128 ∨ hook.outputHeight < 128
  · rw [if_pos output] at checked
    exact absurd (congrArg Prod.fst checked) Bool.false_ne_true
  · rw [if_neg output] at checked
    by_cases differs : farFrom hook.outputWidth overlay.extra.extentWidth = true ∨
        farFrom hook.outputHeight overlay.extra.extentHeight = true
    · rw [if_pos differs] at checked
      have parts := Prod.mk.inj (Prod.mk.inj checked).2
      exact ⟨output, differs, parts.1.symm, parts.2.symm⟩
    · rw [if_neg differs] at checked
      exact absurd (congrArg Prod.fst checked) Bool.false_ne_true

/-- The overlay is scaled on the conditions above; then the hook holds the output size and the
factors for it. -/
theorem check_for_scaling_true {hook after : ScalerHook} {frame : VoFrame} {window : Int × Int}
    {overlay drawn : VoOverlay}
    (checked : checkForScaling hook frame window overlay = (true, after, drawn)) :
    ScalingRequired hook frame window overlay ∧
      after.size = detectOutputSize hook.unscaledSupported frame window overlay ∧
      after.factorX = outputFactor after.outputWidth drawn.extra.extentWidth ∧
      after.factorY = outputFactor after.outputHeight drawn.extra.extentHeight := by
  rw [checkForScaling] at checked
  split_ifs at checked with enabled drawn' indexed fromVdr wanted here extent
  case neg =>
    obtain ⟨output, differs, rfl, rfl⟩ := check_output_true checked
    refine ⟨?_, rfl, rfl, rfl⟩
    exact {
      enabled := by simpa using enabled
      drawn := by simpa [Option.ne_none_iff_isSome] using drawn'
      indexed := by simpa using indexed
      fromVdr := not_not.mp fromVdr
      wanted
      here := by simpa using here
      extent
      output
      differs }
  all_goals exact absurd (congrArg Prod.fst checked) Bool.false_ne_true

theorem check_output_scales {hook : ScalerHook} {overlay : VoOverlay}
    (output : ¬(hook.outputWidth < 128 ∨ hook.outputHeight < 128))
    (differs : farFrom hook.outputWidth overlay.extra.extentWidth = true ∨
      farFrom hook.outputHeight overlay.extra.extentHeight = true) :
    (checkOutput hook overlay).1 = true := by
  rw [checkOutput, if_neg output, if_pos differs]

theorem check_for_scaling_iff (hook : ScalerHook) (frame : VoFrame) (window : Int × Int)
    (overlay : VoOverlay) :
    (checkForScaling hook frame window overlay).1 = true ↔
      ScalingRequired hook frame window overlay := by
  constructor
  · intro answer
    exact (check_for_scaling_true (Prod.ext answer rfl)).1
  · rintro ⟨enabled, drawn, indexed, fromVdr, wanted, here, extent, output, differs⟩
    have present : ¬overlay.rle.isNone = true := by
      rw [Option.isNone_iff_eq_none]
      exact Option.isSome_iff_ne_none.mp drawn
    rw [checkForScaling, if_neg (by simp [enabled]), if_neg present, if_neg (by simp [indexed]),
      if_neg (not_not.mpr fromVdr), if_neg wanted, if_neg (by simp [here]), if_neg extent]
    exact check_output_scales output differs

/-! ## The invariant -/

/-- Between two calls. What is lost is not in any list. -/
structure CacheInvariant (hook : ScalerHook) (lost : List ScalerBlock) : Prop where
  oneEach : (hook.activeOsds.map ScalerOsdData.source).Nodup
  scaled : ∀ data ∈ hook.activeOsds, data.scaled = true
  sized : ∀ data ∈ hook.activeOsds, ScaledFor data data.size
  account : hook.heap.Accounts (hook.activeOsds.flatMap ScalerOsdData.blocks) lost
  fresh : ∀ block ∈ hook.heap.taken, block.number < hook.copies

variable {hook after : ScalerHook} {lost : List ScalerBlock} {source : Nat}

theorem cache_invariant_init : CacheInvariant osdscalerInit [] where
  oneEach := List.nodup_nil
  scaled := by
    intro data member
    cases member
  sized := by
    intro data member
    cases member
  account := Ledger.accounts_nil
  fresh := by
    intro block member
    cases member

namespace CacheInvariant

theorem of_sublist {lost' : List ScalerBlock} (invariant : CacheInvariant hook lost)
    (part : after.activeOsds.Sublist hook.activeOsds)
    (account : after.heap.Accounts (after.activeOsds.flatMap ScalerOsdData.blocks) lost')
    (taken : after.heap.taken = hook.heap.taken) (copies : after.copies = hook.copies) :
    CacheInvariant after lost' where
  oneEach := invariant.oneEach.sublist (part.map _)
  scaled := by
    intro data member
    exact invariant.scaled data (part.subset member)
  sized := by
    intro data member
    exact invariant.sized data (part.subset member)
  account
  fresh := by
    rw [taken, copies]
    exact invariant.fresh

theorem congr (invariant : CacheInvariant hook lost) (same : SameCache after hook) :
    CacheInvariant after lost := by
  apply invariant.of_sublist (same.osds ▸ List.Sublist.refl _) _ (congrArg _ same.heap) same.copies
  rw [same.osds, same.heap]
  exact invariant.account

theorem front_numbers {front back : List ScalerOsdData} {data : ScalerOsdData}
    (invariant : CacheInvariant hook lost) (split : hook.activeOsds = front ++ data :: back) :
    ∀ other ∈ front, other.number ≠ data.number := by
  intro other member same
  have once := invariant.account.held_nodup
  rw [split, List.flatMap_append] at once
  refine @List.disjoint_of_nodup_append _ _ _ once (.data other.number) ?_ ?_
  · exact List.mem_flatMap.mpr ⟨other, member, by simp [ScalerOsdData.blocks]⟩
  · exact List.mem_flatMap.mpr ⟨data, List.mem_cons_self, by simp [ScalerOsdData.blocks, same]⟩

theorem remove {front back : List ScalerOsdData} {data : ScalerOsdData}
    (invariant : CacheInvariant hook lost) (split : hook.activeOsds = front ++ data :: back) :
    CacheInvariant { hook with
      activeOsds := front ++ back
      heap := hook.heap.giveBack [.data data.number] } ([.rle data.number] ++ lost) := by
  have part : (front ++ back).Sublist hook.activeOsds := by
    rw [split]
    exact (List.sublist_cons_self data back).append_left front
  have moved : (hook.activeOsds.flatMap ScalerOsdData.blocks).Perm
      ([.data data.number] ++ ([.rle data.number] ++
        (front ++ back).flatMap ScalerOsdData.blocks)) := by
    have first : hook.activeOsds.Perm (data :: (front ++ back)) := by
      rw [split]
      exact List.perm_middle
    refine (first.flatMap_right _).trans ?_
    exact List.Perm.swap _ _ _
  exact invariant.of_sublist part (invariant.account.perm moved).give_back.lose rfl rfl

theorem add {overlay : VoOverlay} (invariant : CacheInvariant hook lost)
    (absent : source ∉ hook.activeOsds.map ScalerOsdData.source)
    (factorX : hook.factorX = outputFactor hook.outputWidth overlay.extra.extentWidth)
    (factorY : hook.factorY = outputFactor hook.outputHeight overlay.extra.extentHeight) :
    CacheInvariant (addScaled hook source overlay).2 lost ∧
      ScaledFor (addScaled hook source overlay).1 hook.size := by
  have made : ScaledFor (addScaled hook source overlay).1 hook.size := by
    refine ⟨rfl, overlay, ?_⟩
    show scaledOverlay overlay hook.factorX hook.factorY = _
    rw [factorX, factorY]
    rfl
  have unused : ∀ block ∈ (addScaled hook source overlay).1.blocks, block ∉ hook.heap.taken := by
    intro block member taken
    have number : block.number = hook.copies := by
      rcases List.mem_pair.mp member with rfl | rfl
      · rfl
      · rfl
    exact absurd (invariant.fresh block taken) (by omega)
  refine ⟨?_, made⟩
  exact {
    oneEach := List.nodup_cons.mpr ⟨absent, invariant.oneEach⟩
    scaled := List.forall_mem_cons.mpr ⟨rfl, invariant.scaled⟩
    sized := List.forall_mem_cons.mpr ⟨made, invariant.sized⟩
    account := invariant.account.take (by simp [ScalerOsdData.blocks]) unused
    fresh := by
      intro block member
      show block.number < hook.copies + 1
      rcases List.mem_append.mp member with new | old
      · rcases List.mem_pair.mp new with rfl | rfl
        · exact Nat.lt_succ_self _
        · exact Nat.lt_succ_self _
      · exact Nat.lt_succ_of_lt (invariant.fresh block old) }

theorem clear (invariant : CacheInvariant hook lost) (osds : after.activeOsds = [])
    (heap : after.heap = hook.heap.giveBack (osdDataClear hook.activeOsds))
    (copies : after.copies = hook.copies) : CacheInvariant after lost := by
  have taken : after.heap.taken = hook.heap.taken := by
    rw [heap]
    rfl
  apply invariant.of_sublist (osds ▸ List.nil_sublist _) _ taken copies
  rw [osds, heap, osd_data_clear_eq invariant.scaled]
  apply Ledger.Accounts.give_back
  rw [List.flatMap_nil, List.append_nil]
  exact invariant.account

end CacheInvariant

/-! ## One call -/

/-- The copy that is found is of the right size; where there is none, one of another size has
been removed. -/
theorem find_scaled_cases (invariant : CacheInvariant hook lost) (source : Nat) :
    (∃ scaled, findScaled hook source = (some scaled, hook) ∧ ScaledFor scaled hook.size ∧
      ¬Outdated hook.activeOsds source hook.size) ∨
    (∃ osds heap more, findScaled hook source = (none, { hook with activeOsds := osds, heap }) ∧
      CacheInvariant { hook with activeOsds := osds, heap } (more ++ lost) ∧
      source ∉ osds.map ScalerOsdData.source ∧
      (more = [] ↔ ¬Outdated hook.activeOsds source hook.size)) := by
  cases found : hook.activeOsds.find? fun data => data.source = source with
  | none =>
      right
      have absent : source ∉ hook.activeOsds.map ScalerOsdData.source := by
        intro member
        obtain ⟨data, listed, same⟩ := List.mem_map.mp member
        exact List.find?_eq_none.mp found data listed (by simpa using same)
      refine ⟨hook.activeOsds, hook.heap, [], ?_, invariant, absent, ?_⟩
      · rw [findScaled, found]
      · refine iff_of_true rfl ?_
        rintro ⟨data, listed, same, -⟩
        exact absent (List.mem_map.mpr ⟨data, listed, same⟩)
  | some scaled =>
      obtain ⟨same, front, back, split, before⟩ := List.find?_eq_some_iff_append.mp found
      have same : scaled.source = source := by simpa using same
      have listed : scaled ∈ hook.activeOsds := List.mem_of_find?_eq_some found
      by_cases differs : scaled.outputWidth ≠ hook.outputWidth ∨
          scaled.outputHeight ≠ hook.outputHeight
      · right
        have outdated : Outdated hook.activeOsds source hook.size := by
          refine ⟨scaled, listed, same, ?_⟩
          intro equal
          have parts := Prod.mk.inj equal
          exact differs.elim (fun width => width parts.1) fun height => height parts.2
        have absent : source ∉ (front ++ back).map ScalerOsdData.source := by
          have once := invariant.oneEach
          rw [split, List.map_append, List.map_cons, same, List.nodup_middle,
            ← List.map_append] at once
          exact (List.nodup_cons.mp once).1
        refine ⟨front ++ back, hook.heap.giveBack [.data scaled.number], [.rle scaled.number], ?_,
          invariant.remove split, absent, ?_⟩
        · have removed : osdDataRemove scaled.number hook.activeOsds =
              (front ++ back, [.data scaled.number]) := by
            rw [split]
            exact osd_data_remove_split (invariant.front_numbers split)
          rw [findScaled, found]
          dsimp only
          rw [if_pos differs, removed]
        · exact iff_of_false (List.cons_ne_nil _ _) (not_not.mpr outdated)
      · left
        have right : scaled.size = hook.size := by
          rw [not_or, not_not, not_not] at differs
          exact Prod.ext differs.1 differs.2
        refine ⟨scaled, ?_, right ▸ invariant.sized scaled listed, ?_⟩
        · rw [findScaled, found]
          dsimp only
          rw [if_neg differs]
        · rintro ⟨data, member, other, unlike⟩
          have equal : data = scaled :=
            List.inj_on_of_nodup_map invariant.oneEach member listed (other.trans same.symm)
          exact unlike (equal ▸ right)

/-- A blended overlay: what is handed on is of the output size, and something is lost if a copy
is replaced. -/
theorem scale_overlay_step (invariant : CacheInvariant hook lost) (frame : VoFrame)
    (window : Int × Int) (source : Nat) (overlay : VoOverlay) :
    (∃ more, CacheInvariant (scaleOverlay hook frame window source overlay).2 (more ++ lost) ∧
      (more = [] ↔ ¬Replaces hook (.overlayBlend frame window source overlay))) ∧
    ∀ data, (scaleOverlay hook frame window source overlay).1 = .scaled data →
      ScaledFor data (detectOutputSize hook.unscaledSupported frame window overlay) := by
  have required := check_for_scaling_iff hook frame window overlay
  have same := check_for_scaling_kept hook frame window overlay
  have kept := invariant.congr same
  rcases checked : checkForScaling hook frame window overlay with ⟨answer, next, drawn⟩
  rw [checked] at required same kept
  cases answer with
  | false =>
      have done : scaleOverlay hook frame window source overlay = (.original drawn, next) := by
        rw [scaleOverlay, checked]
      rw [done]
      refine ⟨⟨[], kept, iff_of_true rfl ?_⟩, ?_⟩
      · intro replaces
        exact Bool.noConfusion (required.mpr replaces.1)
      · intro data handed
        cases handed
  | true =>
      obtain ⟨needed, size, factorX, factorY⟩ := check_for_scaling_true checked
      have replaces : Replaces hook (.overlayBlend frame window source overlay) ↔
          Outdated next.activeOsds source next.size := by
        rw [Replaces, size, same.osds]
        exact and_iff_right needed
      rw [replaces, ← size]
      rcases find_scaled_cases kept source with
        ⟨scaled, found, sized, current⟩ | ⟨rest, heap, more, found, removed, absent, lostMore⟩
      · have done : scaleOverlay hook frame window source overlay = (.scaled scaled, next) := by
          rw [scaleOverlay, checked]
          dsimp only
          rw [found]
        rw [done]
        refine ⟨⟨[], kept, iff_of_true rfl current⟩, ?_⟩
        intro data handed
        cases handed
        exact sized
      · obtain ⟨added, sized⟩ := @CacheInvariant.add _ _ _ drawn removed absent factorX factorY
        have done : scaleOverlay hook frame window source overlay =
            (.scaled (addScaled { next with activeOsds := rest, heap } source drawn).1,
              (addScaled { next with activeOsds := rest, heap } source drawn).2) := by
          rw [scaleOverlay, checked]
          dsimp only
          rw [found]
        rw [done]
        refine ⟨⟨more, added, lostMore⟩, ?_⟩
        intro data handed
        cases handed
        exact sized

theorem scaler_call_step (invariant : CacheInvariant hook lost) (call : ScalerCall) :
    ∃ more, CacheInvariant (scalerCall hook call) (more ++ lost) ∧
      (more = [] ↔ ¬Replaces hook call) := by
  cases call with
  | overlayBegin changed unscaledOverlay customExtent =>
      refine ⟨[], ?_, iff_of_true rfl not_false⟩
      cases changed with
      | false => exact invariant
      | true => exact invariant.clear rfl rfl rfl
  | overlayBlend frame window source overlay =>
      exact (scale_overlay_step invariant frame window source overlay).1
  | setProperty val =>
      refine ⟨[], ?_, iff_of_true rfl not_false⟩
      rw [scalerCall, osdscalerSetProperty]
      by_cases differs : (if hook.enable then 1 else 0) ≠ val
      · rw [if_pos differs]
        exact invariant.congr ⟨rfl, rfl, rfl⟩
      · rw [if_neg differs]
        exact invariant

/-! ## A run -/

theorem scaler_calls_invariant (calls : List ScalerCall) :
    ∃ lost, CacheInvariant (scalerCalls calls) lost ∧
      (lost = [] ↔ EachAfter (fun before call => ¬Replaces (scalerCalls before) call) calls) := by
  induction calls using List.reverseRecOn with
  | nil => exact ⟨[], cache_invariant_init, iff_of_true rfl (each_after_nil _)⟩
  | append_singleton calls call ih =>
      obtain ⟨lost, invariant, nothing⟩ := ih
      obtain ⟨more, preserved, noMore⟩ := scaler_call_step invariant call
      refine ⟨more ++ lost, ?_, ?_⟩
      · rw [scalerCalls, List.foldl_append]
        exact preserved
      · rw [each_after_snoc, List.append_eq_nil_iff, nothing, noMore, and_comm]

/-- What holds between two calls. -/
structure CacheInOrder (hook : ScalerHook) : Prop where
  oneEach : (hook.activeOsds.map ScalerOsdData.source).Nodup
  handed : ∀ (frame : VoFrame) (window : Int × Int) (source : Nat) (overlay : VoOverlay)
    (data : ScalerOsdData), (scaleOverlay hook frame window source overlay).1 = .scaled data →
      ScaledFor data (detectOutputSize hook.unscaledSupported frame window overlay)
  alive : ∀ data ∈ hook.activeOsds, ∀ block ∈ data.blocks,
    block ∈ hook.heap.taken ∧ block ∉ hook.heap.returned
  freedOnce : hook.heap.returned.Nodup

theorem CacheInvariant.in_order (invariant : CacheInvariant hook lost) : CacheInOrder hook where
  oneEach := invariant.oneEach
  handed := by
    intro frame window source overlay
    exact (scale_overlay_step invariant frame window source overlay).2
  alive := by
    intro data listed block member
    have held : block ∈ hook.activeOsds.flatMap ScalerOsdData.blocks :=
      List.mem_flatMap.mpr ⟨data, listed, member⟩
    exact ⟨invariant.account.held_taken held, invariant.account.held_not_returned held⟩
  freedOnce := invariant.account.returned_nodup

def FreesAll (heap : Ledger ScalerBlock) : Prop :=
  (∀ block ∈ heap.taken, heap.returned.count block = 1) ∧
    ∀ block ∈ heap.returned, block ∈ heap.taken

theorem CacheInvariant.dispose (invariant : CacheInvariant hook lost) :
    FreesAll (osdscalerDispose hook) ↔ lost = [] := by
  have account : (osdscalerDispose hook).Accounts [] lost := by
    rw [osdscalerDispose, osd_data_clear_eq invariant.scaled]
    apply Ledger.Accounts.give_back
    rw [List.append_nil]
    exact invariant.account
  rw [FreesAll, account.returned_once_iff]
  refine and_iff_left ?_
  intro block member
  exact account.returned_taken member

/-- The copies are in order in every run, and all memory is freed in the end exactly if no call
replaces a copy. -/
theorem scaler_cache_kept (calls : List ScalerCall) :
    ((∀ count ≤ calls.length, CacheInOrder (scalerCalls (calls.take count))) ∧
      FreesAll (osdscalerDispose (scalerCalls calls))) ↔
    EachAfter (fun before call => ¬Replaces (scalerCalls before) call) calls := by
  obtain ⟨lost, invariant, nothing⟩ := scaler_calls_invariant calls
  rw [invariant.dispose, nothing]
  refine and_iff_right ?_
  intro count _
  obtain ⟨_, earlier, _⟩ := scaler_calls_invariant (calls.take count)
  exact earlier.in_order

def lineOverlay : VoOverlay where
  rle := some [⟨16, 1⟩]
  x := 0
  y := 0
  width := 16
  height := 1
  videoWindowX := 0
  videoWindowY := 0
  videoWindowWidth := 0
  videoWindowHeight := 0
  extentWidth := 0
  extentHeight := 0
  unscaled := false
  argbLayer := false
  hiliRgbClut := vdrOsdMagic
  extra := ⟨320, 240, 1⟩

def twoSizes : List ScalerCall :=
  [.setProperty 1, .overlayBegin true false false,
    .overlayBlend ⟨720, 576, 0, 0, 0, 0⟩ (0, 0) 1 lineOverlay,
    .overlayBegin false false false,
    .overlayBlend ⟨1280, 720, 0, 0, 0, 0⟩ (0, 0) 1 lineOverlay]

/-- The elements of the first copy are never freed. -/
theorem replaced_copy_lost : ¬FreesAll (osdscalerDispose (scalerCalls twoSizes)) := by
  intro frees
  have allocated : ScalerBlock.rle 0 ∈ (osdscalerDispose (scalerCalls twoSizes)).taken := by decide
  have once := frees.1 _ allocated
  revert once
  decide

end Xineliboutput.Osd
