import Xineliboutput.Osd.OsdStackDrawing

/-!
# The windows of all OSDs

Every open window belongs to a visible object, and what a visible object does not show is
sent with its next `Flush`. Each message keeps this, whatever the order of the objects. The
stack itself is sorted by level, the latest of one level first.
-/

namespace Xineliboutput.Osd.Stack

open Xineliboutput.Foundation

set_option autoImplicit false

/-! ## Handles of all objects -/

section Counting

variable {bitmap : BitVec 64} {arrays : Nat → Option (List Int)}

/-- The arrays of the objects behind one that belongs to none of them. -/
def withLeak (leak : Option (List Int)) (arrays : Nat → Option (List Int)) :
    Nat → Option (List Int)
  | 0 => leak
  | address + 1 => arrays address

theorem with_leak_update (leak : Option (List Int)) (arrays : Nat → Option (List Int))
    (address : Nat) (array : Option (List Int)) :
    withLeak leak (Function.update arrays address array) =
      Function.update (withLeak leak arrays) (address + 1) array := by
  funext other
  cases other with
  | zero => rw [Function.update_of_ne (Nat.succ_ne_zero address).symm]; rfl
  | succ other =>
      by_cases same : other = address
      · subst same
        rw [Function.update_self]
        exact Function.update_self _ _ _
      · rw [Function.update_of_ne fun equal => same (Nat.succ.inj equal)]
        exact Function.update_of_ne same _ _

/-- The bitmap has the handles of all objects, and perhaps the one that an allocation of no
windows took for nobody. -/
def Counted (bitmap : BitVec 64) (arrays : Nat → Option (List Int)) : Prop :=
  ∃ leak, (leak = none ∨ leak = some [0, -1]) ∧ Accounted bitmap (withLeak leak arrays)

theorem Counted.free (counted : Counted bitmap arrays) (owner : Nat) :
    Counted (freeWindowHandles bitmap (arrays owner)) (Function.update arrays owner none) := by
  rcases counted with ⟨leak, possible, accounted⟩
  have freed := accounted.free (owner + 1)
  rw [← with_leak_update] at freed
  exact ⟨leak, possible, freed⟩

theorem Counted.allot (counted : Counted bitmap arrays) {owner : Nat} {bitmap' : BitVec 64}
    {taken : List Nat} (nothing : arrays owner = none) (nodup : taken.Nodup)
    (free : ∀ index ∈ taken, index < maxOsdObject ∧ bitmap.getLsbD index = false)
    (bits : ∀ place < 64, bitmap'.getLsbD place = (bitmap.getLsbD place || decide (place ∈ taken))) :
    Counted bitmap' (Function.update arrays owner (some (handleList taken ++ [-1]))) := by
  rcases counted with ⟨leak, possible, accounted⟩
  have allotted := @Accounted.allot _ _ accounted (owner + 1) _ _ nothing nodup free bits
  rw [← with_leak_update] at allotted
  exact ⟨leak, possible, allotted⟩

theorem Counted.undo (counted : Counted bitmap arrays) {bitmap' : BitVec 64} {taken : List Nat}
    {array : List Int} (lists : listed array = handleList taken)
    (free : ∀ index ∈ taken, index < maxOsdObject ∧ bitmap.getLsbD index = false)
    (bits : ∀ place < 64, bitmap'.getLsbD place = (bitmap.getLsbD place || decide (place ∈ taken))) :
    Counted (freeWindowHandles bitmap' (some array)) arrays := by
  rcases counted with ⟨leak, possible, accounted⟩
  exact ⟨leak, possible, accounted.undo lists free bits⟩

theorem Counted.leaked (counted : Counted bitmap arrays) :
    Counted (if bitmap &&& handleBit 0 = 0 then bitmap ||| handleBit 0 else bitmap) arrays := by
  split
  · rename_i unset
    have free := (bit_free_iff bitmap (by decide : 0 < 64)).mp unset
    rcases counted with ⟨leak, rfl | rfl, accounted⟩
    · have first : ∀ index ∈ [0], index < maxOsdObject ∧ bitmap.getLsbD index = false := by
        intro index member
        rw [List.mem_singleton.mp member]
        exact ⟨by decide, free⟩
      have bits : ∀ place < 64, (bitmap ||| handleBit 0).getLsbD place =
          (bitmap.getLsbD place || decide (place ∈ [0])) := by
        intro place within
        simp [take_bit bitmap 0 within]
      have allotted := @Accounted.allot _ _ accounted 0 _ _ rfl (List.nodup_singleton 0) first bits
      apply Exists.intro (some [0, -1])
      apply And.intro (Or.inr rfl)
      have same : Function.update (withLeak none arrays) 0 (some (handleList [0] ++ [-1])) =
          withLeak (some [0, -1]) arrays := by
        funext other
        cases other with
        | zero => exact Function.update_self _ _ _
        | succ other => exact Function.update_of_ne (Nat.succ_ne_zero other) _ _
      exact same ▸ allotted
    · exact absurd (show (0 : Int) ∈ listed [0, -1] by decide)
        (@Accounted.unlisted _ _ accounted 0 (by decide) free 0 _ rfl)
  · exact counted

theorem Counted.array (counted : Counted bitmap arrays) {owner : Nat} {array : List Int}
    (held : arrays owner = some array) : array = listed array ++ [-1] ∧ (listed array).Nodup := by
  rcases counted with ⟨leak, -, accounted⟩
  exact ⟨accounted.terminated (owner + 1) array held, accounted.distinct (owner + 1) array held⟩

theorem Counted.disjoint (counted : Counted bitmap arrays) {owner other : Nat}
    (differ : owner ≠ other) {array array' : List Int} (held : arrays owner = some array)
    (held' : arrays other = some array') : ∀ handle ∈ listed array, handle ∉ listed array' := by
  rcases counted with ⟨leak, -, accounted⟩
  exact accounted.disjoint (owner + 1) (other + 1) array array'
    (fun same => differ (Nat.succ.inj same)) held held'

theorem take_length (alloc : Alloc) (index : Nat) :
    (alloc.take index).array.length = alloc.array.length := by
  unfold Alloc.take
  split
  · exact List.length_set
  · rfl

theorem alloc_loop_length (numWindows : Nat) (indices : List Nat) (alloc : Alloc) :
    (allocLoop numWindows indices alloc).array.length = alloc.array.length := by
  induction indices generalizing alloc with
  | nil => rfl
  | cons index indices ih =>
      rw [allocLoop]
      split
      · exact take_length alloc index
      · exact (ih _).trans (take_length alloc index)

theorem pad_array_length (count : Nat) (array : List Int) (wnd : Nat) :
    (padArray array wnd count).length = array.length := by
  induction count generalizing array wnd with
  | zero => rfl
  | succ count ih => exact (ih _ _).trans List.length_set

theorem allocated_length (bitmap : BitVec 64) (handles : Option (List Int)) (numWindows : Nat)
    (fresh : Nat → Int) :
    (allocWindowHandles bitmap handles numWindows fresh).2.1.length = numWindows + 1 := by
  simp only [allocWindowHandles]
  split
  · rw [pad_array_length, List.length_set, alloc_loop_length]
    simp
  · rw [List.length_set, alloc_loop_length]
    simp

end Counting

/-! ## Housing -/

namespace Provider

def arrays (provider : Provider) (address : Nat) : Option (List Int) :=
  (provider.objects address).bind fun this => this.window.windowHandles

/-- The windows of the objects, whatever their order in the stack. -/
structure Housed (setting : Setting) (provider : Provider) : Prop where
  counted : Counted provider.handlesBitmap provider.arrays
  ready : ∀ address this, provider.objects address = some this →
    Ready this ∧ this.window.refresh = false
  opened : ∀ wnd, provider.screen wnd ≠ none → ∃ address this,
    provider.objects address = some this ∧ this.window.isVisible = true ∧ wnd ∈ this.handles
  tracked : ∀ address this, provider.objects address = some this →
    this.window.isVisible = true → this.window.windowHandles ≠ none →
    Tracked setting provider.screen this
  owned : ∀ sent ∈ provider.sent, sent.message.Uses sent.handles

variable {setting : Setting} {answers : Answers} {provider : Provider}

theorem arrays_of {address : Nat} {this : XinelibOsd} (held : provider.objects address = some this) :
    provider.arrays address = this.window.windowHandles := by
  rw [arrays, held, Option.bind_some]

theorem arrays_update (provider : Provider) (address : Nat) (object : Option XinelibOsd) :
    (fun other => (Function.update provider.objects address object other).bind
      fun this => this.window.windowHandles) =
      Function.update provider.arrays address (object.bind fun this => this.window.windowHandles) := by
  funext other
  by_cases same : other = address
  · rw [same, Function.update_self, Function.update_self]
  · rw [Function.update_of_ne same, Function.update_of_ne same]
    rfl

theorem found_update {objects : Nat → Option XinelibOsd} {address other : Nat}
    {object : Option XinelibOsd} {that : XinelibOsd}
    (found : Function.update objects address object other = some that) :
    other = address ∧ object = some that ∨ other ≠ address ∧ objects other = some that := by
  by_cases same : other = address
  · rw [same, Function.update_self] at found
    exact .inl ⟨same, found⟩
  · rw [Function.update_of_ne same] at found
    exact .inr ⟨same, found⟩

theorem mem_handles {this : XinelibOsd} {wnd : Int} (member : wnd ∈ this.handles) :
    ∃ array, this.window.windowHandles = some array ∧ wnd ∈ listed array := by
  unfold XinelibOsd.handles at member
  cases held : this.window.windowHandles with
  | none =>
      rw [held] at member
      cases member
  | some array =>
      rw [held] at member
      exact ⟨array, rfl, member⟩

theorem Housed.disjoint (housed : Housed setting provider) {address other : Nat}
    (differ : address ≠ other) {this that : XinelibOsd}
    (held : provider.objects address = some this) (held' : provider.objects other = some that)
    {wnd : Int} (member : wnd ∈ this.handles) : wnd ∉ that.handles := by
  intro shared
  rcases mem_handles member with ⟨array, owns, lists⟩
  rcases mem_handles shared with ⟨array', owns', lists'⟩
  exact housed.counted.disjoint differ ((arrays_of held).trans owns) ((arrays_of held').trans owns')
    wnd lists lists'

theorem Housed.hidden_closed (housed : Housed setting provider) {address : Nat} {this : XinelibOsd}
    (held : provider.objects address = some this) (hidden : this.window.isVisible = false)
    {wnd : Int} (own : wnd ∈ this.handles) : provider.screen wnd = none := by
  by_contra shown
  rcases housed.opened wnd shown with ⟨other, that, found, seen, member⟩
  by_cases same : address = other
  · subst same
    rw [held] at found
    cases found
    rw [hidden] at seen
    cases seen
  · exact housed.disjoint same held found own member

theorem screen_send (provider : Provider) (this : XinelibOsd) (messages : List OsdMessage) :
    (provider.send this messages).screen = provider.screen.receiveAll messages := by
  have same : (provider.send this messages).sent.map Sent.message =
      provider.sent.map Sent.message ++ messages := by
    rw [send, List.map_append, List.map_map]
    congr 1
    exact List.map_id messages
  rw [screen, same, receive_all_append]
  rfl

theorem owned_send {this : XinelibOsd} {messages : List OsdMessage}
    (owned : ∀ sent ∈ provider.sent, sent.message.Uses sent.handles)
    (uses : ∀ message ∈ messages, message.Uses this.handles) :
    ∀ sent ∈ (provider.send this messages).sent, sent.message.Uses sent.handles := by
  intro sent member
  rcases List.mem_append.mp member with before | now
  · exact owned sent before
  · rcases List.mem_map.mp now with ⟨message, there, rfl⟩
    exact uses message there

/-! ## Messages -/

theorem objects_tell (provider : Provider) (address : Nat)
    (message : XinelibOsd → XinelibOsd × List OsdMessage) (other : Nat) :
    (provider.tell address message).objects other =
      if other = address then (provider.objects address).map fun this => (message this).1
      else provider.objects other := by
  unfold tell
  cases held : provider.objects address with
  | none =>
      dsimp only
      split
      · rename_i same
        rw [same, held]
        rfl
      · rfl
  | some this =>
      show Function.update provider.objects address _ other = _
      split
      · rename_i same
        rw [same, Function.update_self]
        rfl
      · rename_i differ
        exact Function.update_of_ne differ _ _

theorem tell_of {address : Nat} {this : XinelibOsd} (held : provider.objects address = some this)
    (message : XinelibOsd → XinelibOsd × List OsdMessage) :
    provider.tell address message =
      (provider.send this (message this).2).put address (message this).1 := by
  unfold tell
  rw [held]

theorem Housed.tell (housed : Housed setting provider) {address : Nat}
    {message : XinelibOsd → XinelibOsd × List OsdMessage}
    (behaves : ∀ this, provider.objects address = some this →
      Behaves setting this (message this).1 (message this).2) :
    Housed setting (provider.tell address message) := by
  cases held : provider.objects address with
  | none =>
      have same : provider.tell address message = provider := by
        unfold Provider.tell
        rw [held]
      exact same.symm ▸ housed
  | some this =>
      have behavior := behaves this held
      have ready := housed.ready address this held
      have objects : ∀ other that, (provider.tell address message).objects other = some that →
          other = address ∧ that = (message this).1 ∨
            other ≠ address ∧ provider.objects other = some that := by
        intro other that found
        rw [objects_tell, held] at found
        split at found
        · rename_i same
          exact .inl ⟨same, (Option.some.inj found).symm⟩
        · rename_i differ
          exact .inr ⟨differ, found⟩
      have screen : (provider.tell address message).screen =
          provider.screen.receiveAll (message this).2 := by
        rw [tell_of held]
        exact screen_send provider this _
      have handles : (message this).1.handles = this.handles := by
        rw [XinelibOsd.handles, behavior.handles]
        rfl
      constructor
      case counted =>
        have same : (provider.tell address message).arrays = provider.arrays := by
          funext other
          unfold arrays
          rw [objects_tell, held]
          split
          · rename_i same
            rw [same, held]
            exact behavior.handles
          · rfl
        rw [same, tell_of held]
        exact housed.counted
      case ready =>
        intro other that found
        rcases objects other that found with ⟨rfl, rfl⟩ | ⟨-, found⟩
        · exact ⟨behavior.ready, behavior.settled⟩
        · exact housed.ready other that found
      case opened =>
        intro wnd shown
        rw [screen] at shown
        by_cases own : wnd ∈ this.handles
        · cases visible : (message this).1.window.isVisible with
          | true =>
              refine ⟨address, (message this).1, ?_, visible, handles.symm ▸ own⟩
              rw [objects_tell, if_pos rfl, held]
              rfl
          | false =>
              rcases behavior.closes visible provider.screen wnd own shown with ⟨hidden, before⟩
              exact absurd (housed.hidden_closed held hidden own) before
        · rw [receive_all_elsewhere behavior.uses own] at shown
          rcases housed.opened wnd shown with ⟨other, that, found, seen, member⟩
          have differ : other ≠ address := by
            intro same
            rw [same, held] at found
            cases found
            exact own member
          refine ⟨other, that, ?_, seen, member⟩
          rw [objects_tell, if_neg differ, found]
      case tracked =>
        intro other that found visible equipped
        rw [screen]
        rcases objects other that found with ⟨rfl, rfl⟩ | ⟨differ, found⟩
        · exact behavior.tracks visible equipped provider.screen fun seen has =>
            housed.tracked other this held seen has
        · have kept := housed.tracked other that found visible equipped
          apply kept.elsewhere _ (housed.ready other that found).1.equipped
            fun nothing => absurd nothing equipped
          intro wnd member
          exact receive_all_elsewhere behavior.uses (housed.disjoint differ found held member)
      case owned =>
        rw [tell_of held]
        exact owned_send housed.owned behavior.uses

theorem stack_tell (provider : Provider) (address : Nat)
    (message : XinelibOsd → XinelibOsd × List OsdMessage) :
    (provider.tell address message).osdStack = provider.osdStack ∧
      (provider.tell address message).created = provider.created := by
  unfold tell
  cases provider.objects address with
  | none => exact ⟨rfl, rfl⟩
  | some this => exact ⟨rfl, rfl⟩

theorem stack_tell_all (addresses : List Nat)
    (message : XinelibOsd → XinelibOsd × List OsdMessage) (provider : Provider) :
    (provider.tellAll addresses message).osdStack = provider.osdStack ∧
      (provider.tellAll addresses message).created = provider.created := by
  induction addresses generalizing provider with
  | nil => exact ⟨rfl, rfl⟩
  | cons address addresses ih =>
      have first := stack_tell provider address message
      have rest := ih (provider.tell address message)
      exact ⟨rest.1.trans first.1, rest.2.trans first.2⟩

theorem objects_tell_all {addresses : List Nat} (nodup : addresses.Nodup)
    (message : XinelibOsd → XinelibOsd × List OsdMessage) (provider : Provider) (other : Nat) :
    (provider.tellAll addresses message).objects other =
      if other ∈ addresses then (provider.objects other).map fun this => (message this).1
      else provider.objects other := by
  induction addresses generalizing provider with
  | nil => rfl
  | cons address addresses ih =>
      rcases List.nodup_cons.mp nodup with ⟨apart, nodup⟩
      have onward : (provider.tellAll (address :: addresses) message).objects other =
          ((provider.tell address message).tellAll addresses message).objects other := rfl
      rw [onward, ih nodup, objects_tell]
      by_cases same : other = address
      · subst same
        rw [if_neg apart, if_pos rfl, if_pos List.mem_cons_self]
      · by_cases later : other ∈ addresses
        · rw [if_pos later, if_neg same, if_pos (List.mem_cons_of_mem _ later)]
        · have absent : other ∉ address :: addresses := by
            intro member
            rcases List.mem_cons.mp member with first | rest
            · exact same first
            · exact later rest
          rw [if_neg later, if_neg same, if_neg absent]

theorem Housed.tell_all (housed : Housed setting provider) {addresses : List Nat}
    (nodup : addresses.Nodup) {message : XinelibOsd → XinelibOsd × List OsdMessage}
    (behaves : ∀ address ∈ addresses, ∀ this, provider.objects address = some this →
      Behaves setting this (message this).1 (message this).2) :
    Housed setting (provider.tellAll addresses message) := by
  induction addresses generalizing provider with
  | nil => exact housed
  | cons address addresses ih =>
      rcases List.nodup_cons.mp nodup with ⟨apart, nodup⟩
      have told := housed.tell (behaves address List.mem_cons_self)
      apply ih told nodup
      intro other member this held
      have differ : other ≠ address := fun same => apart (same ▸ member)
      rw [objects_tell, if_neg differ] at held
      exact behaves other (List.mem_cons_of_mem _ member) this held

/-! ## The order of the stack -/

def rank (provider : Provider) (address : Nat) : Option (Nat × Nat) :=
  (provider.objects address).map fun this => (this.window.layer, this.serial)

/-- The first object has a lower level, or the same and is later. -/
def Above (rank : Nat → Option (Nat × Nat)) (first second : Nat) : Prop :=
  ∃ upper lower, rank first = some upper ∧ rank second = some lower ∧
    (upper.1 < lower.1 ∨ upper.1 = lower.1 ∧ lower.2 < upper.2)

structure Arranged (rank : Nat → Option (Nat × Nat)) (osdStack : List Nat) (created : Nat) :
    Prop where
  sorted : osdStack.Pairwise (Above rank)
  listed : ∀ address, address ∈ osdStack ↔ rank address ≠ none
  recent : ∀ address place, rank address = some place → place.2 < created

variable {ranks : Nat → Option (Nat × Nat)} {osdStack : List Nat} {created : Nat}

theorem Above.differ {first second : Nat} (above : Above ranks first second) : first ≠ second := by
  rintro rfl
  rcases above with ⟨upper, lower, one, other, order⟩
  cases one.symm.trans other
  omega

theorem Arranged.nodup (arranged : Arranged ranks osdStack created) : osdStack.Nodup :=
  arranged.sorted.imp Above.differ

theorem Above.update {first second address : Nat} {place : Option (Nat × Nat)}
    (above : Above ranks first second) (one : first ≠ address) (other : second ≠ address) :
    Above (Function.update ranks address place) first second := by
  rcases above with ⟨upper, lower, held, held', order⟩
  refine ⟨upper, lower, ?_, ?_, order⟩
  · rw [Function.update_of_ne one, held]
  · rw [Function.update_of_ne other, held']

theorem Arranged.remove (arranged : Arranged ranks osdStack created) (address : Nat) :
    Arranged (Function.update ranks address none) (osdStack.erase address) created := by
  have member : ∀ other, other ∈ osdStack.erase address ↔ other ≠ address ∧ other ∈ osdStack :=
    fun other => arranged.nodup.mem_erase_iff
  constructor
  case sorted =>
    have kept := arranged.sorted.sublist (List.erase_sublist (a := address))
    apply kept.imp_of_mem
    intro first second one other above
    exact above.update ((member first).mp one).1 ((member second).mp other).1
  case listed =>
    intro other
    rw [member, arranged.listed]
    by_cases same : other = address
    · simp [same]
    · simp [same]
  case recent =>
    intro other place held
    by_cases same : other = address
    · rw [same, Function.update_self] at held
      cases held
    · rw [Function.update_of_ne same] at held
      exact arranged.recent other place held

theorem mem_insert_sorted (provider : Provider) (address level : Nat) (list : List Nat)
    (other : Nat) :
    other ∈ provider.insertSorted address level list ↔ other = address ∨ other ∈ list := by
  induction list with
  | nil => simp [insertSorted]
  | cons it list ih =>
      unfold insertSorted
      split
      · exact List.mem_cons
      · rw [List.mem_cons, ih, List.mem_cons]
        exact or_left_comm

theorem level_of_rank {address : Nat} {place : Nat × Nat}
    (held : provider.rank address = some place) : provider.levelOf address = place.1 := by
  rcases Option.map_eq_some_iff.mp held with ⟨this, found, rfl⟩
  rw [levelOf, found, Option.elim_some]

theorem insert_sorted_sorted {address level : Nat} {list : List Nat}
    (new : ranks address = some (level, created)) (sorted : list.Pairwise (Above ranks))
    (placed : ∀ it ∈ list, ∃ place, ranks it = some place ∧ place.1 = provider.levelOf it ∧
      place.2 < created) :
    (provider.insertSorted address level list).Pairwise (Above ranks) := by
  induction list with
  | nil => exact List.pairwise_singleton _ _
  | cons it list ih =>
      rcases List.pairwise_cons.mp sorted with ⟨above, sorted⟩
      rcases placed it List.mem_cons_self with ⟨place, held, levels, before⟩
      unfold insertSorted
      split
      · rename_i low
        apply List.Pairwise.cons _ (List.Pairwise.cons above sorted)
        intro other member
        rcases List.mem_cons.mp member with rfl | later
        · refine ⟨(level, created), place, new, held, ?_⟩
          dsimp only
          omega
        · rcases placed other (List.mem_cons_of_mem _ later) with ⟨lower, held', -, before'⟩
          rcases above other later with ⟨upper, lower', one, two, order⟩
          cases held.symm.trans one
          cases held'.symm.trans two
          refine ⟨(level, created), lower, new, held', ?_⟩
          dsimp only
          omega
      · rename_i high
        apply List.Pairwise.cons
        · intro other member
          rcases (mem_insert_sorted provider address level list other).mp member with rfl | later
          · refine ⟨place, (level, created), held, new, ?_⟩
            dsimp only
            omega
          · exact above other later
        · exact ih sorted fun other member => placed other (List.mem_cons_of_mem _ member)

theorem Arranged.insert (arranged : Arranged provider.rank provider.osdStack provider.created)
    {address : Nat} (vacant : provider.rank address = none) (level : Nat) :
    Arranged (Function.update provider.rank address (some (level, provider.created)))
      (provider.insertSorted address level provider.osdStack) (provider.created + 1) := by
  have apart : ∀ other ∈ provider.osdStack, other ≠ address := by
    rintro other member rfl
    exact (arranged.listed other).mp member vacant
  constructor
  case sorted =>
    apply insert_sorted_sorted (Function.update_self _ _ _)
    · exact arranged.sorted.imp_of_mem fun one other above =>
        above.update (apart _ one) (apart _ other)
    · intro other member
      cases held : provider.rank other with
      | none => exact absurd held ((arranged.listed other).mp member)
      | some place =>
          refine ⟨place, ?_, (level_of_rank held).symm, arranged.recent other place held⟩
          rw [Function.update_of_ne (apart other member), held]
  case listed =>
    intro other
    rw [mem_insert_sorted, arranged.listed]
    by_cases same : other = address
    · simp [same]
    · simp [same]
  case recent =>
    intro other place held
    by_cases same : other = address
    · rw [same, Function.update_self] at held
      cases held
      exact Nat.lt_succ_self _
    · rw [Function.update_of_ne same] at held
      exact Nat.lt_succ_of_lt (arranged.recent other place held)

theorem insert_sorted_head {address level first : Nat} {list : List Nat}
    (head : (provider.insertSorted address level list).head? = some first) :
    first = address ∨ list.head? = some first ∧ provider.levelOf first < level := by
  cases list with
  | nil => exact .inl (Option.some.inj head).symm
  | cons it list =>
      unfold insertSorted at head
      split at head
      · exact .inl (Option.some.inj head).symm
      · rename_i high
        cases head
        exact .inr ⟨rfl, Nat.lt_of_not_le high⟩

end Provider
end Xineliboutput.Osd.Stack
