import Xineliboutput.Osd.OsdStackHousing

/-!
# Runs on the stack of OSDs

In every run the stack stays sorted with its first object visible, whose windows are the
only open ones, as long as no object without window handles is flushed and no true-colour
OSD is shown again before the whole of it is dirty. `Refresh` closes the windows and sends
bitmaps again; of the pixmaps it sends what is dirty.
-/

namespace Xineliboutput.Osd.Stack

open Xineliboutput.Foundation
open Provider

set_option autoImplicit false

/-! ## What is to hold -/

/-- After every step: the order of the stack, the visible object, the open windows and the
use of handles. -/
structure Lawful (provider : Provider) : Prop where
  sorted : provider.osdStack.Pairwise (Above provider.rank)
  listed : ∀ address, address ∈ provider.osdStack ↔ provider.objects address ≠ none
  visible : ∀ address this, provider.objects address = some this →
    (this.window.isVisible = true ↔ provider.osdStack.head? = some address)
  opened : ∀ wnd, provider.screen wnd ≠ none → ∃ first this,
    provider.osdStack.head? = some first ∧ provider.objects first = some this ∧ wnd ∈ this.handles
  owned : ∀ sent ∈ provider.sent, sent.message.Uses sent.handles

/-- The windows of the first object show its complete content. -/
def FirstShown (setting : Setting) (provider : Provider) : Prop :=
  ∀ first this, provider.osdStack.head? = some first → provider.objects first = some this →
    Shown setting provider.screen this

def DrawsFirst (provider : Provider) : Operation → Prop
  | .flush address => provider.osdStack.head? = some address
  | .createOsd _ _ _ _ | .refreshOsd | .destroy _ => True
  | .setAreas _ _ _ _ _ _ | .draw _ _ => False

/-- The object that is flushed has handles for what it shows. One that is shown again and is
a true-colour OSD is dirty all over. -/
def Careful (provider : Provider) : Operation → Prop
  | .createOsd _ _ _ level => ∀ first this, provider.osdStack.head? = some first →
      provider.objects first = some this → this.window.layer < level → Redrawable this
  | .flush address => ∀ this, provider.objects address = some this →
      this.window.isVisible = true → Drawable this
  | .refreshOsd => ∀ first this, provider.osdStack.head? = some first →
      provider.objects first = some this → Redrawable this
  | .destroy address => ∀ first this, (provider.osdStack.erase address).head? = some first →
      provider.objects first = some this → Redrawable this
  | .setAreas _ _ _ _ _ _ | .draw _ _ => True

def carefulMachine (setting : Setting) : Machine Provider (Operation × Answers) where
  initial := (machine setting).initial
  step provider call next :=
    (machine setting).step provider call next ∧ Careful provider call.1

/-! ## The invariant -/

structure Sound (setting : Setting) (provider : Provider) : Prop where
  housed : Housed setting provider
  arranged : Arranged provider.rank provider.osdStack provider.created
  visible : ∀ address this, provider.objects address = some this →
    (this.window.isVisible = true ↔ provider.osdStack.head? = some address)

variable {setting : Setting} {answers : Answers} {provider next : Provider}

theorem rank_eq_none (provider : Provider) (address : Nat) :
    provider.rank address = none ↔ provider.objects address = none :=
  Option.map_eq_none_iff

theorem Sound.lawful (sound : Sound setting provider) : Lawful provider := by
  constructor
  case sorted => exact sound.arranged.sorted
  case listed =>
    intro address
    rw [sound.arranged.listed]
    exact not_congr (rank_eq_none provider address)
  case visible => exact sound.visible
  case opened =>
    intro wnd shown
    rcases sound.housed.opened wnd shown with ⟨address, this, held, seen, member⟩
    exact ⟨address, this, (sound.visible address this held).mp seen, held, member⟩
  case owned => exact sound.housed.owned

theorem init_sound : Sound setting .init := by
  constructor
  case housed =>
    constructor
    case counted =>
      apply Exists.intro none
      refine ⟨.inl rfl, ?_⟩
      have nothing : withLeak none Provider.init.arrays = fun _ => none := by
        funext address
        cases address <;> rfl
      rw [nothing]
      exact ⟨nofun, nofun, nofun, nofun, fun place _ => by simp [Provider.init]⟩
    case ready => nofun
    case opened => exact fun wnd shown => absurd rfl shown
    case tracked => nofun
    case owned => nofun
  case arranged => exact ⟨List.Pairwise.nil, fun address => by simp [Provider.init, rank], nofun⟩
  case visible => nofun

/-! ## Showing the first object -/

theorem rank_tell_all {addresses : List Nat} (nodup : addresses.Nodup)
    {message : XinelibOsd → XinelibOsd × List OsdMessage}
    (kept : ∀ address ∈ addresses, ∀ this, provider.objects address = some this →
      (message this).1.window.layer = this.window.layer ∧ (message this).1.serial = this.serial) :
    (provider.tellAll addresses message).rank = provider.rank := by
  funext address
  unfold rank
  rw [objects_tell_all nodup]
  split
  · rename_i member
    cases held : provider.objects address with
    | none => rfl
    | some this =>
        rcases kept address member this held with ⟨layer, serial⟩
        rw [Option.map_some, Option.map_some, Option.map_some, layer, serial]
  · rfl

theorem screen_tell {address : Nat} {this : XinelibOsd}
    (held : provider.objects address = some this)
    (message : XinelibOsd → XinelibOsd × List OsdMessage) :
    (provider.tell address message).screen = provider.screen.receiveAll (message this).2 := by
  rw [tell_of held]
  exact screen_send provider this _

theorem objects_of_stack (arranged : Arranged provider.rank provider.osdStack provider.created)
    {address : Nat} (member : address ∈ provider.osdStack) :
    ∃ this, provider.objects address = some this := by
  have listed := (arranged.listed address).mp member
  cases held : provider.objects address with
  | none => exact absurd ((rank_eq_none provider address).mpr held) listed
  | some this => exact ⟨this, rfl⟩

theorem mem_stack (arranged : Arranged provider.rank provider.osdStack provider.created)
    {address : Nat} {this : XinelibOsd} (held : provider.objects address = some this) :
    address ∈ provider.osdStack := by
  apply (arranged.listed address).mpr
  rw [Ne, rank_eq_none, held]
  exact Option.some_ne_none this

theorem show_first (housed : Housed setting provider)
    (arranged : Arranged provider.rank provider.osdStack provider.created)
    (hidden : ∀ address this, provider.objects address = some this →
      this.window.isVisible = true → provider.osdStack.head? = some address)
    (redrawable : ∀ first this, provider.osdStack.head? = some first →
      provider.objects first = some this → Redrawable this) :
    Sound setting (provider.tellAll (provider.osdStack.take 1) (XinelibOsd.show' setting answers)) ∧
      FirstShown setting
        (provider.tellAll (provider.osdStack.take 1) (XinelibOsd.show' setting answers)) := by
  cases stack : provider.osdStack with
  | nil =>
      have nothing : ∀ address this, provider.objects address ≠ some this := by
        intro address this held
        have member := mem_stack arranged held
        rw [stack] at member
        cases member
      constructor
      · exact ⟨housed, arranged, fun address this held => absurd held (nothing address this)⟩
      · exact fun first this _ held => absurd held (nothing first this)
  | cons first rest =>
      have head : provider.osdStack.head? = some first := by rw [stack, List.head?_cons]
      rcases objects_of_stack arranged (stack ▸ List.mem_cons_self : first ∈ provider.osdStack)
        with ⟨this, held⟩
      have ready := (housed.ready first this held).1
      have behaves := @show_behaves setting answers this ready (redrawable first this head held)
      show Sound setting (provider.tell first _) ∧ FirstShown setting (provider.tell first _)
      have kept := stack_tell provider first (XinelibOsd.show' setting answers)
      have found : ∀ other that,
          (provider.tell first (XinelibOsd.show' setting answers)).objects other = some that →
          other = first ∧ that = (this.show' setting answers).1 ∨
            other ≠ first ∧ provider.objects other = some that := by
        intro other that found
        rw [objects_tell, held] at found
        split at found
        · rename_i same
          exact .inl ⟨same, (Option.some.inj found).symm⟩
        · rename_i differ
          exact .inr ⟨differ, found⟩
      constructor
      · constructor
        case housed =>
          apply housed.tell
          intro that same
          cases held.symm.trans same
          exact behaves
        case arranged =>
          have ranks : (provider.tell first (XinelibOsd.show' setting answers)).rank =
              provider.rank := by
            apply rank_tell_all (List.nodup_singleton first)
            intro address member that same
            rw [List.mem_singleton.mp member] at same
            cases held.symm.trans same
            exact ⟨behaves.layer, behaves.serial⟩
          rw [ranks, kept.1, kept.2]
          exact arranged
        case visible =>
          intro other that there
          rw [kept.1, head]
          rcases found other that there with ⟨rfl, rfl⟩ | ⟨differ, there⟩
          · exact iff_of_true (show_visible ready) rfl
          · apply iff_of_false
            · intro seen
              have same := hidden other that there seen
              rw [head] at same
              exact differ (Option.some.inj same).symm
            · exact fun same => differ (Option.some.inj same).symm
      · intro other that top there
        rw [kept.1, head] at top
        rcases found other that there with ⟨rfl, rfl⟩ | ⟨differ, -⟩
        · rw [screen_tell held]
          exact show_shows ready (redrawable _ this head held)
        · exact absurd (Option.some.inj top).symm differ

/-! ## `CreateOsd` -/

theorem new_ready (left top : Int) (level serial : Nat) :
    Ready (.new left top level serial) := by
  refine ⟨⟨rfl, nofun⟩, ?_⟩
  rintro list ⟨⟩ bitmap member
  cases member

theorem new_redrawable (left top : Int) (level serial : Nat) :
    Redrawable (.new left top level serial) := ⟨fun _ => rfl, nofun⟩

theorem Provider.Housed.create (housed : Housed setting provider) {address : Nat}
    (vacant : provider.objects address = none) (left top : Int) (level : Nat)
    (osdStack : List Nat) (created : Nat) :
    Housed setting { provider.put address (.new left top level provider.created) with
      osdStack := osdStack, created := created } := by
  constructor
  case counted =>
    have same : Provider.arrays { provider.put address (.new left top level provider.created) with
        osdStack := osdStack, created := created } = provider.arrays := by
      have nothing : provider.arrays address = none := by
        rw [arrays, vacant, Option.bind_none]
      calc _ = Function.update provider.arrays address none := Provider.arrays_update provider address _
        _ = Function.update provider.arrays address (provider.arrays address) := by rw [nothing]
        _ = provider.arrays := Function.update_eq_self _ _
    rw [same]
    exact housed.counted
  case ready =>
    intro other that there
    rcases found_update there with ⟨-, ⟨⟩⟩ | ⟨-, there⟩
    · exact ⟨new_ready left top level _, rfl⟩
    · exact housed.ready other that there
  case opened =>
    intro wnd shown
    rcases housed.opened wnd shown with ⟨other, that, there, seen, member⟩
    have differ : other ≠ address := by
      rintro rfl
      rw [vacant] at there
      cases there
    exact ⟨other, that, (Function.update_of_ne differ _ _).trans there, seen, member⟩
  case tracked =>
    intro other that there seen has
    rcases found_update there with ⟨-, ⟨⟩⟩ | ⟨-, there⟩
    · exact absurd rfl has
    · exact housed.tracked other that there seen has
  case owned => exact housed.owned

theorem hide_below (housed : Housed setting provider)
    (arranged : Arranged provider.rank provider.osdStack provider.created) :
    Housed setting (provider.tellAll provider.osdStack.tail.reverse XinelibOsd.hide) ∧
      (provider.tellAll provider.osdStack.tail.reverse XinelibOsd.hide).rank = provider.rank ∧
      (∀ address this,
        (provider.tellAll provider.osdStack.tail.reverse XinelibOsd.hide).objects address =
          some this → this.window.isVisible = true → provider.osdStack.head? = some address) ∧
      ∀ first, provider.osdStack.head? = some first →
        (provider.tellAll provider.osdStack.tail.reverse XinelibOsd.hide).objects first =
          provider.objects first := by
  have below : provider.osdStack.tail.reverse.Nodup :=
    List.nodup_reverse.mpr (arranged.nodup.sublist (List.tail_sublist _))
  have hide : ∀ other ∈ provider.osdStack.tail.reverse, ∀ this,
      provider.objects other = some this → Behaves setting this this.hide.1 this.hide.2 := by
    intro other _ this held
    have ready := housed.ready other this held
    exact hide_behaves ready.1 ready.2
  refine ⟨housed.tell_all below hide, ?_, ?_, ?_⟩
  · exact rank_tell_all below fun other member this held =>
      ⟨(hide other member this held).layer, (hide other member this held).serial⟩
  · intro other this held seen
    rw [objects_tell_all below] at held
    split at held
    · rcases Option.map_eq_some_iff.mp held with ⟨before, -, rfl⟩
      cases seen
    · rename_i above
      have member := mem_stack arranged held
      cases stack : provider.osdStack with
      | nil =>
          rw [stack] at member
          cases member
      | cons first rest =>
          rw [stack] at member above
          rcases List.mem_cons.mp member with rfl | later
          · rfl
          · exact absurd (List.mem_reverse.mpr later) above
  · intro first head
    have apart : first ∉ provider.osdStack.tail.reverse := by
      cases stack : provider.osdStack with
      | nil => exact List.not_mem_nil
      | cons top rest =>
          have nodup := arranged.nodup
          rw [stack] at head nodup
          cases head
          intro later
          exact (List.nodup_cons.mp nodup).1 (List.mem_reverse.mp later)
    rw [objects_tell_all below, if_neg apart]

/-- The provider with a new object in its stack, before any other is told. -/
def inserted (provider : Provider) (address : Nat) (left top : Int) (level : Nat) : Provider :=
  { provider.put address (.new left top level provider.created) with
    osdStack := provider.insertSorted address level provider.osdStack
    created := provider.created + 1 }

theorem create_parts {address : Nat} (vacant : provider.objects address = none) (left top : Int)
    (level : Nat) :
    provider.createOsd setting answers address left top level =
      some (((inserted provider address left top level).tellAll
          (inserted provider address left top level).osdStack.tail.reverse XinelibOsd.hide).tellAll
        ((inserted provider address left top level).osdStack.take 1)
        (XinelibOsd.show' setting answers)) := by
  unfold createOsd
  rw [vacant]
  rfl

theorem rank_update (provider : Provider) (address : Nat) (object : Option XinelibOsd) :
    (fun other => (Function.update provider.objects address object other).map fun this =>
      (this.window.layer, this.serial)) =
      Function.update provider.rank address
        (object.map fun this => (this.window.layer, this.serial)) := by
  funext other
  by_cases same : other = address
  · subst same
    rw [Function.update_self, Function.update_self]
  · rw [Function.update_of_ne same, Function.update_of_ne same]
    rfl

theorem inserted_rank (provider : Provider) (address : Nat) (left top : Int) (level : Nat) :
    (inserted provider address left top level).rank =
      Function.update provider.rank address (some (level, provider.created)) :=
  rank_update provider address (some (.new left top level provider.created))

theorem create_sound (sound : Sound setting provider) {address : Nat} {left top : Int}
    {level : Nat} (careful : Careful provider (.createOsd address left top level))
    (created : provider.createOsd setting answers address left top level = some next) :
    Sound setting next ∧ FirstShown setting next := by
  cases vacant : provider.objects address with
  | some this =>
      unfold createOsd at created
      rw [vacant] at created
      cases created
  | none =>
      have housed : Housed setting (inserted provider address left top level) :=
        sound.housed.create vacant left top level _ _
      have arranged : Arranged (inserted provider address left top level).rank
          (inserted provider address left top level).osdStack
          (inserted provider address left top level).created := by
        rw [inserted_rank]
        exact sound.arranged.insert ((rank_eq_none provider address).mpr vacant) level
      rw [create_parts vacant] at created
      cases created
      rcases hide_below housed arranged with ⟨lowered, ranks, hidden, first_same⟩
      have stack := stack_tell_all (inserted provider address left top level).osdStack.tail.reverse
        XinelibOsd.hide (inserted provider address left top level)
      have shown := @show_first setting answers _ lowered
      rw [stack.1, stack.2, ranks] at shown
      apply shown arranged hidden
      intro first this head held
      rw [first_same first head] at held
      rcases found_update held with ⟨-, ⟨⟩⟩ | ⟨differ, held⟩
      · exact new_redrawable left top level _
      · rcases insert_sorted_head head with same | ⟨top, lower⟩
        · exact absurd same differ
        · apply careful first this top held
          rw [levelOf, held] at lower
          exact lower

/-! ## Closed windows -/

/-- An object closes its windows and is replaced by one that has drawn nothing yet, or by
none. -/
theorem Provider.Housed.replace (housed : Housed setting provider) {address : Nat}
    {this : XinelibOsd} (held : provider.objects address = some this) {bitmap : BitVec 64}
    {object : Option XinelibOsd} (osdStack : List Nat)
    (counted : Counted bitmap (Function.update provider.arrays address
      (object.bind fun that => that.window.windowHandles)))
    (ready : ∀ that, object = some that → Ready that ∧ that.window.refresh = false)
    (tracked : ∀ that, object = some that → that.window.windowHandles ≠ none →
      ∀ screen, Tracked setting screen that) :
    Housed setting { provider.send this this.closeWindows with
      handlesBitmap := bitmap
      objects := Function.update provider.objects address object
      osdStack := osdStack } := by
  have own := housed.ready address this held
  have closing := @hide_behaves setting this own.1 own.2
  have screen := screen_send provider this this.closeWindows
  have elsewhere : ∀ wnd, wnd ∉ this.handles →
      (provider.send this this.closeWindows).screen wnd = provider.screen wnd := by
    intro wnd other
    rw [screen]
    exact receive_all_elsewhere closing.uses other
  constructor
  case counted =>
    have same : Provider.arrays { provider.send this this.closeWindows with
        handlesBitmap := bitmap
        objects := Function.update provider.objects address object
        osdStack := osdStack } = Function.update provider.arrays address
          (object.bind fun that => that.window.windowHandles) :=
      Provider.arrays_update provider address object
    rw [same]
    exact counted
  case ready =>
    intro other that there
    rcases found_update there with ⟨-, same⟩ | ⟨-, there⟩
    · exact ready that same
    · exact housed.ready other that there
  case opened =>
    intro wnd shown
    have stays : (provider.send this this.closeWindows).screen wnd ≠ none := shown
    by_cases member : wnd ∈ this.handles
    · rw [screen] at stays
      rcases closing.closes rfl provider.screen wnd member stays with ⟨hidden, before⟩
      exact absurd (housed.hidden_closed held hidden member) before
    · rw [elsewhere wnd member] at stays
      rcases housed.opened wnd stays with ⟨other, that, there, seen, belongs⟩
      have differ : other ≠ address := by
        rintro rfl
        cases held.symm.trans there
        exact member belongs
      exact ⟨other, that, (Function.update_of_ne differ _ _).trans there, seen, belongs⟩
  case tracked =>
    intro other that there seen has
    rcases found_update there with ⟨-, same⟩ | ⟨differ, there⟩
    · exact tracked that same has _
    · have kept := housed.tracked other that there seen has
      apply kept.elsewhere _ (housed.ready other that there).1.equipped
        fun nothing => absurd nothing has
      intro wnd member
      exact elsewhere wnd (housed.disjoint differ there held member)
  case owned => exact owned_send housed.owned closing.uses

theorem Provider.Housed.send_quiet (housed : Housed setting provider) (this : XinelibOsd)
    {messages : List OsdMessage}
    (quiet : ∀ message ∈ messages, message.Uses this.handles ∧ message.Quiet) :
    Housed setting (provider.send this messages) := by
  have screen : (provider.send this messages).screen = provider.screen := by
    rw [screen_send]
    exact receive_all_quiet fun message member => (quiet message member).2
  constructor
  case counted => exact housed.counted
  case ready => exact housed.ready
  case opened =>
    rw [screen]
    exact housed.opened
  case tracked =>
    rw [screen]
    exact housed.tracked
  case owned => exact owned_send housed.owned fun message member => (quiet message member).1

/-! ## `~cXinelibOsd` -/

theorem destroy_sound (sound : Sound setting provider) {address : Nat}
    (careful : Careful provider (.destroy address))
    (destroyed : provider.destroy setting answers address = some next) :
    Sound setting next ∧ FirstShown setting next := by
  unfold destroy at destroyed
  cases held : provider.objects address with
  | none =>
      rw [held] at destroyed
      cases destroyed
  | some this =>
      rw [held] at destroyed
      cases destroyed
      have freed := sound.housed.counted.free address
      rw [arrays_of held] at freed
      have housed := @Provider.Housed.replace setting provider sound.housed address this held _ none
        (provider.osdStack.erase address) freed nofun nofun
      apply show_first housed
      · have removed := sound.arranged.remove address
        have ranks := rank_update provider address none
        rw [Option.map_none] at ranks
        rw [← ranks] at removed
        exact removed
      · intro other that there seen
        rcases found_update there with ⟨-, ⟨⟩⟩ | ⟨differ, there⟩
        have head := (sound.visible other that there).mp seen
        cases stack : provider.osdStack with
        | nil =>
            rw [stack] at head
            cases head
        | cons first rest =>
            rw [stack] at head
            cases head
            show ((other :: rest).erase address).head? = some other
            rw [List.erase_cons_tail (by simpa using differ)]
            rfl
      · intro first that head there
        rcases found_update there with ⟨-, ⟨⟩⟩ | ⟨-, there⟩
        exact careful first that head there

/-! ## `SetAreas` -/

theorem Sound.replaced (sound : Sound setting provider) {address : Nat} {this that : XinelibOsd}
    (held : provider.objects address = some this) (housed : Housed setting next)
    (objects : next.objects = Function.update provider.objects address (some that))
    (stack : next.osdStack = provider.osdStack ∧ next.created = provider.created)
    (layer : that.window.layer = this.window.layer) (serial : that.serial = this.serial)
    (visible : that.window.isVisible = this.window.isVisible) : Sound setting next := by
  constructor
  case housed => exact housed
  case arranged =>
    have ranks : next.rank = provider.rank := by
      have own : some (this.window.layer, this.serial) = provider.rank address := by
        rw [rank, held, Option.map_some]
      calc next.rank
          = fun other => (Function.update provider.objects address (some that) other).map
              fun this => (this.window.layer, this.serial) := by
            unfold rank
            rw [objects]
        _ = Function.update provider.rank address
              (some (that.window.layer, that.serial)) := rank_update provider address (some that)
        _ = provider.rank := by
            rw [layer, serial, own]
            exact Function.update_eq_self _ _
    rw [ranks, stack.1, stack.2]
    exact sound.arranged
  case visible =>
    intro other found there
    rw [objects] at there
    rw [stack.1]
    rcases found_update there with ⟨rfl, ⟨⟩⟩ | ⟨-, there⟩
    · rw [visible]
      exact sound.visible other this held
    · exact sound.visible other found there

theorem NewContent.windows {areas : List TArea} {content : Content}
    (promised : NewContent areas content) : content.windows ≤ areas.length := by
  cases content with
  | bitmaps list => exact Nat.le_of_eq promised.2.1
  | pixmaps surface =>
      rcases promised with ⟨deep, -⟩
      cases areas with
      | nil => cases deep
      | cons area areas => exact Nat.succ_le_succ (Nat.zero_le _)

theorem NewContent.colored {areas : List TArea} {content : Content}
    (promised : NewContent areas content) (list : List Bitmap) (same : content = .bitmaps list) :
    ∀ bitmap ∈ list, bitmap.colors ≠ [] := by
  subst same
  exact fun bitmap member => (promised.2.2 bitmap member).1

theorem NewContent.tracked {areas : List TArea} {that : XinelibOsd}
    (promised : NewContent areas that.content) (screen : Screen) :
    Tracked setting screen that := by
  unfold Tracked
  cases content : that.content with
  | bitmaps list =>
      rw [content] at promised
      intro i bitmap found
      exact .inl (.inr (promised.2.2 bitmap (List.mem_of_getElem? found)).2)
  | pixmaps surface =>
      rw [content] at promised
      exact fun x y inside => .inl (promised.2 x y inside)

theorem counted_failed {bitmap bitmap' : BitVec 64} {arrays : Nat → Option (List Int)}
    (counted : Counted bitmap arrays) {numWindows : Nat} {fresh : Nat → Int} {array : List Int}
    (allocated : allocWindowHandles bitmap none numWindows fresh = (bitmap', array, 0)) :
    Counted (freeWindowHandles bitmap' (some array)) arrays := by
  by_cases positive : 0 < numWindows
  · rcases alloc_window_handles_spec bitmap fresh positive with
      ⟨taken, bitmap'', array', result, same, -, free, bits, lists, -⟩
    cases allocated.symm.trans same
    exact counted.undo lists free bits
  · rw [Nat.eq_zero_of_not_pos positive, alloc_no_windows] at allocated
    cases allocated
    exact counted.leaked

theorem counted_allocated {bitmap bitmap' : BitVec 64} {arrays : Nat → Option (List Int)}
    (counted : Counted bitmap arrays) {owner numWindows result : Nat} {fresh : Nat → Int}
    {array : List Int} (nothing : arrays owner = none) (done : result ≠ 0)
    (allocated : allocWindowHandles bitmap none numWindows fresh = (bitmap', array, result)) :
    Counted bitmap' (Function.update arrays owner (some array)) ∧
      (listed array).length = numWindows := by
  have length := allocated_length bitmap none numWindows fresh
  rw [allocated] at length
  by_cases positive : 0 < numWindows
  · rcases alloc_window_handles_spec bitmap fresh positive with
      ⟨taken, bitmap'', array', result', same, nodup, free, bits, lists, whole⟩
    cases allocated.symm.trans same
    have ended := whole done
    rw [ended] at length
    rw [lists]
    constructor
    · rw [ended]
      exact counted.allot nothing nodup free bits
    · rw [List.length_append] at length
      exact Nat.succ.inj length
  · rw [Nat.eq_zero_of_not_pos positive, alloc_no_windows] at allocated
    cases allocated
    exact absurd rfl done

theorem set_areas_sound (sound : Sound setting provider) {address : Nat} {supportsTrueColor : Bool}
    {answer : OsdError} {areas : List TArea} {content : Content} {fresh : Nat → Int}
    (promised : NewContent areas content)
    (performed : provider.setAreas setting answers address supportsTrueColor answer areas content
      fresh = some next) : Sound setting next := by
  unfold setAreas at performed
  cases held : provider.objects address with
  | none =>
      rw [held] at performed
      cases performed
  | some this =>
      rw [held] at performed
      have own := sound.housed.ready address this held
      have freed := sound.housed.counted.free address
      rw [arrays_of held] at freed
      have nothing : Function.update provider.arrays address none address = none :=
        Function.update_self _ _ _
      dsimp only at performed
      have same : (provider.send this this.closeWindows).handlesBitmap = provider.handlesBitmap :=
        rfl
      rw [same] at performed
      generalize freeWindowHandles provider.handlesBitmap this.window.windowHandles = bitmap
        at performed freed
      split at performed
      · -- the old content stays, without handles
        cases performed
        have bare : Ready { this with window := { this.window with windowHandles := none } } :=
          ⟨⟨own.1.equipped.device, nofun⟩, own.1.colored⟩
        refine sound.replaced held ?_ rfl ⟨rfl, rfl⟩ rfl rfl rfl
        apply sound.housed.replace held provider.osdStack freed
        · rintro that ⟨⟩
          exact ⟨bare, own.2⟩
        · rintro that ⟨⟩ has
          exact absurd rfl has
      · rcases allocated : allocWindowHandles bitmap none areas.length fresh with
          ⟨bitmap', array, result⟩
        rw [allocated] at performed
        dsimp only at performed
        split at performed
        · rename_i failed
          rw [failed] at allocated
          cases performed
          refine sound.replaced held ?_ rfl ⟨rfl, rfl⟩ rfl rfl rfl
          apply sound.housed.replace held provider.osdStack (counted_failed freed allocated)
          · rintro that ⟨⟩
            exact ⟨⟨⟨own.1.equipped.device, nofun⟩, promised.colored⟩, own.2⟩
          · rintro that ⟨⟩ has
            exact absurd rfl has
        · rename_i done
          rcases counted_allocated freed nothing done allocated with ⟨counted, length⟩
          rw [Function.update_idem] at counted
          cases performed
          generalize (if setting.osdSpuScaling = true ∧ this.window.layer = osdLevelTtxtsubs then
            ((720 : Nat), (576 : Nat)) else answers.osdSize) = size
          refine sound.replaced held ?_ rfl ⟨rfl, rfl⟩ rfl rfl rfl
          have housed := @Provider.Housed.replace setting provider sound.housed address this held
            bitmap' (some { this with
              window := { this.window with
                windowHandles := some array, extentWidth := size.1, extentHeight := size.2 }
              content := content }) provider.osdStack counted
            (by
              rintro that ⟨⟩
              refine ⟨⟨⟨own.1.equipped.device, ?_⟩, promised.colored⟩, own.2⟩
              rintro array' ⟨⟩
              have listed := counted.array (Function.update_self _ _ _)
              exact ⟨listed.1, listed.2, length ▸ promised.windows⟩)
            (by
              rintro that ⟨⟩ -
              exact NewContent.tracked promised)
          exact housed.send_quiet _ (cmd_size_messages _ size.1 size.2)

/-! ## Drawing -/

theorem Content.DrawnTo.windows {content drawn : Content} (change : content.DrawnTo drawn) :
    drawn.windows = content.windows := by
  cases content with
  | bitmaps list =>
      cases drawn with
      | bitmaps list' => exact (List.Forall₂.length_eq change).symm
      | pixmaps surface => cases change
  | pixmaps surface =>
      cases drawn with
      | bitmaps list => cases change
      | pixmaps surface' => rfl

theorem bitmap_before {list drawn : List Bitmap} (change : List.Forall₂ Bitmap.DrawnTo list drawn)
    {i : Nat} {bitmap : Bitmap} (found : drawn[i]? = some bitmap) :
    ∃ before, list[i]? = some before ∧ before.DrawnTo bitmap := by
  rcases List.getElem?_eq_some_iff.mp found with ⟨inside, rfl⟩
  have within : i < list.length := by
    rw [change.length_eq]
    exact inside
  exact ⟨list[i], List.getElem?_eq_getElem within, change.get within inside⟩

theorem Content.DrawnTo.colored {content : Content} {drawn : List Bitmap}
    (change : content.DrawnTo (.bitmaps drawn)) : ∀ bitmap ∈ drawn, bitmap.colors ≠ [] := by
  cases content with
  | bitmaps list =>
      intro bitmap member
      rcases List.getElem?_of_mem member with ⟨i, found⟩
      rcases bitmap_before change found with ⟨before, -, drawn⟩
      exact drawn.colored
  | pixmaps surface => cases change

theorem Tracked.drawn {screen : Screen} {this : XinelibOsd} (tracked : Tracked setting screen this)
    (settled : this.window.refresh = false) {content : Content}
    (change : this.content.DrawnTo content) :
    Tracked setting screen { this with content := content } := by
  unfold Tracked at tracked ⊢
  dsimp only
  cases own : this.content with
  | bitmaps list =>
      rw [own] at tracked change
      cases content with
      | bitmaps drawn =>
          intro i bitmap found
          rcases bitmap_before change found with ⟨before, there, drawn_to⟩
          cases dirty : bitmap.dirty.isSome with
          | true => exact .inl (.inr dirty)
          | false =>
              rcases tracked i before there with redraws | shows
              · rcases redraws with refresh | was
                · rw [settled] at refresh
                  cases refresh
                · rw [drawn_to.dirty was] at dirty
                  cases dirty
              · rcases shows with ⟨wnd, picture, held, shown, of⟩
                apply Or.inr
                refine ⟨wnd, picture, held, shown, ?_⟩
                constructor
                case width => rw [of.width, drawn_to.width]
                case height => rw [of.height, drawn_to.height]
                case place =>
                  intro ordinary
                  rw [drawn_to.place.1, drawn_to.place.2]
                  exact of.place ordinary
                case color =>
                  intro column left row above
                  rw [drawn_to.width] at left
                  rw [drawn_to.height] at above
                  rw [of.color column left row above, drawn_to.color dirty column left row above]
      | pixmaps surface => cases change
  | pixmaps surface =>
      rw [own] at tracked change
      cases content with
      | bitmaps drawn => cases change
      | pixmaps drawn =>
          intro x y inside
          rw [change.area] at inside
          rcases tracked x y inside with dirty | ⟨wnd, held, painted⟩
          · exact .inl (change.dirty x y dirty)
          · rcases change.pixel x y with same | dirty
            · exact .inr ⟨wnd, held, painted.trans (congrArg some same.symm)⟩
            · exact .inl dirty

theorem draw_sound (sound : Sound setting provider) {address : Nat} {content : Content}
    (promised : ∀ this, provider.objects address = some this → this.content.DrawnTo content)
    (performed : provider.draw address content = some next) : Sound setting next := by
  rcases Option.map_eq_some_iff.mp performed with ⟨this, held, rfl⟩
  have change := promised this held
  have own := sound.housed.ready address this held
  refine sound.replaced held ?_ rfl ⟨rfl, rfl⟩ rfl rfl rfl
  constructor
  case counted =>
    have same : (provider.put address { this with content := content }).arrays =
        provider.arrays := by
      calc _ = Function.update provider.arrays address this.window.windowHandles :=
            Provider.arrays_update provider address _
        _ = Function.update provider.arrays address (provider.arrays address) := by
            rw [arrays_of held]
        _ = provider.arrays := Function.update_eq_self _ _
    rw [same]
    exact sound.housed.counted
  case ready =>
    intro other that there
    rcases found_update there with ⟨-, ⟨⟩⟩ | ⟨-, there⟩
    · refine ⟨⟨⟨own.1.equipped.device, ?_⟩, ?_⟩, own.2⟩
      · intro array has
        rcases own.1.equipped.array array has with ⟨ended, nodup, enough⟩
        exact ⟨ended, nodup, change.windows ▸ enough⟩
      · rintro drawn ⟨⟩
        exact change.colored
    · exact sound.housed.ready other that there
  case opened =>
    intro wnd shown
    rcases sound.housed.opened wnd shown with ⟨other, that, there, seen, member⟩
    by_cases same : other = address
    · subst same
      cases held.symm.trans there
      exact ⟨other, _, Function.update_self _ _ _, seen, member⟩
    · exact ⟨other, that, (Function.update_of_ne same _ _).trans there, seen, member⟩
  case tracked =>
    intro other that there seen has
    rcases found_update there with ⟨-, ⟨⟩⟩ | ⟨-, there⟩
    · exact (sound.housed.tracked address this held seen has).drawn own.2 change
    · exact sound.housed.tracked other that there seen has
  case owned => exact sound.housed.owned

/-! ## `Flush` and `RefreshOsd` -/

theorem tracked_visible (housed : Housed setting provider) {address : Nat} {this : XinelibOsd}
    (held : provider.objects address = some this) (visible : this.window.isVisible = true)
    (drawable : Drawable this) : Tracked setting provider.screen this := by
  by_cases nothing : this.window.windowHandles = none
  · unfold Tracked
    rw [drawable nothing]
    intro i bitmap found
    cases found
  · exact housed.tracked address this held visible nothing

theorem flush_sound (sound : Sound setting provider) {address : Nat} {this : XinelibOsd}
    (held : provider.objects address = some this) (careful : Careful provider (.flush address)) :
    Sound setting (provider.tell address (XinelibOsd.flush setting answers)) ∧
      (provider.osdStack.head? = some address →
        FirstShown setting (provider.tell address (XinelibOsd.flush setting answers))) := by
  have own := sound.housed.ready address this held
  have drawn := @flush_next setting answers this own.1
  have kept := stack_tell provider address (XinelibOsd.flush setting answers)
  constructor
  · refine sound.replaced held ?_ ?_ kept ?_ drawn.2.2 ?_
    · apply sound.housed.tell
      intro that there
      cases held.symm.trans there
      exact flush_behaves own.1 own.2 (careful this held)
    · rw [tell_of held]
      rfl
    · rw [drawn.2.1]
    · rw [drawn.2.1]
  · intro head first that top there
    rw [kept.1, head] at top
    cases top
    rw [objects_tell, if_pos rfl, held] at there
    cases there
    have visible := (sound.visible address this held).mpr head
    have drawable := careful this held visible
    rw [screen_tell held]
    exact flush_shows own.1 drawable visible (tracked_visible sound.housed held visible drawable)

theorem refresh_sound (sound : Sound setting provider) (careful : Careful provider .refreshOsd) :
    Sound setting
        (provider.tellAll provider.osdStack.reverse (XinelibOsd.refresh setting answers)) ∧
      FirstShown setting
        (provider.tellAll provider.osdStack.reverse (XinelibOsd.refresh setting answers)) := by
  have nodup : provider.osdStack.reverse.Nodup := List.nodup_reverse.mpr sound.arranged.nodup
  have redrawable : ∀ address this, provider.objects address = some this →
      this.window.isVisible = true → Redrawable this := by
    intro address this held visible
    exact careful address this ((sound.visible address this held).mp visible) held
  have behaves : ∀ address ∈ provider.osdStack.reverse, ∀ this,
      provider.objects address = some this → Behaves setting this
        (this.refresh setting answers).1 (this.refresh setting answers).2 := by
    intro address _ this held
    exact refresh_behaves (sound.housed.ready address this held).1 (redrawable address this held)
  have kept := stack_tell_all provider.osdStack.reverse (XinelibOsd.refresh setting answers)
    provider
  constructor
  · constructor
    case housed => exact sound.housed.tell_all nodup behaves
    case arranged =>
      have ranks := rank_tell_all nodup fun address member this held =>
        ⟨(behaves address member this held).layer, (behaves address member this held).serial⟩
      rw [ranks, kept.1, kept.2]
      exact sound.arranged
    case visible =>
      intro address that there
      rw [objects_tell_all nodup] at there
      rw [kept.1]
      split at there
      · rcases Option.map_eq_some_iff.mp there with ⟨this, held, rfl⟩
        rw [(@refresh_next setting answers this (sound.housed.ready address this held).1).2.1]
        exact sound.visible address this held
      · exact sound.visible address that there
  · intro first that head there
    rw [kept.1] at head
    cases stack : provider.osdStack with
    | nil =>
        rw [stack] at head
        cases head
    | cons top rest =>
        rw [stack] at head nodup there behaves
        cases head
        rw [List.reverse_cons] at nodup there behaves ⊢
        have below : rest.reverse.Nodup := (List.nodup_append.mp nodup).1
        have apart : first ∉ rest.reverse := by
          intro member
          exact (List.nodup_append.mp nodup).2.2 first member first (List.mem_singleton_self first) rfl
        rcases objects_of_stack sound.arranged (stack ▸ List.mem_cons_self : first ∈ provider.osdStack)
          with ⟨this, held⟩
        have visible := (sound.visible first this held).mpr (by rw [stack, List.head?_cons])
        have last : ∀ message, provider.tellAll (rest.reverse ++ [first]) message =
            (provider.tellAll rest.reverse message).tell first message := by
          intro message
          exact List.foldl_append
        have still : (provider.tellAll rest.reverse
            (XinelibOsd.refresh setting answers)).objects first = some this := by
          rw [objects_tell_all below, if_neg apart, held]
        rw [last] at there ⊢
        rw [objects_tell, if_pos rfl, still] at there
        cases there
        rw [screen_tell still]
        exact refresh_shows (sound.housed.ready first this held).1
          (redrawable first this held visible) visible

/-! ## Runs -/

theorem step_sound (sound : Sound setting provider) {call : Operation × Answers}
    (move : (carefulMachine setting).step provider call next) :
    Sound setting next ∧ (DrawsFirst next call.1 → FirstShown setting next) := by
  rcases call with ⟨operation, answers⟩
  rcases move with ⟨⟨promised, performed⟩, careful⟩
  cases operation with
  | createOsd address left top level =>
      have created := create_sound sound careful performed
      exact ⟨created.1, fun _ => created.2⟩
  | setAreas address supportsTrueColor answer areas content fresh =>
      exact ⟨set_areas_sound sound promised performed, nofun⟩
  | draw address content => exact ⟨draw_sound sound promised performed, nofun⟩
  | flush address =>
      rcases Option.map_eq_some_iff.mp performed with ⟨this, held, rfl⟩
      have flushed := @flush_sound setting answers provider sound address this held careful
      apply And.intro flushed.1
      intro head
      apply flushed.2
      rw [DrawsFirst, (stack_tell provider address _).1] at head
      exact head
  | refreshOsd =>
      cases performed
      have refreshed := @refresh_sound setting answers provider sound careful
      exact ⟨refreshed.1, fun _ => refreshed.2⟩
  | destroy address =>
      have destroyed := destroy_sound sound careful performed
      exact ⟨destroyed.1, fun _ => destroyed.2⟩

/-- In a run of careful steps the stack is in order, and whatever draws the first object
leaves its windows complete. -/
theorem careful_stack_shows_first {labels : List (Operation × Answers)}
    (run : (carefulMachine setting).Run labels provider) :
    Lawful provider ∧ ∀ call, labels.getLast? = some call → DrawsFirst provider call.1 →
      FirstShown setting provider := by
  have holds := run.invariant
    (fun labels provider => Sound setting provider ∧ ∀ call, labels.getLast? = some call →
      DrawsFirst provider call.1 → FirstShown setting provider)
    (fun state start => by
      cases start
      exact ⟨init_sound, nofun⟩)
    (fun labels state call next before move => by
      have step := step_sound before.1 move
      apply And.intro step.1
      intro last same draws
      rw [List.getLast?_concat] at same
      cases same
      exact step.2 draws)
  exact ⟨holds.1.lawful, holds.2⟩

def plainSetting : Setting := ⟨0, 0, false⟩

def plainAnswers : Answers := ⟨none, (720, 576)⟩

def menuContent : Content :=
  .bitmaps [⟨0, 0, 2, 1, fun _ _ => 0, [0xff000000], some ⟨0, 0, 2, 1⟩⟩]

theorem careful_stack_shows_menu :
    ∃ labels provider, (carefulMachine plainSetting).Run labels provider ∧ labels.length = 3 ∧
      provider.osdStack = [0] ∧ Lawful provider ∧ FirstShown plainSetting provider := by
  have begun : (carefulMachine plainSetting).Run [] .init := .start rfl
  have created := begun.snoc (show (carefulMachine plainSetting).step .init
    (.createOsd 0 0 0 0, plainAnswers) _ from ⟨⟨trivial, rfl⟩, nofun⟩)
  have sized := created.snoc (show (carefulMachine plainSetting).step _
    (.setAreas 0 true .ok [⟨0, 0, 1, 0, 8⟩] menuContent fun _ => 0, plainAnswers) _ from
    ⟨⟨⟨rfl, rfl, fun bitmap member => by
      rw [List.mem_singleton.mp member]
      exact ⟨List.cons_ne_nil _ _, rfl⟩⟩, rfl⟩, trivial⟩)
  have flushed := sized.snoc (show (carefulMachine plainSetting).step _
    (.flush 0, plainAnswers) _ from ⟨⟨trivial, rfl⟩, by
      rintro this ⟨⟩ - ⟨⟩⟩)
  have holds := careful_stack_shows_first flushed
  exact ⟨_, _, flushed, rfl, rfl, holds.1, holds.2 _ rfl rfl⟩

/-- Two pixels in true color, the first of which was changed after the last `Flush`. -/
def changedContent (first : UInt32) (dirty : List Region) : Content :=
  .pixmaps ⟨⟨0, 0, 2, 1⟩, fun x y => if x = 0 ∧ y = 0 then first else 0xff000000, dirty⟩

/-- `RefreshOsd` closes the window and paints the changed pixel only. -/
theorem refreshed_stack_incomplete :
    ∃ labels provider, (machine plainSetting).Run labels provider ∧
      labels.getLast? = some (.refreshOsd, plainAnswers) ∧ ¬FirstShown plainSetting provider := by
  have begun : (machine plainSetting).Run [] .init := .start rfl
  have created := begun.snoc (show (machine plainSetting).step .init
    (.createOsd 0 0 0 0, plainAnswers) _ from ⟨trivial, rfl⟩)
  have sized := created.snoc (show (machine plainSetting).step _
    (.setAreas 0 true .ok [⟨0, 0, 1, 0, 32⟩] (changedContent 0xff000000 [⟨0, 0, 2, 1⟩]) fun _ => 0,
      plainAnswers) _ from
    ⟨⟨rfl, fun x y inside => ⟨⟨0, 0, 2, 1⟩, List.mem_singleton_self _, inside⟩⟩, rfl⟩)
  have flushed := sized.snoc (show (machine plainSetting).step _ (.flush 0, plainAnswers) _ from
    ⟨trivial, rfl⟩)
  have drawn := flushed.snoc (show (machine plainSetting).step _
    (.draw 0 (changedContent 0xffffffff [⟨0, 0, 1, 1⟩]), plainAnswers) _ from by
      apply And.intro _ rfl
      rintro this ⟨⟩
      refine ⟨rfl, ?_, ?_⟩
      · rintro x y ⟨region, member, -⟩
        cases member
      · intro x y
        by_cases first : x = 0 ∧ y = 0
        · rcases first with ⟨rfl, rfl⟩
          exact .inr ⟨⟨0, 0, 1, 1⟩, List.mem_singleton_self _, by decide⟩
        · exact .inl ((if_neg first).trans (if_neg first).symm))
  have refreshed := drawn.snoc (show (machine plainSetting).step _ (.refreshOsd, plainAnswers) _
    from ⟨trivial, rfl⟩)
  refine ⟨_, _, refreshed, rfl, ?_⟩
  intro shown
  have second := shown 0 _ rfl rfl
  rcases second 1 0 (by decide) with ⟨wnd, held, painted⟩
  cases held
  cases painted

end Xineliboutput.Osd.Stack
