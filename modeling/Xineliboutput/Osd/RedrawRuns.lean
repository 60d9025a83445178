import Xineliboutput.Osd.Redraw

/-!
# Runs with changes of the video size

Each step of a run keeps the manager and the account together. A run of well formed
commands reads nothing outside of what they carry.
-/

namespace Xineliboutput.Osd.Rle

set_option autoImplicit false

section Steps

variable {manager : OverlayManager} {out : Output} {screen : Screen} {this next : OsdManager}
  {wnd : Nat} {queried : Extent}

/-! ## A change of the video size -/

theorem Follows.redraw_all {count : Nat}
    (follows : Follows (redrawn out screen queried 0) screen this) (within : count ≤ maxOsdObject)
    (noScaling : out.osdScaling = false)
    (performed : (List.range count).foldlM
      (fun this wnd => OsdManager.redraw manager out this queried wnd) this = .ok next) :
    Follows (redrawn out screen queried count) screen next := by
  induction count generalizing next with
  | zero =>
      cases performed
      exact follows
  | succ count ih =>
      rw [List.range_succ, List.foldlM_append] at performed
      obtain ⟨between, earlier, performed⟩ := bind_ok_iff.mp performed
      rw [List.foldlM_cons] at performed
      obtain ⟨last, performed, done⟩ := bind_ok_iff.mp performed
      cases done
      exact (ih (Nat.le_of_succ_le within) earlier).redraw within noScaling performed

/-- A window shows what its last drawing comes to with the size of the video. -/
def asDrawn (out : Output) (video : Extent) (_wnd : Nat) (drawn : Drawn)
    (shown : Option Overlay) : Prop :=
  drawn.Accepted ∧
    (0 < drawn.set.scaling → Shows out drawn.extent video drawn.window drawn.set shown)

def Tracks (out : Output) (screen : Screen) (this : OsdManager) : Prop :=
  Follows (asDrawn out screen.video) screen this

theorem Tracks.before_redraw (tracks : Tracks out screen this) (queried video : Extent) :
    Follows (redrawn out { screen with video } queried 0) { screen with video }
      { this with video } := by
  constructor
  case windows => exact tracks.windows
  case video => rfl
  case scaling => exact tracks.scaling
  case extent => exact tracks.extent
  case closed => exact tracks.closed
  case apart => exact tracks.apart
  case opened =>
    intro place osd drawn present current
    have before := tracks.opened place osd drawn present current
    exact ⟨before.handle, before.kept, before.countable, before.few, before.solid,
      before.shown.1, fun _ none_ => absurd none_ (Nat.not_lt_zero place)⟩

theorem Follows.after_redraw
    (follows : Follows (redrawn out screen queried maxOsdObject) screen this) :
    Tracks out (screen.resized screen.video queried) this := by
  constructor
  case windows => exact follows.windows
  case video => exact follows.video
  case scaling => exact follows.scaling
  case extent => exact follows.extent
  case closed =>
    intro place osd present undrawn
    exact follows.closed place osd present (Option.map_eq_none_iff.mp undrawn)
  case apart => exact follows.apart
  case opened =>
    intro place osd last present current
    obtain ⟨drawn, before, rfl⟩ := Option.map_eq_some_iff.mp current
    have open_ := follows.opened place osd drawn present before
    have within : place < maxOsdObject := by
      rw [← follows.windows]
      exact (List.getElem?_eq_some_iff.mp present).1
    by_cases scaling : 0 < drawn.set.scaling
    · rw [if_pos scaling]
      exact ⟨open_.handle, open_.kept, open_.countable, open_.few, open_.solid,
        ⟨open_.solid, open_.shown.1.2⟩, fun _ => open_.shown.2 scaling within⟩
    · rw [if_neg scaling]
      exact ⟨open_.handle, open_.kept, open_.countable, open_.few, open_.solid, open_.shown.1,
        fun asked => absurd asked scaling⟩

theorem Tracks.video_size_changed (tracks : Tracks out screen this)
    (noScaling : out.osdScaling = false) {width height : Int}
    (performed : this.videoSizeChanged manager out queried width height = .ok next) :
    Tracks out (screen.next (.videoSizeChanged width height queried)) next := by
  have video : this.video = screen.video := tracks.video
  rw [OsdManager.videoSizeChanged, video] at performed
  rw [Screen.next]
  by_cases flat : width < 1 ∨ height < 1
  · rw [if_pos flat] at performed ⊢
    cases performed
    exact tracks
  rw [if_neg flat] at performed ⊢
  by_cases same : screen.video.width = width ∧ screen.video.height = height
  · rw [if_pos same] at performed ⊢
    cases performed
    exact tracks
  rw [if_neg same] at performed ⊢
  have scaling : this.voScaling = false := tracks.scaling
  rw [if_neg (by simp [scaling])] at performed
  exact ((tracks.before_redraw queried _).redraw_all (Nat.le_refl _) noScaling
    performed).after_redraw

/-! ## The commands -/

theorem Follows.elsewhere {good : Nat → Drawn → Option Overlay → Prop} {other : Screen}
    (follows : Follows good screen this) (absent : this.osd[wnd]? = none)
    (video : other.video = screen.video)
    (extent : ∀ place, place ≠ wnd → other.extent place = screen.extent place)
    (drawn : ∀ place, place ≠ wnd → other.drawn place = screen.drawn place) :
    Follows good other this := by
  have away : ∀ {place osd}, this.osd[place]? = some osd → place ≠ wnd := by
    rintro place osd present rfl
    rw [absent] at present
    cases present
  constructor
  case windows => exact follows.windows
  case video => exact follows.video.trans video.symm
  case scaling => exact follows.scaling
  case apart => exact follows.apart
  case extent =>
    intro place osd present
    rw [extent place (away present)]
    exact follows.extent place osd present
  case closed =>
    intro place osd present undrawn
    rw [drawn place (away present)] at undrawn
    exact follows.closed place osd present undrawn
  case opened =>
    intro place osd last present current
    rw [drawn place (away present)] at current
    have before := follows.opened place osd last present current
    refine ⟨before.handle, before.kept, before.countable, before.few, ?_, before.shown⟩
    rw [extent place (away present)]
    exact before.solid

/-- An entry gets another extent; an open window keeps its handle and its command. -/
theorem Tracks.entry (tracks : Tracks out screen this) {osd : OsdData}
    (present : this.osd[wnd]? = some osd) {voScaling : Bool} (noScaling : voScaling = false)
    (ready : OsdData) (handle : ready.handle = osd.handle) (kept : ready.cmd = osd.cmd)
    (solid : screen.drawn wnd = none ∨ ready.extent.Solid) :
    Tracks out { screen with extent := Function.update screen.extent wnd ready.extent }
      { this with voScaling, osd := this.osd.set wnd ready } := by
  constructor
  case windows => exact (List.length_set ..).trans tracks.windows
  case video => exact tracks.video
  case scaling => exact noScaling
  case extent =>
    intro place other stored
    rcases get_set present stored with ⟨rfl, rfl⟩ | ⟨away, stored⟩
    · simp only [Function.update_self]
    · simp only [Function.update_of_ne away]
      exact tracks.extent place other stored
  case closed =>
    intro place other stored undrawn
    rcases get_set present stored with ⟨rfl, rfl⟩ | ⟨away, stored⟩
    · rw [handle]
      exact tracks.closed place osd present undrawn
    · exact tracks.closed place other stored undrawn
  case opened =>
    intro place other drawn stored current
    rcases get_set present stored with ⟨rfl, rfl⟩ | ⟨away, stored⟩
    · have before := tracks.opened place osd drawn present current
      have sized : other.extent.Solid := solid.resolve_left fun undrawn => by
        rw [show screen.drawn place = some drawn from current] at undrawn
        cases undrawn
      refine ⟨handle ▸ before.handle, kept.trans before.kept, before.countable, before.few, ?_, ?_⟩
      · simpa only [Function.update_self] using sized
      · rw [handle]
        exact before.shown
    · have before := tracks.opened place other drawn stored current
      refine ⟨before.handle, before.kept, before.countable, before.few, ?_, before.shown⟩
      simpa only [Function.update_of_ne away] using before.solid
  case apart =>
    intro first second one other stored also natural same
    rcases get_set present stored with ⟨rfl, rfl⟩ | ⟨-, before⟩
    · rw [handle] at natural same
      rcases get_set present also with ⟨rfl, rfl⟩ | ⟨-, also⟩
      · rfl
      · exact tracks.apart first second osd other present also natural same
    · rcases get_set present also with ⟨rfl, rfl⟩ | ⟨-, also⟩
      · rw [handle] at same
        exact tracks.apart first second one osd before present natural same
      · exact tracks.apart first second one other before also natural same

theorem Tracks.size (tracks : Tracks out screen this) (noScaling : out.osdScaling = false)
    {osd : OsdData} (present : this.osd[wnd]? = some osd) {w h : Nat}
    (proper : screen.drawn wnd = none ∨ w ≠ 0 ∧ h ≠ 0) :
    Tracks out (screen.next (.size wnd w h)) (this.execOsdSize out wnd osd w h) :=
  tracks.entry present noScaling { osd with extent := ⟨w, h⟩, videoWindow := (0, 0, ⟨0, 0⟩) }
    rfl rfl proper

theorem Tracks.video_window (tracks : Tracks out screen this) {osd : OsdData}
    (present : this.osd[wnd]? = some osd) (x y w h : Nat) :
    Tracks out screen (this.execOsdVideoWindow wnd osd x y w h) := by
  have extent : osd.extent = screen.extent wnd := tracks.extent wnd osd present
  have solid : screen.drawn wnd = none ∨ osd.extent.Solid := by
    cases drawn : screen.drawn wnd with
    | none => exact .inl rfl
    | some last => exact .inr (extent ▸ (tracks.opened wnd osd last present drawn).solid)
  have same : Function.update screen.extent wnd osd.extent = screen.extent := by
    rw [extent, Function.update_eq_self]
  have entered := tracks.entry present tracks.scaling { osd with videoWindow := (x, y, ⟨w, h⟩) }
    rfl rfl solid
  rw [same] at entered
  exact entered

theorem Tracks.close (tracks : Tracks out screen this) {osd : OsdData}
    (present : this.osd[wnd]? = some osd) (flags : UInt8) :
    Tracks out (screen.next (.close wnd flags)) (this.execOsdClose wnd osd flags) := by
  rw [OsdManager.execOsdClose, Screen.next]
  by_cases refreshed : hasFlag refresh flags = true
  · rw [if_pos refreshed, if_pos (.inl refreshed)]
    exact tracks
  rw [if_neg refreshed]
  by_cases closed : osd.handle < 0
  · have undrawn : screen.drawn wnd = none := by
      cases drawn : screen.drawn wnd with
      | none => rfl
      | some last =>
          exact absurd closed (Int.not_lt.mpr (tracks.opened wnd osd last present drawn).handle)
    rw [if_pos closed, if_pos (.inr undrawn)]
    exact tracks
  have natural : 0 ≤ osd.handle := Int.not_lt.mp closed
  rw [if_neg closed, if_neg]
  · constructor
    case windows => exact (List.length_set ..).trans tracks.windows
    case video => exact tracks.video
    case scaling => exact tracks.scaling
    case extent =>
      intro place other stored
      rcases get_set present stored with ⟨rfl, rfl⟩ | ⟨away, stored⟩
      · simp only [Function.update_self]
      · simp only [Function.update_of_ne away]
        exact tracks.extent place other stored
    case closed =>
      intro place other stored undrawn
      rcases get_set present stored with ⟨rfl, rfl⟩ | ⟨away, stored⟩
      · exact Int.negSucc_lt_zero 0
      · simp only [Function.update_of_ne away] at undrawn
        exact tracks.closed place other stored undrawn
    case opened =>
      intro place other drawn stored current
      rcases get_set present stored with ⟨rfl, rfl⟩ | ⟨away, stored⟩
      · simp at current
      · simp only [Function.update_of_ne away] at current
        have before := tracks.opened place other drawn stored current
        refine ⟨before.handle, before.kept, before.countable, before.few, ?_, ?_⟩
        · simpa only [Function.update_of_ne away] using before.solid
        · have own : other.handle ≠ osd.handle := fun same =>
            away (tracks.apart wnd place osd other present stored natural same.symm).symm
          simpa only [Function.update_of_ne own] using before.shown
    case apart =>
      intro first second one other stored also opened same
      have shut : ¬ (0 : Int) ≤ -1 := by decide
      rcases get_set present stored with ⟨rfl, rfl⟩ | ⟨-, before⟩
      · exact absurd opened shut
      · rcases get_set present also with ⟨rfl, rfl⟩ | ⟨-, also⟩
        · rw [same] at opened
          exact absurd opened shut
        · exact tracks.apart first second one other before also opened same
  · rintro (flagged | undrawn)
    · exact refreshed flagged
    · exact closed (tracks.closed wnd osd present undrawn)

theorem Tracks.set (tracks : Tracks out screen this) (noScaling : out.osdScaling = false)
    {osd : OsdData} (present : this.osd[wnd]? = some osd) {set : SetCommand}
    (countable : set.elements.length < 2 ^ 30) (whole : set.command = .ok set.asRle)
    (performed : this.execOsdSetRle manager out queried wnd osd set.asRle = .ok next) :
    Tracks out (screen.next (.set wnd set queried)) next := by
  have solid := tracks.solid_to_draw present
  have video : this.video = screen.video := tracks.video
  refine Follows.exec tracks osd.cmd present noScaling (.inl rfl) countable solid
    ⟨set, screen.extentToDraw wnd, queried⟩ rfl (fun _ _ _ _ before => before) ?_ performed
  intro shown shows_
  exact ⟨⟨solid, whole⟩, fun _ => video ▸ shows_⟩

theorem SetCommand.command_ok {set : SetCommand} {cmd : Command} (made : set.command = .ok cmd) :
    cmd = set.asRle := by
  unfold command at made
  split at made
  · exact (Except.ok.inj made).symm
  · split at made
    · cases made
    · exact (Except.ok.inj made).symm

theorem Tracks.step (tracks : Tracks out screen this) (noScaling : out.osdScaling = false)
    {step : Step} (proper : screen.Proper step)
    (performed : perform manager out this step = .ok next) :
    Tracks out (screen.next step) next := by
  have changed : ∀ {wnd extent}, ∀ place, place ≠ wnd →
      Function.update screen.extent wnd extent place = screen.extent place :=
    fun place away => Function.update_of_ne away _ _
  have redrawn_ : ∀ {wnd drawn}, ∀ place, place ≠ wnd →
      Function.update screen.drawn wnd drawn place = screen.drawn place :=
    fun place away => Function.update_of_ne away _ _
  cases step with
  | size wnd w h =>
      rw [perform, Except.ok.injEq] at performed
      subst performed
      cases present : this.osd[wnd]? with
      | none => exact Follows.elsewhere tracks present rfl changed fun _ _ => rfl
      | some osd => exact tracks.size noScaling present proper
  | videoWindow wnd x y w h =>
      rw [perform, Except.ok.injEq] at performed
      subst performed
      cases present : this.osd[wnd]? with
      | none => exact tracks
      | some osd => exact tracks.video_window present x y w h
  | set wnd set window =>
      rw [perform] at performed
      cases present : this.osd[wnd]? with
      | none =>
          rw [present] at performed
          cases performed
          exact Follows.elsewhere tracks present rfl changed redrawn_
      | some osd =>
          rw [present] at performed
          obtain ⟨cmd, made, performed⟩ := bind_ok_iff.mp performed
          obtain rfl := SetCommand.command_ok made
          exact tracks.set noScaling present proper made performed
  | close wnd flags =>
      rw [perform, Except.ok.injEq] at performed
      subst performed
      cases present : this.osd[wnd]? with
      | none =>
          rw [Screen.next]
          split
          · exact tracks
          · exact Follows.elsewhere tracks present rfl changed redrawn_
      | some osd => exact tracks.close present flags
  | videoSizeChanged width height window => exact tracks.video_size_changed noScaling performed

theorem Tracks.run (tracks : Tracks out screen this) (noScaling : out.osdScaling = false)
    {steps : List Step} (proper : screen.ProperRun steps)
    (performed : steps.foldlM (perform manager out) this = .ok next) :
    Tracks out (steps.foldl Screen.next screen) next := by
  induction steps generalizing screen this with
  | nil =>
      cases performed
      exact tracks
  | cons step steps ih =>
      rw [List.foldlM_cons] at performed
      obtain ⟨between, performed, rest⟩ := bind_ok_iff.mp performed
      exact ih (tracks.step noScaling proper.1 performed) proper.2 rest

end Steps

/-! ## Runs without faults -/

section Progress

variable {manager : OverlayManager} {out : Output} {screen : Screen} {this : OsdManager}
  {extent video window queried : Extent} {set : SetCommand}

def Picture.Whole (w h : Nat) : Picture → Prop
  | .rle elements => LinesInside w h elements
  | .lut8 pixels => w < 2 ^ 16 ∧ w * h ≤ pixels.length

structure SetCommand.WellFormed (set : SetCommand) : Prop where
  size : set.w ≠ 0 ∧ set.h ≠ 0
  whole : set.picture.Whole set.w set.h
  few : set.palette.length ≤ ovlPaletteSize

theorem SetCommand.WellFormed.lines (wellFormed : set.WellFormed) :
    LinesInside set.w set.h set.elements := by
  have whole := wellFormed.whole
  unfold elements
  split
  · rename_i elements picture
    rwa [picture] at whole
  · rename_i pixels picture
    rw [picture] at whole
    exact rle_compress_lines_inside whole.1 whole.2

theorem SetCommand.WellFormed.command_whole (wellFormed : set.WellFormed) :
    set.command = .ok set.asRle := by
  have whole := wellFormed.whole
  unfold command
  split
  · rfl
  · rename_i pixels picture
    rw [picture] at whole
    rw [if_neg (Nat.not_lt.mpr whole.2)]

theorem overlay_ok (cmd : Command) (few : cmd.colors ≤ ovlPaletteSize)
    (present : cmd.colors ≤ (cmd.palette.getD []).length) :
    ∃ overlay, osdcmdToOverlay cmd = .ok overlay := by
  rw [osdcmdToOverlay]
  simp only [if_neg (show ¬ (cmd.palette.getD []).length < min cmd.colors (ovlPaletteSize + 1) by
    omega), if_neg (Nat.not_lt.mpr few)]
  exact ⟨_, rfl⟩

theorem scale_ok (cmd : Command) (video : Extent) (solid : extent.Solid) (size : cmd.w ≠ 0 ∧ cmd.h ≠ 0)
    (lines : LinesInside cmd.w cmd.h (cmd.data.getD [])) :
    ∃ scaled, osdcmdScale extent video cmd = .ok scaled ∧ scaled.palette = cmd.palette ∧
      scaled.colors = cmd.colors := by
  have divides : ¬ (extent.width = 0 ∨ extent.height = 0 ∨ cmd.w = 0 ∨ cmd.h = 0) := by
    rintro (flat | flat | flat | flat)
    · exact solid.1 flat
    · exact solid.2 flat
    · exact size.1 flat
    · exact size.2 flat
  rw [osdcmdScale, if_neg divides]
  dsimp only
  split
  · rename_i outside
    exact absurd outside
      (Option.isSome_iff_ne_none.mp ((rle_scale_nearest_reads _ _ _ _ _).mpr lines))
  · exact ⟨_, rfl, rfl, rfl⟩

theorem draw_ok (wellFormed : set.WellFormed) (countable : set.elements.length < 2 ^ 30)
    (solid : extent.Solid) :
    ∃ overlay, draw out extent video window set.stored = .ok (overlay, set.stored) := by
  have few := wellFormed.few
  rw [draw, set.prepare_stored, ok_bind, set.copy_palette_stored few, ok_bind]
  by_cases scaling : scales out extent video window set.stored = true
  · obtain ⟨scaled, resized, palette, colors⟩ :=
      scale_ok set.stored video solid wellFormed.size wellFormed.lines
    obtain ⟨overlay, made⟩ := overlay_ok scaled (colors ▸ few)
      (by rw [palette, colors]; exact Nat.le_of_eq set.length_clut.symm)
    rw [if_pos scaling, resized, ok_bind, made]
    exact ⟨_, rfl⟩
  · obtain ⟨overlay, made⟩ := overlay_ok set.stored few
      (Nat.le_of_eq set.length_clut.symm)
    rw [if_neg scaling, made, ok_bind, set.copy_data_stored countable]
    exact ⟨_, rfl⟩

def Screen.Sound (screen : Screen) : Prop :=
  ∀ wnd drawn, screen.drawn wnd = some drawn → drawn.set.WellFormed

def Step.WellFormed : Step → Prop
  | .set _ set _ => set.WellFormed
  | _ => True

theorem Screen.Sound.next (sound : screen.Sound) {step : Step} (wellFormed : step.WellFormed) :
    (screen.next step).Sound := by
  intro place drawn current
  cases step with
  | size wnd w h => exact sound place drawn current
  | videoWindow wnd x y w h => exact sound place drawn current
  | set wnd set window =>
      by_cases here : place = wnd
      · subst here
        simp only [Screen.next, Screen.draws, Function.update_self, Option.some.injEq] at current
        exact current ▸ wellFormed
      · simp only [Screen.next, Screen.draws, Function.update_of_ne here] at current
        exact sound place drawn current
  | close wnd flags =>
      rw [Screen.next] at current
      split at current
      · exact sound place drawn current
      · by_cases here : place = wnd
        · subst here
          simp at current
        · simp only [Function.update_of_ne here] at current
          exact sound place drawn current
  | videoSizeChanged width height window =>
      rw [Screen.next] at current
      split at current
      · exact sound place drawn current
      · split at current
        · exact sound place drawn current
        · obtain ⟨before, stored, rfl⟩ := Option.map_eq_some_iff.mp current
          split
          · exact sound place before stored
          · exact sound place before stored

theorem Follows.exec_progress {good : Nat → Drawn → Option Overlay → Prop}
    (follows : Follows good screen this) (old : Command) {wnd : Nat} {osd : OsdData}
    (present : this.osd[wnd]? = some osd) {cmd : Command} (asks : Asks cmd set)
    (wellFormed : set.WellFormed) (countable : set.elements.length < 2 ^ 30) :
    ∃ next, this.execOsdSetRle manager out queried wnd { osd with cmd := old } cmd = .ok next := by
  have solid : (OsdManager.opened manager this { osd with cmd := old }).extent.Solid := by
    rw [(follows.drawable manager present old).extent]
    exact follows.solid_to_draw present
  obtain ⟨overlay, drawn⟩ : ∃ overlay, draw out
      (OsdManager.opened manager this { osd with cmd := old }).extent this.video queried
        set.stored = .ok (overlay, set.stored) := draw_ok wellFormed countable solid
  rw [OsdManager.execOsdSetRle]
  simp only [asks.draw_eq wellFormed.few, drawn, ok_bind]
  exact ⟨_, rfl⟩

theorem Follows.redraw_progress {good : Nat → Drawn → Option Overlay → Prop}
    (follows : Follows good screen this) (sound : screen.Sound) (wnd : Nat) :
    ∃ next, this.redraw manager out queried wnd = .ok next := by
  rw [OsdManager.redraw]
  split
  · exact ⟨this, rfl⟩
  · rename_i osd present
    split
    · rename_i asked
      cases current : screen.drawn wnd with
      | none => exact absurd (follows.closed wnd osd present current) (Int.not_lt.mpr asked.1)
      | some drawn =>
          have open_ := follows.opened wnd osd drawn present current
          rw [open_.kept]
          exact follows.exec_progress noCommand present (.inr rfl) (sound wnd drawn current)
            open_.countable
    · exact ⟨this, rfl⟩

theorem Follows.redraw_all_progress
    (follows : Follows (redrawn out screen queried 0) screen this) (sound : screen.Sound)
    (noScaling : out.osdScaling = false) {count : Nat} (within : count ≤ maxOsdObject) :
    ∃ next, (List.range count).foldlM
      (fun this wnd => OsdManager.redraw manager out this queried wnd) this = .ok next := by
  induction count with
  | zero => exact ⟨this, rfl⟩
  | succ count ih =>
      obtain ⟨between, earlier⟩ := ih (Nat.le_of_succ_le within)
      have reached := follows.redraw_all (Nat.le_of_succ_le within) noScaling earlier
      obtain ⟨next, redrawn_⟩ := reached.redraw_progress sound count
      refine ⟨next, ?_⟩
      rw [List.range_succ, List.foldlM_append, earlier, ok_bind, List.foldlM_cons, redrawn_]
      rfl

theorem Tracks.progress (tracks : Tracks out screen this) (noScaling : out.osdScaling = false)
    (sound : screen.Sound) {step : Step} (proper : screen.Proper step)
    (wellFormed : step.WellFormed) : ∃ next, perform manager out this step = .ok next := by
  cases step with
  | size wnd w h => exact ⟨_, rfl⟩
  | videoWindow wnd x y w h => exact ⟨_, rfl⟩
  | close wnd flags => exact ⟨_, rfl⟩
  | set wnd set window =>
      rw [perform]
      cases present : this.osd[wnd]? with
      | none => exact ⟨this, rfl⟩
      | some osd =>
          rw [Option.elim_some, SetCommand.WellFormed.command_whole wellFormed, ok_bind]
          exact Follows.exec_progress tracks osd.cmd present (.inl rfl) wellFormed proper
  | videoSizeChanged width height window =>
      rw [perform, OsdManager.videoSizeChanged]
      split
      · exact ⟨this, rfl⟩
      · split
        · exact ⟨this, rfl⟩
        · have scaling : this.voScaling = false := tracks.scaling
          rw [if_neg (by simp [scaling])]
          generalize (⟨(width % 2 ^ 16).toNat, (height % 2 ^ 16).toNat⟩ : Extent) = video
          have still : Screen.Sound { screen with video } := sound
          exact (tracks.before_redraw window video).redraw_all_progress still noScaling
            (Nat.le_refl _)

end Progress

/-! ## A menu -/

def firstUnused (used : List Int) : Int :=
  used.foldr (fun handle next => max next (handle + 1)) 0

theorem first_unused_above {used : List Int} {handle : Int} (member : handle ∈ used) :
    handle < firstUnused used := by
  induction used with
  | nil => cases member
  | cons first used ih =>
      rw [firstUnused, List.foldr_cons]
      rcases List.mem_cons.mp member with rfl | member
      · exact Int.lt_of_lt_of_le (Int.lt_succ _) (Int.le_max_right _ _)
      · exact Int.lt_of_lt_of_le (ih member) (Int.le_max_left _ _)

theorem first_unused_natural (used : List Int) : 0 ≤ firstUnused used := by
  induction used with
  | nil => exact Int.le_refl 0
  | cons handle used ih => exact Int.le_trans ih (Int.le_max_left _ _)

def numbered : OverlayManager where
  getHandle := firstUnused
  natural := first_unused_natural
  unused := fun _ member => Int.lt_irrefl _ (first_unused_above member)

end Xineliboutput.Osd.Rle
