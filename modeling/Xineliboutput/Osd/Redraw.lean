import Xineliboutput.Osd.SetRle

/-!
# Drawing again after a change of the video size

What is kept of a palette image is the image as it came, with its palette converted once.
Drawing it again shows what the command would show now. Between the changes of the video
size nothing is drawn again: the extent and the window of the output are those of the last
drawing.
-/

namespace Xineliboutput.Osd.Rle

set_option autoImplicit false

/-! ## Commands and steps -/

inductive Picture where
  | rle (elements : List RleElem)
  | lut8 (pixels : List UInt8)

/-- `OSD_Set_RLE` or `OSD_Set_LUT8` with its own palette and data. -/
structure SetCommand where
  x : Nat
  y : Nat
  w : Nat
  h : Nat
  picture : Picture
  palette : List Clut
  flags : UInt8
  scaling : Nat

namespace SetCommand

variable (set : SetCommand)

def elements : List RleElem :=
  match set.picture with
  | .rle elements => elements
  | .lut8 pixels => rleCompress pixels set.w set.h

/-- The command that `exec_osd_set_rle` is called with. -/
def asRle : Command where
  x := set.x
  y := set.y
  w := set.w
  h := set.h
  datalen := 4 * set.elements.length % 2 ^ 32
  data := some set.elements
  colors := set.palette.length
  palette := some set.palette
  flags := set.flags
  scaling := set.scaling

/-- `exec_osd_set_lut8` compresses the image first, and reads it whole. -/
def command : Except Fault Command :=
  match set.picture with
  | .rle _ => .ok set.asRle
  | .lut8 pixels => if pixels.length < set.w * set.h then .error .data else .ok set.asRle

def clut : List Clut :=
  if hasFlag yuvClut set.flags then set.palette else set.palette.map argbToAyuv

/-- What is kept of it: the image as it came, and the converted palette. -/
def stored : Command :=
  { set.asRle with palette := some set.clut, flags := set.flags ||| yuvClut }

end SetCommand

inductive Step where
  | size (wnd w h : Nat)
  | videoWindow (wnd x y w h : Nat)
  | set (wnd : Nat) (command : SetCommand) (window : Extent)
  | close (wnd : Nat) (flags : UInt8)
  | videoSizeChanged (width height : Int) (window : Extent)

/-- `exec_osd_command` and `video_size_changed`; `window` is the size of the output's window
at that time. -/
def perform (manager : OverlayManager) (out : Output) (this : OsdManager) :
    Step → Except Fault OsdManager
  | .size wnd w h => .ok <| (this.osd[wnd]?).elim this fun osd => this.execOsdSize out wnd osd w h
  | .videoWindow wnd x y w h =>
      .ok <| (this.osd[wnd]?).elim this fun osd => this.execOsdVideoWindow wnd osd x y w h
  | .set wnd set window =>
      (this.osd[wnd]?).elim (.ok this) fun osd => do
        let cmd ← set.command
        this.execOsdSetRle manager out window wnd osd cmd
  | .close wnd flags => .ok <| (this.osd[wnd]?).elim this fun osd => this.execOsdClose wnd osd flags
  | .videoSizeChanged width height window => this.videoSizeChanged manager out window width height

def after (manager : OverlayManager) (out : Output) (steps : List Step) : Except Fault OsdManager :=
  steps.foldlM (perform manager out) initOsdManager

/-! ## What should be shown -/

def fresh (extent video : Extent) : OsdManager :=
  { initOsdManager with
    video
    osd := List.replicate maxOsdObject ⟨-1, noCommand, extent, 0, 0, ⟨0, 0⟩⟩ }

/-- The last command of a window, and the extent and the output's window when it was drawn. -/
structure Drawn where
  set : SetCommand
  extent : Extent
  window : Extent

structure Screen where
  video : Extent
  extent : Nat → Extent
  drawn : Nat → Option Drawn

namespace Screen

def initial : Screen := ⟨⟨720, 576⟩, fun _ => ⟨0, 0⟩, fun _ => none⟩

variable (screen : Screen)

def draws (wnd : Nat) (extent : Extent) (drawn : Drawn) : Screen :=
  { screen with
    extent := Function.update screen.extent wnd extent
    drawn := Function.update screen.drawn wnd (some drawn) }

def extentToDraw (wnd : Nat) : Extent :=
  if (screen.drawn wnd).isSome then screen.extent wnd else (screen.extent wnd).orDefault

def resized (video window : Extent) : Screen :=
  { screen with
    video
    drawn := fun wnd => (screen.drawn wnd).map fun drawn =>
      if 0 < drawn.set.scaling then { drawn with extent := screen.extent wnd, window } else drawn }

def next : Step → Screen
  | .size wnd w h => { screen with extent := Function.update screen.extent wnd ⟨w, h⟩ }
  | .videoWindow _ _ _ _ _ => screen
  | .set wnd set window =>
      screen.draws wnd (screen.extentToDraw wnd) ⟨set, screen.extentToDraw wnd, window⟩
  | .close wnd flags =>
      if hasFlag refresh flags ∨ screen.drawn wnd = none then screen
      else
        { screen with
          extent := Function.update screen.extent wnd ⟨720, 576⟩
          drawn := Function.update screen.drawn wnd none }
  | .videoSizeChanged width height window =>
      if width < 1 ∨ height < 1 then screen
      else if screen.video.width = width ∧ screen.video.height = height then screen
      else screen.resized ⟨(width % 2 ^ 16).toNat, (height % 2 ^ 16).toNat⟩ window

/-- No extent of zero is given to an open window, and the runs of an image can be counted
in `datalen`. -/
def Proper : Step → Prop
  | .size wnd w h => screen.drawn wnd = none ∨ w ≠ 0 ∧ h ≠ 0
  | .set _ set _ => set.elements.length < 2 ^ 30
  | _ => True

def ProperRun : Screen → List Step → Prop
  | _, [] => True
  | screen, step :: steps => screen.Proper step ∧ ProperRun (screen.next step) steps

end Screen

theorem bind_ok_iff {Value Result : Type} {value : Except Fault Value}
    {next : Value → Except Fault Result} {result : Result} :
    value >>= next = .ok result ↔ ∃ found, value = .ok found ∧ next found = .ok result := by
  cases value with
  | error fault => exact ⟨fun failed => (by cases failed), fun ⟨_, failed, _⟩ => (by cases failed)⟩
  | ok found =>
      constructor
      · intro done
        exact ⟨found, rfl, done⟩
      · rintro ⟨_, ⟨⟩, done⟩
        exact done

theorem ok_bind {Value Result : Type} (value : Value) (next : Value → Except Fault Result) :
    (Except.ok value >>= next) = next value := rfl

theorem has_flag_or (flag other flags : UInt8) (apart : other &&& flag = 0) :
    hasFlag flag (flags ||| other) = hasFlag flag flags := by
  have same : (flags ||| other) &&& flag = flags &&& flag := by
    rw [← UInt8.toBitVec_inj] at apart ⊢
    simp only [UInt8.toBitVec_and, UInt8.toBitVec_or, BitVec.and_or_distrib_right] at apart ⊢
    rw [apart]
    simp
  rw [hasFlag, hasFlag, same]

theorem has_yuv_clut (flags : UInt8) : hasFlag yuvClut (flags ||| yuvClut) = true := by
  have kept : (flags ||| yuvClut) &&& yuvClut = yuvClut := by
    rw [← UInt8.toBitVec_inj]
    simp only [UInt8.toBitVec_and, UInt8.toBitVec_or]
    ext index inside
    simp only [BitVec.getElem_and, BitVec.getElem_or]
    cases flags.toBitVec[index] <;> simp
  rw [hasFlag, kept]
  rfl

theorem queries_window_stored (out : Output) (set : SetCommand) :
    queriesWindow out set.stored.flags = queriesWindow out set.asRle.flags := by
  simp only [queriesWindow, SetCommand.stored, SetCommand.asRle]
  rw [has_flag_or unscaled yuvClut _ (by decide), has_flag_or unscaledLowres yuvClut _ (by decide)]

namespace SetCommand

variable {set : SetCommand}

theorem length_clut : set.clut.length = set.palette.length := by
  unfold clut
  split
  · rfl
  · exact List.length_map _

theorem prepare_as_rle (few : set.palette.length ≤ ovlPaletteSize) :
    prepare set.asRle = .ok set.stored := by
  have converted : paletteArgbToAyuv set.palette set.palette.length =
      .ok (set.palette.map argbToAyuv) := by
    simp only [ovlPaletteSize] at few
    rw [paletteArgbToAyuv, int_of_unsigned_small (by omega)]
    by_cases none_ : set.palette.length = 0
    · rw [if_pos (by omega), List.length_eq_zero_iff.mp none_]
      rfl
    · rw [if_neg (by omega), if_neg (Nat.lt_irrefl _), List.take_length, List.drop_length,
        List.append_nil]
  by_cases yuv : hasFlag yuvClut set.flags = true
  · simp only [prepare, asRle, yuv, if_true, stored, clut]
    rfl
  · simp only [prepare, asRle, yuv, stored, clut, converted]
    rfl

theorem prepare_stored : prepare set.stored = .ok set.stored := by
  have again : (set.flags ||| yuvClut) ||| yuvClut = set.flags ||| yuvClut := by
    rw [UInt8.or_assoc, UInt8.or_self]
  simp only [prepare, stored, asRle, has_yuv_clut, if_true, again]
  rfl

theorem copy_palette_stored (few : set.palette.length ≤ ovlPaletteSize) :
    copyPalette set.stored = .ok set.stored.palette := by
  have length := set.length_clut
  simp only [ovlPaletteSize] at few
  have copied : 4 * set.palette.length % 2 ^ 32 / 4 = set.palette.length := by omega
  simp only [copyPalette, stored, asRle, copied]
  rw [if_neg (by omega), List.take_of_length_le (by omega)]

theorem copy_data_stored (countable : set.elements.length < 2 ^ 30) :
    copyData set.stored = .ok set.stored.data := by
  have copied : 4 * set.elements.length % 2 ^ 32 / 4 = set.elements.length := by omega
  simp only [copyData, stored, asRle, Option.getD_some, copied]
  rw [if_neg (by omega), List.take_of_length_le (Nat.le_refl _)]

end SetCommand

theorem overlay_colors {cmd : Command} {overlay : Overlay}
    (made : osdcmdToOverlay cmd = .ok overlay) : cmd.colors ≤ ovlPaletteSize := by
  by_contra many
  rw [osdcmdToOverlay] at made
  split at made
  · cases made
  · rw [if_pos (Nat.lt_of_not_le many)] at made
    cases made

theorem prepare_colors {cmd prepared : Command} (done : prepare cmd = .ok prepared) :
    prepared.colors = cmd.colors := by
  unfold prepare at done
  split at done
  · cases done
    rfl
  · split at done
    · cases done
      rfl
    · cases converted : paletteArgbToAyuv _ cmd.colors with
      | error fault =>
          rw [converted] at done
          cases done
      | ok clut =>
          rw [converted] at done
          cases done
          rfl

theorem scale_colors {extent video : Extent} {cmd scaled : Command}
    (done : osdcmdScale extent video cmd = .ok scaled) : scaled.colors = cmd.colors := by
  unfold osdcmdScale at done
  split at done
  · cases done
  · dsimp only at done
    split at done
    · cases done
    · rw [Except.ok.injEq] at done
      rw [← done]

variable {out : Output} {extent video window : Extent}

theorem draw_colors {cmd kept : Command} {overlay : Overlay}
    (drawn : draw out extent video window cmd = .ok (overlay, kept)) :
    cmd.colors ≤ ovlPaletteSize := by
  obtain ⟨prepared, done, drawn⟩ := bind_ok_iff.mp drawn
  obtain ⟨palette, -, drawn⟩ := bind_ok_iff.mp drawn
  rw [← prepare_colors done]
  split at drawn
  · obtain ⟨scaled, resized, drawn⟩ := bind_ok_iff.mp drawn
    obtain ⟨made, overlaid, -⟩ := bind_ok_iff.mp drawn
    exact scale_colors resized ▸ overlay_colors overlaid
  · obtain ⟨made, overlaid, -⟩ := bind_ok_iff.mp drawn
    exact overlay_colors overlaid

variable {set : SetCommand}

theorem draw_stored (few : set.palette.length ≤ ovlPaletteSize) :
    draw out extent video window set.stored = draw out extent video window set.asRle := by
  rw [draw, draw, set.prepare_as_rle few, set.prepare_stored]

theorem draw_keeps (countable : set.elements.length < 2 ^ 30) {kept : Command}
    {overlay : Overlay}
    (drawn : draw out extent video window set.asRle = .ok (overlay, kept)) :
    kept = set.stored := by
  have few : set.palette.length ≤ ovlPaletteSize := draw_colors drawn
  obtain ⟨prepared, done, drawn⟩ := bind_ok_iff.mp drawn
  rw [set.prepare_as_rle few] at done
  cases done
  obtain ⟨palette, copied, drawn⟩ := bind_ok_iff.mp drawn
  rw [set.copy_palette_stored few] at copied
  cases copied
  split at drawn
  · obtain ⟨scaled, -, drawn⟩ := bind_ok_iff.mp drawn
    obtain ⟨made, -, drawn⟩ := bind_ok_iff.mp drawn
    cases drawn
    rfl
  · obtain ⟨made, -, drawn⟩ := bind_ok_iff.mp drawn
    obtain ⟨data, copied, drawn⟩ := bind_ok_iff.mp drawn
    rw [set.copy_data_stored countable] at copied
    cases copied
    cases drawn
    rfl

theorem draw_window (unasked : queriesWindow out set.stored.flags = false) (other : Extent) :
    draw out extent video window set.stored = draw out extent video other set.stored := by
  have scaledOverlay : usesUnscaled out extent video set.stored.flags = false := by
    simp only [queriesWindow, Bool.and_eq_false_iff, Bool.or_eq_false_iff] at unasked
    rcases unasked with unsupported | ⟨noUnscaled, noLowres⟩
    · simp [usesUnscaled, unsupported]
    · simp [usesUnscaled, noUnscaled, noLowres]
  rw [draw, draw, set.prepare_stored]
  simp only [ok_bind, scales, recenter, scaledOverlay, Bool.false_eq_true, if_false]

def Asks (cmd : Command) (set : SetCommand) : Prop := cmd = set.asRle ∨ cmd = set.stored

theorem Asks.colors {cmd : Command} (asks : Asks cmd set) : cmd.colors = set.palette.length := by
  rcases asks with rfl | rfl <;> rfl

theorem Asks.queries {cmd : Command} (asks : Asks cmd set) (out : Output) :
    queriesWindow out cmd.flags = queriesWindow out set.stored.flags := by
  rcases asks with rfl | rfl
  · exact (queries_window_stored out set).symm
  · rfl

/-- Either is drawn alike, with the output's window where that is asked for. -/
theorem Asks.draw_eq {cmd : Command} (asks : Asks cmd set)
    (few : set.palette.length ≤ ovlPaletteSize) (queried : Extent) :
    draw out extent video (if queriesWindow out cmd.flags then queried else window) cmd =
      draw out extent video queried set.stored := by
  have alike : ∀ window, draw out extent video window cmd =
      draw out extent video window set.stored := by
    intro window
    rcases asks with rfl | rfl
    · exact (draw_stored few).symm
    · rfl
  rw [alike, asks.queries out]
  cases unasked : queriesWindow out set.stored.flags with
  | true => rw [if_pos rfl]
  | false =>
      rw [if_neg Bool.false_ne_true]
      exact draw_window unasked queried

theorem Asks.drawn {cmd kept : Command} (asks : Asks cmd set)
    (countable : set.elements.length < 2 ^ 30) {overlay : Overlay} {queried : Extent}
    (drawn : draw out extent video (if queriesWindow out cmd.flags then queried else window) cmd =
      .ok (overlay, kept)) :
    set.palette.length ≤ ovlPaletteSize ∧ kept = set.stored ∧
      draw out extent video queried set.stored = .ok (overlay, set.stored) := by
  have few : set.palette.length ≤ ovlPaletteSize := asks.colors ▸ draw_colors drawn
  rw [asks.draw_eq few] at drawn
  have same : kept = set.stored := draw_keeps countable (draw_stored few ▸ drawn)
  exact ⟨few, same, same ▸ drawn⟩

/-! ## The manager follows the account -/

def Extent.Solid (extent : Extent) : Prop := extent.width ≠ 0 ∧ extent.height ≠ 0

theorem Extent.or_default_solid (extent : Extent) : extent.orDefault.Solid := by
  constructor <;> simp only [Extent.orDefault] <;> split <;> omega

/-- An open window, with what is known of the overlay that is shown for it. -/
structure OpenWindow (good : Nat → Drawn → Option Overlay → Prop) (screen : Screen)
    (this : OsdManager) (wnd : Nat) (osd : OsdData) (drawn : Drawn) : Prop where
  handle : 0 ≤ osd.handle
  kept : osd.cmd = drawn.set.stored
  countable : drawn.set.elements.length < 2 ^ 30
  few : drawn.set.palette.length ≤ ovlPaletteSize
  solid : (screen.extent wnd).Solid
  shown : good wnd drawn (this.shown osd.handle)

structure Follows (good : Nat → Drawn → Option Overlay → Prop) (screen : Screen)
    (this : OsdManager) : Prop where
  windows : this.osd.length = maxOsdObject
  video : this.video = screen.video
  scaling : this.voScaling = false
  extent : ∀ (wnd : Nat) (osd : OsdData), this.osd[wnd]? = some osd → osd.extent = screen.extent wnd
  closed : ∀ (wnd : Nat) (osd : OsdData), this.osd[wnd]? = some osd →
    screen.drawn wnd = none → osd.handle < 0
  opened : ∀ (wnd : Nat) (osd : OsdData) (drawn : Drawn), this.osd[wnd]? = some osd →
    screen.drawn wnd = some drawn → OpenWindow good screen this wnd osd drawn
  apart : ∀ (wnd place : Nat) (osd other : OsdData), this.osd[wnd]? = some osd →
    this.osd[place]? = some other → 0 ≤ osd.handle → osd.handle = other.handle → wnd = place

theorem get_set {Entry : Type} {table : List Entry} {wnd place : Nat} {old new found : Entry}
    (present : table[wnd]? = some old) (got : (table.set wnd new)[place]? = some found) :
    place = wnd ∧ found = new ∨ place ≠ wnd ∧ table[place]? = some found := by
  obtain ⟨within, -⟩ := List.getElem?_eq_some_iff.mp present
  by_cases same : place = wnd
  · subst same
    rw [List.getElem?_set_self within] at got
    exact .inl ⟨rfl, (Option.some.inj got).symm⟩
  · rw [List.getElem?_set_ne (Ne.symm same)] at got
    exact .inr ⟨same, got⟩

section Steps

variable {manager : OverlayManager} {good better : Nat → Drawn → Option Overlay → Prop}
  {screen : Screen} {this : OsdManager} {wnd : Nat} {osd : OsdData}

/-- A window that can be drawn: it has a handle of its own. -/
structure Drawable (screen : Screen) (this : OsdManager) (wnd : Nat) (ready : OsdData) : Prop where
  natural : 0 ≤ ready.handle
  extent : ready.extent = screen.extentToDraw wnd
  own : ∀ (place : Nat) (other : OsdData), place ≠ wnd → this.osd[place]? = some other →
    other.handle ≠ ready.handle

theorem Follows.drawable (manager : OverlayManager) (follows : Follows good screen this)
    (present : this.osd[wnd]? = some osd) (cmd : Command) :
    Drawable screen this wnd (OsdManager.opened manager this { osd with cmd }) := by
  by_cases closed : osd.handle < 0
  · have undrawn : screen.drawn wnd = none := by
      cases drawn : screen.drawn wnd with
      | none => rfl
      | some last =>
          have open_ := (follows.opened wnd osd last present drawn).handle
          omega
    rw [OsdManager.opened, if_pos closed]
    refine ⟨manager.natural _, ?_, ?_⟩
    · rw [Screen.extentToDraw, undrawn, if_neg (by simp)]
      exact congrArg Extent.orDefault (follows.extent wnd osd present)
    intro place other _ stored same
    apply manager.unused (this.osd.map OsdData.handle)
    have used := List.mem_map_of_mem (f := OsdData.handle) (List.mem_of_getElem? stored)
    rw [same] at used
    exact used
  · have drawn : (screen.drawn wnd).isSome = true := by
      cases drawn : screen.drawn wnd with
      | none => exact absurd (follows.closed wnd osd present drawn) closed
      | some last => rfl
    rw [OsdManager.opened, if_neg closed]
    refine ⟨Int.not_lt.mp closed, ?_, ?_⟩
    · rw [Screen.extentToDraw, if_pos drawn]
      exact follows.extent wnd osd present
    intro place other away stored same
    exact away (follows.apart wnd place osd other present stored (Int.not_lt.mp closed) same.symm).symm

theorem Follows.draws (follows : Follows good screen this) (present : this.osd[wnd]? = some osd)
    {ready : OsdData} (drawable : Drawable screen this wnd ready) {drawn : Drawn}
    (solid : (screen.extentToDraw wnd).Solid) (countable : drawn.set.elements.length < 2 ^ 30)
    (few : drawn.set.palette.length ≤ ovlPaletteSize) {out : Output}
    (noScaling : out.osdScaling = false) (window : Extent) {overlay : Overlay}
    (others : ∀ place other shown, place ≠ wnd → good place other shown → better place other shown)
    (shown : better wnd drawn (some overlay)) :
    Follows better (screen.draws wnd (screen.extentToDraw wnd) drawn)
      { this with
        window
        voScaling := out.osdScaling
        osd := this.osd.set wnd { ready with cmd := drawn.set.stored }
        shown := Function.update this.shown ready.handle (some overlay) } := by
  constructor
  case windows => exact (List.length_set ..).trans follows.windows
  case video => exact follows.video
  case scaling => exact noScaling
  case extent =>
    intro place other stored
    rcases get_set present stored with ⟨rfl, rfl⟩ | ⟨away, stored⟩
    · simp only [Screen.draws, Function.update_self]
      exact drawable.extent
    · simp only [Screen.draws, Function.update_of_ne away]
      exact follows.extent place other stored
  case closed =>
    intro place other stored undrawn
    rcases get_set present stored with ⟨rfl, rfl⟩ | ⟨away, stored⟩
    · simp [Screen.draws] at undrawn
    · simp only [Screen.draws, Function.update_of_ne away] at undrawn
      exact follows.closed place other stored undrawn
  case opened =>
    intro place other last stored current
    rcases get_set present stored with ⟨rfl, rfl⟩ | ⟨away, stored⟩
    · simp only [Screen.draws, Function.update_self, Option.some.injEq] at current
      subst current
      exact ⟨drawable.natural, rfl, countable, few, by simpa [Screen.draws] using solid,
        by simpa using shown⟩
    · simp only [Screen.draws, Function.update_of_ne away] at current
      have before := follows.opened place other last stored current
      refine ⟨before.handle, before.kept, before.countable, before.few, ?_, ?_⟩
      · simpa [Screen.draws, Function.update_of_ne away] using before.solid
      · simp only [Function.update_of_ne (drawable.own place other away stored)]
        exact others place last _ away before.shown
  case apart =>
    intro first second one other stored also natural same
    rcases get_set present stored with ⟨rfl, rfl⟩ | ⟨away, before⟩
    · rcases get_set present also with ⟨rfl, rfl⟩ | ⟨away, before⟩
      · rfl
      · exact absurd same.symm (drawable.own second other away before)
    · rcases get_set present also with ⟨rfl, rfl⟩ | ⟨-, also⟩
      · exact absurd same (drawable.own first one away before)
      · exact follows.apart first second one other before also natural same

variable {out : Output}

theorem exec_ok {queried : Extent} {cmd : Command} {next : OsdManager}
    (performed : this.execOsdSetRle manager out queried wnd osd cmd = .ok next) :
    ∃ overlay kept,
      draw out (OsdManager.opened manager this osd).extent this.video
        (if queriesWindow out cmd.flags then queried else this.window) cmd = .ok (overlay, kept) ∧
      next = { this with
        window := if queriesWindow out cmd.flags then queried else this.window
        voScaling := out.osdScaling
        osd := this.osd.set wnd { OsdManager.opened manager this osd with cmd := kept }
        shown := Function.update this.shown (OsdManager.opened manager this osd).handle
          (some overlay) } := by
  obtain ⟨⟨overlay, kept⟩, drawn, done⟩ := bind_ok_iff.mp performed
  exact ⟨overlay, kept, drawn, (Except.ok.inj done).symm⟩

/-- The window shows what its command asks for, with the extent it has. -/
def Shows (out : Output) (extent video window : Extent) (set : SetCommand)
    (shown : Option Overlay) : Prop :=
  ∃ overlay, shown = some overlay ∧
    draw out extent video window set.stored = .ok (overlay, set.stored)

theorem Follows.exec (follows : Follows good screen this) (old : Command)
    (present : this.osd[wnd]? = some osd) (noScaling : out.osdScaling = false) {queried : Extent}
    {cmd : Command} {set : SetCommand}
    (asks : Asks cmd set) (countable : set.elements.length < 2 ^ 30)
    (solid : (screen.extentToDraw wnd).Solid) (last : Drawn) (same : last.set = set)
    (others : ∀ place other shown, place ≠ wnd → good place other shown → better place other shown)
    (shows_ : ∀ shown, Shows out (screen.extentToDraw wnd) this.video queried set shown →
      better wnd last shown)
    {next : OsdManager}
    (performed : this.execOsdSetRle manager out queried wnd { osd with cmd := old } cmd =
      .ok next) :
    Follows better (screen.draws wnd (screen.extentToDraw wnd) last) next := by
  subst same
  obtain ⟨overlay, kept, drawn, rfl⟩ := exec_ok performed
  have drawable := follows.drawable manager present old
  rw [drawable.extent] at drawn
  obtain ⟨few, rfl, final⟩ := asks.drawn countable drawn
  exact follows.draws present drawable solid countable few noScaling _ others
    (shows_ _ ⟨overlay, rfl, final⟩)

theorem Follows.solid_to_draw (follows : Follows good screen this)
    (present : this.osd[wnd]? = some osd) : (screen.extentToDraw wnd).Solid := by
  rw [Screen.extentToDraw]
  cases drawn : screen.drawn wnd with
  | none => exact Extent.or_default_solid _
  | some last => exact (follows.opened wnd osd last present drawn).solid

/-! ### A change of the video size -/

/-- The command was found whole, and there was an extent to draw it with. -/
def Drawn.Accepted (drawn : Drawn) : Prop :=
  drawn.extent.Solid ∧ drawn.set.command = .ok drawn.set.asRle

/-- The windows below `count` have been drawn again. -/
def redrawn (out : Output) (screen : Screen) (queried : Extent) (count wnd : Nat) (drawn : Drawn)
    (shown : Option Overlay) : Prop :=
  drawn.Accepted ∧ (0 < drawn.set.scaling → wnd < count →
    Shows out (screen.extent wnd) screen.video queried drawn.set shown)

theorem Follows.redraw {queried : Extent} {count : Nat}
    (follows : Follows (redrawn out screen queried count) screen this)
    (within : count < maxOsdObject) (noScaling : out.osdScaling = false) {next : OsdManager}
    (performed : this.redraw manager out queried count = .ok next) :
    Follows (redrawn out screen queried (count + 1)) screen next := by
  have inside : count < this.osd.length := by
    rw [follows.windows]
    exact within
  have present := List.getElem?_eq_getElem inside
  have others : ∀ place drawn shown, place ≠ count → redrawn out screen queried count place drawn
      shown → redrawn out screen queried (count + 1) place drawn shown := by
    intro place drawn shown away before
    exact ⟨before.1, fun scaling later => before.2 scaling (by omega)⟩
  rw [OsdManager.redraw, present] at performed
  by_cases asked : 0 ≤ this.osd[count].handle ∧ this.osd[count].cmd.data ≠ none ∧
      0 < this.osd[count].cmd.scaling
  · simp only [if_pos asked] at performed
    cases current : screen.drawn count with
    | none => exact absurd (follows.closed count _ present current) (Int.not_lt.mpr asked.1)
    | some drawn =>
        have open_ := follows.opened count _ drawn present current
        rw [open_.kept] at performed
        have sized : screen.extentToDraw count = screen.extent count := by
          simp [Screen.extentToDraw, current]
        have after := follows.exec noCommand present noScaling (.inr rfl) open_.countable
          (follows.solid_to_draw present) drawn rfl others
          (fun shown shows_ => ⟨open_.shown.1, fun _ _ => by
            rwa [sized, follows.video] at shows_⟩) performed
        rwa [sized, Screen.draws, Function.update_eq_self, ← current, Function.update_eq_self]
          at after
  · simp only [if_neg asked] at performed
    cases performed
    constructor
    case opened =>
      intro place osd drawn stored current
      have before := follows.opened place osd drawn stored current
      refine ⟨before.handle, before.kept, before.countable, before.few, before.solid,
        before.shown.1, ?_⟩
      intro scaling later
      by_cases here : place = count
      · subst here
        obtain rfl := Option.some.inj (present.symm.trans stored)
        rw [before.kept] at asked
        exact absurd ⟨before.handle, by simp [SetCommand.stored, SetCommand.asRle], scaling⟩ asked
      · exact before.shown.2 scaling (by omega)
    all_goals first
      | exact follows.windows
      | exact follows.video
      | exact follows.scaling
      | exact follows.extent
      | exact follows.closed
      | exact follows.apart

end Steps

end Xineliboutput.Osd.Rle
