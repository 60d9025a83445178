import Xineliboutput.Osd.OsdStack
import Xineliboutput.Osd.HandleAccount

/-!
# What one OSD draws

The messages of one object name only its own windows and leave all others as they are. What
`Flush` sends completes the picture: a bitmap is sent whole or is shown already, a place of
the pixmaps is sent in a dirty region or was painted before.
-/

namespace Xineliboutput.Osd.Stack

open Xineliboutput.Foundation
open Xineliboutput.Osd.Rle

set_option autoImplicit false

variable {setting : Setting} {answers : Answers} {screen : Screen} {this : XinelibOsd}

/-! ## Messages and windows -/

def OsdMessage.Uses (handles : List Int) : OsdMessage → Prop
  | .window (.size wnd _ _) => wnd ∈ handles
  | .window (.close wnd _) => wnd ∈ handles
  | .window .flush => True
  | .videoWindow wnd _ => wnd ∈ handles
  | .setLut8 wnd _ => ∃ handle ∈ handles, wnd = some handle
  | .setArgb wnd _ => ∃ handle ∈ handles, wnd = some handle

def OsdMessage.Spares (wnd : Int) : OsdMessage → Prop
  | .window (.close closed _) => closed ≠ wnd
  | .setLut8 set _ | .setArgb set _ => set ≠ some wnd
  | .window (.size _ _ _) | .window .flush | .videoWindow _ _ => True

theorem OsdMessage.Uses.spares {handles : List Int} {message : OsdMessage}
    (uses : message.Uses handles) {wnd : Int} (other : wnd ∉ handles) : message.Spares wnd := by
  cases message with
  | window command =>
      cases command with
      | size _ width height => trivial
      | close closed refresh => exact fun same => other (same ▸ uses)
      | flush => trivial
  | videoWindow _ place => trivial
  | setLut8 set picture =>
      rcases uses with ⟨handle, member, rfl⟩
      exact fun same => other (Option.some.inj same ▸ member)
  | setArgb set picture =>
      rcases uses with ⟨handle, member, rfl⟩
      exact fun same => other (Option.some.inj same ▸ member)

theorem receive_spared {message : OsdMessage} {wnd : Int} (spares : message.Spares wnd) :
    screen.receive message wnd = screen wnd := by
  cases message with
  | window command =>
      cases command with
      | size _ width height => rfl
      | close closed refresh => exact Function.update_of_ne (Ne.symm spares) _ _
      | flush => rfl
  | videoWindow _ place => rfl
  | setLut8 set picture =>
      cases set with
      | none => rfl
      | some set => exact Function.update_of_ne (fun same => spares (congrArg some same.symm)) _ _
  | setArgb set picture =>
      cases set with
      | none => rfl
      | some set => exact Function.update_of_ne (fun same => spares (congrArg some same.symm)) _ _

theorem receive_all_append (first second : List OsdMessage) :
    screen.receiveAll (first ++ second) = (screen.receiveAll first).receiveAll second :=
  List.foldl_append

theorem receive_all_spared {messages : List OsdMessage} {wnd : Int}
    (spares : ∀ message ∈ messages, message.Spares wnd) :
    screen.receiveAll messages wnd = screen wnd := by
  induction messages generalizing screen with
  | nil => rfl
  | cons message messages ih =>
      calc screen.receiveAll (message :: messages) wnd
          = (screen.receive message).receiveAll messages wnd := rfl
        _ = screen.receive message wnd :=
            ih fun later member => spares later (List.mem_cons_of_mem _ member)
        _ = screen wnd := receive_spared (spares message List.mem_cons_self)

theorem receive_all_elsewhere {handles : List Int} {messages : List OsdMessage}
    (uses : ∀ message ∈ messages, message.Uses handles) {wnd : Int} (other : wnd ∉ handles) :
    screen.receiveAll messages wnd = screen wnd :=
  receive_all_spared fun message member => (uses message member).spares other

def OsdMessage.Quiet (message : OsdMessage) : Prop := ∀ wnd, message.Spares wnd

theorem receive_all_quiet {messages : List OsdMessage}
    (quiet : ∀ message ∈ messages, message.Quiet) : screen.receiveAll messages = screen := by
  funext wnd
  exact receive_all_spared fun message member => quiet message member wnd

/-! ## Handles -/

/-- The array of an object ends behind its handles, which are as many as it needs. -/
structure Equipped (this : XinelibOsd) : Prop where
  device : this.window.device = true
  array : ∀ array, this.window.windowHandles = some array →
    array = listed array ++ [-1] ∧ (listed array).Nodup ∧
      this.content.windows ≤ (listed array).length

def Drawable (this : XinelibOsd) : Prop :=
  this.window.windowHandles = none → this.content = .bitmaps []

theorem Equipped.handle_at_inj (equipped : Equipped this) {first second : Nat} {wnd : Int}
    (one : this.handleAt first = some wnd) (other : this.handleAt second = some wnd) :
    first = second := by
  rcases Option.bind_eq_some_iff.mp one with ⟨array, held, atFirst⟩
  have atSecond : array[second]? = some wnd := by
    rw [XinelibOsd.handleAt, held] at other
    exact other
  rcases equipped.array array held with ⟨ended, nodup, -⟩
  have apart : (-1 : Int) ∉ listed array := fun member => by
    have natural := listed_natural array (-1) member
    omega
  have distinct : array.Nodup := by
    rw [ended]
    apply List.nodup_append.mpr
    refine ⟨nodup, List.nodup_singleton _, ?_⟩
    intro handle member ending last
    rw [List.mem_singleton.mp last]
    exact fun same => apart (same ▸ member)
  rcases List.getElem?_eq_some_iff.mp atFirst with ⟨inside, -⟩
  exact (List.getElem?_inj inside distinct).mp (atFirst.trans atSecond.symm)

theorem Equipped.handle_at (equipped : Equipped this) (drawable : Drawable this) {wnd : Nat}
    (needed : wnd < this.content.windows) :
    ∃ inside : wnd < this.handles.length, this.handleAt wnd = some this.handles[wnd] := by
  cases held : this.window.windowHandles with
  | none =>
      rw [drawable held] at needed
      exact absurd needed (Nat.not_lt_zero wnd)
  | some array =>
      rcases equipped.array array held with ⟨ended, -, enough⟩
      have handles : this.handles = listed array := by rw [XinelibOsd.handles, held, Option.elim_some]
      have within : wnd < (listed array).length := Nat.lt_of_lt_of_le needed enough
      have handled : wnd < this.handles.length := handles ▸ within
      apply Exists.intro handled
      calc this.handleAt wnd
          = array[wnd]? := by rw [XinelibOsd.handleAt, held, Option.bind_some]
        _ = (listed array ++ [-1])[wnd]? := by rw [← ended]
        _ = (listed array)[wnd]? := List.getElem?_append_left within
        _ = this.handles[wnd]? := by rw [handles]
        _ = some this.handles[wnd] := List.getElem?_eq_getElem handled

theorem close_windows_messages (this : XinelibOsd) :
    ∃ behind : List OsdMessage, (∀ message ∈ behind, message = .window .flush) ∧
      this.closeWindows =
        (if this.window.isVisible = true ∧ this.window.device = true then
          this.handles.map fun wnd => .window (.close wnd this.window.refresh) else []) ++ behind := by
  unfold XinelibOsd.closeWindows WindowOsd.closeWindows XinelibOsd.handles
  cases this.window.windowHandles with
  | none =>
      apply Exists.intro
        ((if this.window.device = true ∧ this.window.refresh = false then [WindowCommand.flush]
          else []).map OsdMessage.window)
      constructor
      · intro message member
        split at member
        · exact List.mem_singleton.mp member
        · cases member
      · simp
  | some array =>
      apply Exists.intro
        ((if this.window.device = true ∧ this.window.refresh = false then [WindowCommand.flush]
          else []).map OsdMessage.window)
      constructor
      · intro message member
        split at member
        · exact List.mem_singleton.mp member
        · cases member
      · dsimp only [Option.elim_some]
        rw [List.map_append]
        congr 1
        split <;> simp

theorem close_windows_uses (this : XinelibOsd) :
    ∀ message ∈ this.closeWindows, message.Uses this.handles := by
  rcases close_windows_messages this with ⟨behind, flushes, same⟩
  intro message member
  rw [same] at member
  rcases List.mem_append.mp member with closed | late
  · split at closed
    · rcases List.mem_map.mp closed with ⟨wnd, owned, rfl⟩
      exact owned
    · cases closed
  · rw [flushes message late]
    trivial

theorem receive_all_close (wnds : List Int) (refresh : Bool) {wnd : Int} (member : wnd ∈ wnds) :
    screen.receiveAll (wnds.map fun wnd => .window (.close wnd refresh)) wnd = none := by
  induction wnds generalizing screen with
  | nil => cases member
  | cons first wnds ih =>
      by_cases later : wnd ∈ wnds
      · exact ih later
      · have same : wnd = first := (List.mem_cons.mp member).resolve_right later
        have others : ∀ message ∈ wnds.map fun wnd => OsdMessage.window (.close wnd refresh),
            message.Uses wnds := by
          intro message closed
          rcases List.mem_map.mp closed with ⟨other, owned, rfl⟩
          exact owned
        have kept := @receive_all_elsewhere (screen.receive (.window (.close first refresh))) wnds _
          others wnd later
        apply kept.trans
        rw [same]
        exact Function.update_self _ _ _

theorem close_windows_closes (visible : this.window.isVisible = true)
    (device : this.window.device = true) {wnd : Int} (owned : wnd ∈ this.handles) :
    screen.receiveAll this.closeWindows wnd = none := by
  rcases close_windows_messages this with ⟨behind, flushes, same⟩
  have quiet : ∀ message ∈ behind, message.Quiet := fun message member =>
    flushes message member ▸ fun _ => trivial
  rw [same, if_pos ⟨visible, device⟩, receive_all_append, receive_all_quiet quiet]
  exact receive_all_close _ _ owned

theorem cmd_size_messages (this : XinelibOsd) (width height : Nat) :
    ∀ message ∈ this.cmdSize width height, message.Uses this.handles ∧ message.Quiet := by
  intro message member
  rcases List.mem_map.mp member with ⟨command, sized, rfl⟩
  unfold WindowOsd.cmdSize at sized
  unfold XinelibOsd.handles
  split at sized
  · cases sized
  · rename_i array held
    rw [held]
    split at sized
    · rcases List.mem_map.mp sized with ⟨wnd, owned, rfl⟩
      exact ⟨owned, fun _ => trivial⟩
    · cases sized

theorem cmd_video_window_messages (this : XinelibOsd) (place : Region) :
    ∀ message ∈ this.cmdVideoWindow place, message.Uses this.handles ∧ message.Quiet := by
  intro message member
  unfold XinelibOsd.cmdVideoWindow at member
  unfold XinelibOsd.handles
  split at member
  · cases member
  · rename_i array held
    rw [held]
    split at member
    · rcases List.mem_map.mp member with ⟨wnd, owned, rfl⟩
      exact ⟨owned, fun _ => trivial⟩
    · cases member

/-! ## What is shown -/

/-- The picture is that of the bitmap. Subtitles may be moved to the middle of the screen. -/
structure Lut8.Of (setting : Setting) (this : XinelibOsd) (bitmap : Bitmap) (picture : Lut8) :
    Prop where
  width : picture.w = bitmap.width
  height : picture.h = bitmap.height
  place : this.window.layer ≠ osdLevelTtxtsubs →
    picture.x = this.left + bitmap.x0 ∧ picture.y = this.top + bitmap.y0
  color : ∀ column < bitmap.width, ∀ row < bitmap.height,
    picture.palette[(picture.data column row).toNat]? =
      (bitmap.color column row).map (prepareColor setting)

def ShowsBitmap (setting : Setting) (screen : Screen) (this : XinelibOsd) (i : Nat)
    (bitmap : Bitmap) : Prop :=
  ∃ wnd picture, this.handleAt i = some wnd ∧ screen wnd = some (.lut8 picture) ∧
    picture.Of setting this bitmap

def ShowsPixel (screen : Screen) (this : XinelibOsd) (surface : Surface) (x y : Int) : Prop :=
  ∃ wnd, this.handleAt 0 = some wnd ∧
    Window.painted (screen wnd) (this.left + x) (this.top + y) = some (surface.pixel x y)

def Shown (setting : Setting) (screen : Screen) (this : XinelibOsd) : Prop :=
  match this.content with
  | .bitmaps list => ∀ (i : Nat) bitmap, list[i]? = some bitmap →
      ShowsBitmap setting screen this i bitmap
  | .pixmaps surface => ∀ x y, surface.area.Has x y → ShowsPixel screen this surface x y

/-- What they do not show is sent with the next `Flush`. -/
def Tracked (setting : Setting) (screen : Screen) (this : XinelibOsd) : Prop :=
  match this.content with
  | .bitmaps list => ∀ (i : Nat) bitmap, list[i]? = some bitmap →
      this.Redraws bitmap ∨ ShowsBitmap setting screen this i bitmap
  | .pixmaps surface => ∀ x y, surface.area.Has x y →
      surface.Dirty x y ∨ ShowsPixel screen this surface x y

theorem Shown.tracked (shown : Shown setting screen this) : Tracked setting screen this := by
  unfold Shown at shown
  unfold Tracked
  cases content : this.content with
  | bitmaps list =>
      rw [content] at shown
      exact fun i bitmap found => .inr (shown i bitmap found)
  | pixmaps surface =>
      rw [content] at shown
      exact fun x y inside => .inr (shown x y inside)

/-- Whatever does not touch the windows of the object keeps what they show. -/
theorem Tracked.elsewhere (tracked : Tracked setting screen this) {after : Screen}
    (same : ∀ wnd ∈ this.handles, after wnd = screen wnd) (equipped : Equipped this)
    (drawable : Drawable this) : Tracked setting after this := by
  have kept : ∀ wnd i, this.handleAt i = some wnd → i < this.content.windows →
      after wnd = screen wnd := by
    intro wnd i found needed
    rcases equipped.handle_at drawable needed with ⟨inside, held⟩
    apply same
    rw [Option.some.inj (found.symm.trans held)]
    exact List.getElem_mem inside
  unfold Tracked at tracked ⊢
  cases content : this.content with
  | bitmaps list =>
      rw [content] at tracked kept
      intro i bitmap found
      rcases tracked i bitmap found with dirty | ⟨wnd, picture, held, shows, exact_picture⟩
      · exact .inl dirty
      · have needed : i < list.length := (List.getElem?_eq_some_iff.mp found).choose
        exact .inr ⟨wnd, picture, held, (kept wnd i held needed).trans shows, exact_picture⟩
  | pixmaps surface =>
      rw [content] at tracked kept
      intro x y inside
      rcases tracked x y inside with dirty | ⟨wnd, held, painted⟩
      · exact .inl dirty
      · exact .inr ⟨wnd, held, by rw [kept wnd 0 held Nat.zero_lt_one]; exact painted⟩

/-! ## `Flush` -/

theorem flush_bitmap_messages (shift : Int × Int) (this : XinelibOsd) (i : Nat) (bitmap : Bitmap) :
    ∀ message ∈ this.flushBitmap setting shift i bitmap,
      ∃ picture, message = .setLut8 (this.handleAt i) picture := by
  intro message member
  unfold XinelibOsd.flushBitmap XinelibOsd.cmdLut8 at member
  split at member
  · split at member
    · cases member
    · split at member
      · exact ⟨_, List.mem_singleton.mp member⟩
      · cases member
  · cases member

theorem flush_bitmaps_messages (shift : Int × Int) (this : XinelibOsd) (list : List Bitmap)
    (i : Nat) :
    ∀ message ∈ this.flushBitmaps setting shift i list,
      ∃ k picture, i ≤ k ∧ k < i + list.length ∧ message = .setLut8 (this.handleAt k) picture := by
  induction list generalizing i with
  | nil =>
      intro message member
      cases member
  | cons bitmap list ih =>
      intro message member
      rcases List.mem_append.mp member with now | later
      · rcases flush_bitmap_messages shift this i bitmap message now with ⟨picture, same⟩
        exact ⟨i, picture, Nat.le_refl i, by simp, same⟩
      · rcases ih (i + 1) message later with ⟨k, picture, behind, within, same⟩
        exact ⟨k, picture, by omega, by rw [List.length_cons]; omega, same⟩

/-- A bitmap is sent whole, unless it was cleaned and nothing is to be sent again. -/
theorem flush_bitmap_shows {shift : Int × Int} {i : Nat} {bitmap : Bitmap} {wnd : Int}
    (device : this.window.device = true) (colored : bitmap.colors ≠ [])
    (unmoved : this.window.layer ≠ osdLevelTtxtsubs → shift = (0, 0))
    (held : this.handleAt i = some wnd)
    (tracked : this.Redraws bitmap ∨ ShowsBitmap setting screen this i bitmap) :
    ShowsBitmap setting (screen.receiveAll (this.flushBitmap setting shift i bitmap)) this i
      bitmap := by
  unfold XinelibOsd.flushBitmap
  by_cases redraws : this.Redraws bitmap
  · rw [if_pos redraws]
    cases colors : bitmap.colors with
    | nil => exact absurd colors colored
    | cons first rest =>
        dsimp only
        rw [← colors, XinelibOsd.cmdLut8, if_pos device, held]
        refine ⟨wnd, _, held, Function.update_self _ _ _, ?_⟩
        constructor
        case width => rfl
        case height => rfl
        case place =>
          intro ordinary
          rw [unmoved ordinary]
          exact ⟨Int.add_zero _, Int.add_zero _⟩
        case color =>
          intro column _ row _
          exact List.getElem?_map
  · rw [if_neg redraws]
    exact tracked.resolve_left redraws

theorem ShowsBitmap.spared {i : Nat} {bitmap : Bitmap}
    (shows : ShowsBitmap setting screen this i bitmap) {messages : List OsdMessage}
    (spares : ∀ wnd, this.handleAt i = some wnd → ∀ message ∈ messages, message.Spares wnd) :
    ShowsBitmap setting (screen.receiveAll messages) this i bitmap := by
  rcases shows with ⟨wnd, picture, held, shown, exact_picture⟩
  exact ⟨wnd, picture, held, (receive_all_spared (spares wnd held)).trans shown, exact_picture⟩

/-- `Flush` on the bitmaps from the `i`th on. -/
theorem flush_bitmaps_show {shift : Int × Int} (equipped : Equipped this)
    (unmoved : this.window.layer ≠ osdLevelTtxtsubs → shift = (0, 0)) (list : List Bitmap) (i : Nat)
    (colored : ∀ bitmap ∈ list, bitmap.colors ≠ [])
    (held : ∀ k, k < i + list.length → ∃ wnd, this.handleAt k = some wnd)
    (tracked : ∀ (k : Nat) bitmap, list[k]? = some bitmap →
      this.Redraws bitmap ∨ ShowsBitmap setting screen this (i + k) bitmap) :
    ∀ (k : Nat) bitmap, list[k]? = some bitmap →
      ShowsBitmap setting (screen.receiveAll (this.flushBitmaps setting shift i list)) this (i + k)
        bitmap := by
  induction list generalizing i screen with
  | nil =>
      intro k bitmap found
      cases found
  | cons first list ih =>
      have rest : ∀ k, k < i + 1 + list.length → ∃ wnd, this.handleAt k = some wnd := by
        intro k within
        apply held k
        rw [List.length_cons]
        omega
      have apart : ∀ j k, j ≠ k → ∀ wnd, this.handleAt j = some wnd → ∀ picture,
          OsdMessage.Spares wnd (.setLut8 (this.handleAt k) picture) := by
        intro j k differ wnd atJ picture same
        exact differ (equipped.handle_at_inj atJ same)
      intro k bitmap found
      show ShowsBitmap setting (screen.receiveAll (_ ++ _)) this (i + k) bitmap
      rw [receive_all_append]
      cases k with
      | zero =>
          cases found
          rcases held i (by rw [List.length_cons]; omega) with ⟨wnd, atFirst⟩
          have sent := @flush_bitmap_shows setting screen this shift i first wnd equipped.device
            (colored first List.mem_cons_self) unmoved atFirst (tracked 0 first rfl)
          apply sent.spared
          intro wnd atFirst message member
          rcases flush_bitmaps_messages shift this list (i + 1) message member with
            ⟨k, picture, behind, -, rfl⟩
          exact apart i k (by omega) wnd atFirst picture
      | succ k =>
          have place : i + (k + 1) = i + 1 + k := by omega
          rw [place]
          apply ih (i + 1) (fun bitmap member => colored bitmap (List.mem_cons_of_mem _ member)) rest
          · intro k bitmap found
            rcases tracked (k + 1) bitmap found with redraws | shows
            · exact .inl redraws
            · have place : i + (k + 1) = i + 1 + k := by omega
              rw [place] at shows
              apply Or.inr
              apply shows.spared
              intro wnd held message member
              rcases flush_bitmap_messages shift this i first message member with ⟨picture, rfl⟩
              exact apart (i + 1 + k) i (by omega) wnd held picture
          · exact found

theorem region_place {left top : Int} {viewPort : Region} {x y : Int} :
    (⟨left + viewPort.left, top + viewPort.top, viewPort.width, viewPort.height⟩ : Region).Has
      (left + x) (top + y) ↔ viewPort.Has x y := by
  unfold Region.Has
  dsimp only
  omega

theorem region_data {left top : Int} {viewPort : Region} {x y : Int} (inside : viewPort.Has x y)
    (pixel : Int → Int → UInt32) :
    pixel (viewPort.left + ((left + x - (left + viewPort.left)).toNat : Int))
      (viewPort.top + ((top + y - (top + viewPort.top)).toNat : Int)) = pixel x y := by
  unfold Region.Has at inside
  congr 1 <;> omega

theorem flush_pixmaps_messages (this : XinelibOsd) (pixel : Int → Int → UInt32)
    (dirty : List Region) :
    ∀ message ∈ this.flushPixmaps pixel dirty,
      ∃ picture, message = .setArgb (this.handleAt 0) picture := by
  intro message member
  rcases List.mem_flatMap.mp member with ⟨viewPort, -, drawn⟩
  unfold XinelibOsd.cmdArgb at drawn
  split at drawn
  · exact ⟨_, List.mem_singleton.mp drawn⟩
  · cases drawn

/-- The loop over `RenderPixmaps` paints what is dirty. -/
theorem flush_pixmaps_paints (device : this.window.device = true) (pixel : Int → Int → UInt32)
    {wnd : Int} (held : this.handleAt 0 = some wnd) (dirty : List Region) {x y : Int}
    (tracked : (∃ region ∈ dirty, region.Has x y) ∨
      Window.painted (screen wnd) (this.left + x) (this.top + y) = some (pixel x y)) :
    Window.painted (screen.receiveAll (this.flushPixmaps pixel dirty) wnd) (this.left + x)
      (this.top + y) = some (pixel x y) := by
  induction dirty generalizing screen with
  | nil =>
      rcases tracked with ⟨region, member, -⟩ | painted
      · cases member
      · exact painted
  | cons viewPort dirty ih =>
      show Window.painted (screen.receiveAll (_ ++ this.flushPixmaps pixel dirty) wnd) _ _ = _
      rw [receive_all_append]
      apply ih
      dsimp only
      rw [XinelibOsd.cmdArgb, if_pos device, held]
      show _ ∨ Window.painted (Function.update screen wnd _ wnd) _ _ = _
      rw [Function.update_self]
      by_cases here : viewPort.Has x y
      · apply Or.inr
        show Argb.over _ _ _ _ = _
        unfold Argb.over
        rw [if_pos (region_place.mpr here)]
        exact congrArg some (region_data here pixel)
      · rcases tracked with ⟨region, member, inside⟩ | painted
        · rcases List.mem_cons.mp member with rfl | later
          · exact absurd inside here
          · exact .inl ⟨region, later, inside⟩
        · apply Or.inr
          show Argb.over _ _ _ _ = _
          unfold Argb.over
          rw [if_neg (mt region_place.mp here)]
          exact painted

/-- An object with handles and colors for what it shows. -/
structure Ready (this : XinelibOsd) : Prop where
  equipped : Equipped this
  colored : ∀ list, this.content = .bitmaps list → ∀ bitmap ∈ list, bitmap.colors ≠ []

theorem flush_hidden (hidden : this.window.isVisible = false) :
    this.flush setting answers = (this, []) := if_pos hidden

theorem placed_messages (this : XinelibOsd) (videoWindow : Option Region) :
    ∀ message ∈ videoWindow.elim [] this.cmdVideoWindow,
      message.Uses this.handles ∧ message.Quiet := by
  cases videoWindow with
  | none =>
      intro message member
      cases member
  | some place => exact cmd_video_window_messages this place

theorem offset_unmoved (this : XinelibOsd) (ordinary : this.window.layer ≠ osdLevelTtxtsubs) :
    this.offset setting answers = (0, 0) :=
  if_neg fun moved => ordinary moved.2

theorem flush_bitmaps (visible : this.window.isVisible = true) {list : List Bitmap}
    (content : this.content = .bitmaps list) :
    this.flush setting answers =
      ({ this with content := .bitmaps (list.map Bitmap.clean) },
        answers.videoWindow.elim [] this.cmdVideoWindow ++
          this.flushBitmaps setting (this.offset setting answers) 0 list) := by
  unfold XinelibOsd.flush
  rw [if_neg (by simp [visible]), content]

theorem flush_pixmaps (visible : this.window.isVisible = true) {surface : Surface}
    (content : this.content = .pixmaps surface) :
    this.flush setting answers =
      ({ this with content := .pixmaps { surface with dirty := [] } },
        answers.videoWindow.elim [] this.cmdVideoWindow ++
          this.flushPixmaps surface.pixel surface.dirty) := by
  unfold XinelibOsd.flush
  rw [if_neg (by simp [visible]), content]

theorem flush_uses (equipped : Equipped this) (drawable : Drawable this) :
    ∀ message ∈ (this.flush setting answers).2, message.Uses this.handles := by
  have named : ∀ k, k < this.content.windows → ∃ handle ∈ this.handles,
      this.handleAt k = some handle := by
    intro k needed
    rcases equipped.handle_at drawable needed with ⟨inside, held⟩
    exact ⟨_, List.getElem_mem inside, held⟩
  cases visible : this.window.isVisible with
  | false =>
      rw [flush_hidden visible]
      intro message member
      cases member
  | true =>
      cases content : this.content with
      | bitmaps list =>
          rw [flush_bitmaps visible content]
          rw [content] at named
          intro message member
          rcases List.mem_append.mp member with placed | drawn
          · exact (placed_messages this _ message placed).1
          · rcases flush_bitmaps_messages _ this list 0 message drawn with
              ⟨k, picture, -, within, rfl⟩
            apply named k
            rw [Nat.zero_add] at within
            exact within
      | pixmaps surface =>
          rw [flush_pixmaps visible content]
          rw [content] at named
          intro message member
          rcases List.mem_append.mp member with placed | drawn
          · exact (placed_messages this _ message placed).1
          · rcases flush_pixmaps_messages this surface.pixel surface.dirty message drawn with
              ⟨picture, rfl⟩
            exact named 0 Nat.zero_lt_one

/-- `Flush` of a visible object completes what its windows show. -/
theorem flush_shows (ready : Ready this) (drawable : Drawable this)
    (visible : this.window.isVisible = true) (tracked : Tracked setting screen this) :
    Shown setting (screen.receiveAll (this.flush setting answers).2)
      (this.flush setting answers).1 := by
  have quiet : ∀ message ∈ answers.videoWindow.elim [] this.cmdVideoWindow, message.Quiet :=
    fun message member => (placed_messages this _ message member).2
  have named : ∀ k, k < this.content.windows → ∃ wnd, this.handleAt k = some wnd := by
    intro k needed
    rcases ready.equipped.handle_at drawable needed with ⟨inside, held⟩
    exact ⟨_, held⟩
  unfold Tracked at tracked
  cases content : this.content with
  | bitmaps list =>
      rw [content] at tracked named
      rw [flush_bitmaps visible content]
      dsimp only
      rw [receive_all_append, receive_all_quiet quiet]
      have shows := flush_bitmaps_show ready.equipped (@offset_unmoved setting answers this) list 0
        (ready.colored list content) (by rw [Nat.zero_add]; exact named)
        (fun k bitmap found => by rw [Nat.zero_add]; exact tracked k bitmap found)
      intro i bitmap found
      rw [List.getElem?_map] at found
      rcases Option.map_eq_some_iff.mp found with ⟨before, there, rfl⟩
      rcases shows i before there with ⟨wnd, picture, held, shown, exact_picture⟩
      rw [Nat.zero_add] at held
      exact ⟨wnd, picture, held, shown, exact_picture.width, exact_picture.height,
        exact_picture.place, exact_picture.color⟩
  | pixmaps surface =>
      rw [content] at tracked named
      rw [flush_pixmaps visible content]
      dsimp only
      rw [receive_all_append, receive_all_quiet quiet]
      rcases named 0 Nat.zero_lt_one with ⟨wnd, held⟩
      intro x y inside
      apply Exists.intro wnd
      constructor
      · exact held
      · apply flush_pixmaps_paints ready.equipped.device surface.pixel held surface.dirty
        rcases tracked x y inside with dirty | ⟨other, same, painted⟩
        · exact .inl dirty
        · rw [Option.some.inj (held.symm.trans same)]
          exact .inr painted

/-- `Flush` changes nothing but what is still to be sent. -/
theorem flush_next (ready : Ready this) :
    Ready (this.flush setting answers).1 ∧
      (this.flush setting answers).1.window = this.window ∧
      (this.flush setting answers).1.serial = this.serial := by
  cases visible : this.window.isVisible with
  | false =>
      rw [flush_hidden visible]
      exact ⟨ready, rfl, rfl⟩
  | true =>
      cases content : this.content with
      | bitmaps list =>
          rw [flush_bitmaps visible content]
          refine ⟨⟨⟨ready.equipped.device, ?_⟩, ?_⟩, rfl, rfl⟩
          · intro array held
            rcases ready.equipped.array array held with ⟨ended, nodup, enough⟩
            rw [content] at enough
            refine ⟨ended, nodup, ?_⟩
            show (list.map Bitmap.clean).length ≤ _
            rw [List.length_map]
            exact enough
          · rintro cleaned ⟨⟩ bitmap member
            rcases List.mem_map.mp member with ⟨before, there, rfl⟩
            exact ready.colored list content before there
      | pixmaps surface =>
          rw [flush_pixmaps visible content]
          refine ⟨⟨⟨ready.equipped.device, ?_⟩, nofun⟩, rfl, rfl⟩
          intro array held
          rcases ready.equipped.array array held with ⟨ended, nodup, enough⟩
          rw [content] at enough
          exact ⟨ended, nodup, enough⟩

/-! ## Messages to an object -/

/-- What `Hide`, `Flush`, `Refresh` and `Show` have in common. -/
structure Behaves (setting : Setting) (this next : XinelibOsd) (messages : List OsdMessage) :
    Prop where
  handles : next.window.windowHandles = this.window.windowHandles
  layer : next.window.layer = this.window.layer
  serial : next.serial = this.serial
  settled : next.window.refresh = false
  ready : Ready next
  uses : ∀ message ∈ messages, message.Uses this.handles
  closes : next.window.isVisible = false → ∀ (screen : Screen), ∀ wnd ∈ this.handles,
    screen.receiveAll messages wnd ≠ none → this.window.isVisible = false ∧ screen wnd ≠ none
  tracks : next.window.isVisible = true → next.window.windowHandles ≠ none →
    ∀ screen : Screen,
      (this.window.isVisible = true → this.window.windowHandles ≠ none →
        Tracked setting screen this) →
      Tracked setting (screen.receiveAll messages) next

/-- The whole of a true-colour OSD is dirty, and there are handles for what is shown. -/
structure Redrawable (this : XinelibOsd) : Prop where
  drawable : Drawable this
  whole : ∀ surface, this.content = .pixmaps surface → ∀ x y, surface.area.Has x y →
    surface.Dirty x y

theorem hide_behaves (ready : Ready this) (settled : this.window.refresh = false) :
    Behaves setting this this.hide.1 this.hide.2 := by
  constructor
  case handles => rfl
  case layer => rfl
  case serial => rfl
  case settled => exact settled
  case ready => exact ⟨⟨ready.equipped.device, ready.equipped.array⟩, ready.colored⟩
  case uses => exact close_windows_uses this
  case closes =>
    intro _ screen wnd owned stays
    cases visible : this.window.isVisible with
    | true => exact absurd (close_windows_closes visible ready.equipped.device owned) stays
    | false =>
        apply And.intro rfl
        rcases close_windows_messages this with ⟨behind, flushes, same⟩
        have quiet : ∀ message ∈ behind, message.Quiet := fun message member =>
          flushes message member ▸ fun _ => trivial
        have nothing : screen.receiveAll this.hide.2 = screen := by
          show screen.receiveAll this.closeWindows = screen
          rw [same, if_neg (by simp [visible])]
          exact receive_all_quiet quiet
        rw [nothing] at stays
        exact stays
  case tracks => nofun

theorem flush_behaves (ready : Ready this) (settled : this.window.refresh = false)
    (drawable : this.window.isVisible = true → Drawable this) :
    Behaves setting this (this.flush setting answers).1 (this.flush setting answers).2 := by
  have next := @flush_next setting answers this ready
  cases visible : this.window.isVisible with
  | false =>
      rw [flush_hidden visible]
      constructor
      case handles => rfl
      case layer => rfl
      case serial => rfl
      case settled => exact settled
      case ready => exact ready
      case uses => nofun
      case closes => exact fun _ screen wnd _ stays => ⟨visible, stays⟩
      case tracks =>
        intro shows
        rw [visible] at shows
        cases shows
  | true =>
      have possible := drawable visible
      constructor
      case handles => rw [next.2.1]
      case layer => rw [next.2.1]
      case serial => exact next.2.2
      case settled => rw [next.2.1]; exact settled
      case ready => exact next.1
      case uses => exact flush_uses ready.equipped possible
      case closes =>
        intro hidden
        rw [next.2.1, visible] at hidden
        cases hidden
      case tracks =>
        intro _ held screen tracked
        rw [next.2.1] at held
        exact (flush_shows ready possible visible (tracked visible held)).tracked

theorem Ready.with_refresh (ready : Ready this) (refresh : Bool) :
    Ready (this.withRefresh refresh) :=
  ⟨⟨ready.equipped.device, ready.equipped.array⟩, ready.colored⟩

theorem Ready.with_visible (ready : Ready this) (isVisible : Bool) :
    Ready (this.withVisible isVisible) :=
  ⟨⟨ready.equipped.device, ready.equipped.array⟩, ready.colored⟩

theorem Shown.with_refresh (shown : Shown setting screen this) (refresh : Bool) :
    Shown setting screen (this.withRefresh refresh) := by
  have same : (this.withRefresh refresh).content = this.content := rfl
  unfold Shown at shown ⊢
  rw [same]
  cases content : this.content with
  | bitmaps list =>
      rw [content] at shown
      intro i bitmap found
      rcases shown i bitmap found with ⟨wnd, picture, held, shows, of⟩
      exact ⟨wnd, picture, held, shows, of.width, of.height, of.place, of.color⟩
  | pixmaps surface =>
      rw [content] at shown
      exact shown

theorem Redrawable.tracked (redrawable : Redrawable this) :
    Tracked setting screen (this.withRefresh true) := by
  unfold Tracked
  cases content : (this.withRefresh true).content with
  | bitmaps list => exact fun i bitmap found => .inl (.inl rfl)
  | pixmaps surface => exact fun x y inside => .inl (redrawable.whole surface content x y inside)

theorem refresh_parts (setting : Setting) (answers : Answers) (this : XinelibOsd) :
    this.refresh setting answers =
      (((this.withRefresh true).flush setting answers).1.withRefresh false,
        ((this.withRefresh true).closeWindows ++
            (this.withRefresh true).cmdSize this.window.extentWidth this.window.extentHeight) ++
          ((this.withRefresh true).flush setting answers).2) := rfl

/-- `Refresh` of a visible object shows its complete content, whatever was shown before. -/
theorem refresh_shows (ready : Ready this) (redrawable : Redrawable this)
    (visible : this.window.isVisible = true) :
    Shown setting (screen.receiveAll (this.refresh setting answers).2)
      (this.refresh setting answers).1 := by
  rw [refresh_parts, receive_all_append]
  apply Shown.with_refresh
  exact flush_shows (ready.with_refresh true) redrawable.drawable visible redrawable.tracked

theorem refresh_next (ready : Ready this) :
    Ready (this.refresh setting answers).1 ∧
      (this.refresh setting answers).1.window = { this.window with refresh := false } ∧
      (this.refresh setting answers).1.serial = this.serial := by
  rcases @flush_next setting answers _ (ready.with_refresh true) with ⟨drawn, window, serial⟩
  rw [refresh_parts]
  refine ⟨drawn.with_refresh false, ?_, serial⟩
  show { ((this.withRefresh true).flush setting answers).1.window with refresh := false } = _
  rw [window]
  rfl

theorem refresh_uses (ready : Ready this)
    (drawable : this.window.isVisible = true → Drawable this) :
    ∀ message ∈ (this.refresh setting answers).2, message.Uses this.handles := by
  have closed := close_windows_uses (this.withRefresh true)
  have sized := cmd_size_messages (this.withRefresh true) this.window.extentWidth
    this.window.extentHeight
  intro message member
  rw [refresh_parts] at member
  rcases List.mem_append.mp member with cleared | drawn
  · rcases List.mem_append.mp cleared with closing | sizing
    · exact closed message closing
    · exact (sized message sizing).1
  · cases visible : this.window.isVisible with
    | false =>
        have hidden : (this.withRefresh true).flush setting answers = (this.withRefresh true, []) :=
          flush_hidden visible
        rw [hidden] at drawn
        cases drawn
    | true =>
        exact flush_uses (ready.with_refresh true).equipped (drawable visible) message drawn

/-- `Refresh` of a hidden object draws nothing. -/
theorem refresh_hidden (hidden : this.window.isVisible = false) :
    screen.receiveAll (this.refresh setting answers).2 = screen := by
  have unseen : (this.withRefresh true).flush setting answers = (this.withRefresh true, []) :=
    flush_hidden hidden
  rcases close_windows_messages (this.withRefresh true) with ⟨behind, flushes, same⟩
  have closing : (this.withRefresh true).closeWindows = behind := by
    rw [same, if_neg fun shown => by
      have visible : this.window.isVisible = true := shown.1
      rw [hidden] at visible
      cases visible]
    rfl
  apply receive_all_quiet
  intro message member
  rw [refresh_parts] at member
  rcases List.mem_append.mp member with cleared | drawn
  · rcases List.mem_append.mp cleared with closed | sized
    · rw [closing] at closed
      rw [flushes message closed]
      exact fun _ => trivial
    · exact (cmd_size_messages (this.withRefresh true) _ _ message sized).2
  · rw [unseen] at drawn
    cases drawn

theorem refresh_behaves (ready : Ready this)
    (redrawable : this.window.isVisible = true → Redrawable this) :
    Behaves setting this (this.refresh setting answers).1 (this.refresh setting answers).2 := by
  rcases @refresh_next setting answers this ready with ⟨next, window, serial⟩
  constructor
  case handles => rw [window]
  case layer => rw [window]
  case serial => exact serial
  case settled => rw [window]
  case ready => exact next
  case uses => exact refresh_uses ready fun visible => (redrawable visible).drawable
  case closes =>
    intro hidden screen wnd _ stays
    rw [window] at hidden
    rw [refresh_hidden hidden] at stays
    exact ⟨hidden, stays⟩
  case tracks =>
    intro shown _ screen _
    rw [window] at shown
    exact (refresh_shows ready (redrawable shown) shown).tracked

theorem show_shows (ready : Ready this) (redrawable : Redrawable this) :
    Shown setting (screen.receiveAll (this.show' setting answers).2)
      (this.show' setting answers).1 :=
  refresh_shows (ready.with_visible true) ⟨redrawable.drawable, redrawable.whole⟩ rfl

theorem show_visible (ready : Ready this) :
    (this.show' setting answers).1.window.isVisible = true := by
  unfold XinelibOsd.show'
  rw [(@refresh_next setting answers _ (ready.with_visible true)).2.1]
  rfl

theorem show_behaves (ready : Ready this) (redrawable : Redrawable this) :
    Behaves setting this (this.show' setting answers).1 (this.show' setting answers).2 := by
  have behaves := @refresh_behaves setting answers _ (ready.with_visible true)
    fun _ => ⟨redrawable.drawable, redrawable.whole⟩
  constructor
  case handles => exact behaves.handles
  case layer => exact behaves.layer
  case serial => exact behaves.serial
  case settled => exact behaves.settled
  case ready => exact behaves.ready
  case uses => exact behaves.uses
  case closes =>
    intro hidden
    rw [show_visible ready] at hidden
    cases hidden
  case tracks => exact fun _ _ screen _ => (show_shows ready redrawable).tracked

end Xineliboutput.Osd.Stack
