import Xineliboutput.Foundation.SharedObjects
import Xineliboutput.Osd.WindowHandles

/-!
# The pixel buffers of ARGB windows

`xine/osd_manager.c`: a layer counts its references, those of the OSD manager and those of
the overlay manager. The buffer that it points to belongs to the OSD manager alone, which
frees it when the window is resized or closed.
-/

namespace Xineliboutput.Osd

open Xineliboutput.Foundation

set_option autoImplicit false

inductive ControlResult where
  | ok
  | paramError
  deriving DecidableEq

namespace Argb

/-- The part of `osd_data_t` that the life of layers depends on. Layers and buffers are
named in the order in which they were allocated. -/
structure OsdData where
  handle : Int
  extentWidth : UInt16
  extentHeight : UInt16
  argbLayer : Option Nat
  argbBuffer : Option Nat

/-- The OSD manager with what it has allocated: the layers, each with its buffer, and how
often each buffer has been freed. The overlay manager holds one reference for each queued
SHOW event and each shown overlay. -/
structure OsdManager where
  osd : List OsdData
  layers : List (Shared.Object Nat)
  frees : List Nat
  users : List Nat

/-- `init_osd_manager` -/
def initOsdManager : OsdManager where
  osd := List.replicate maxOsdObject ⟨-1, 0, 0, none, none⟩
  layers := []
  frees := []
  users := []

/-- What xine answers during a command. -/
structure OverlayAnswers where
  ticket : Bool
  manager : Bool
  argbSupported : Bool
  newHandle : Int

/-- `get_ovl_manager` finds one. -/
def OverlayAnswers.ovlManager (answers : OverlayAnswers) : Bool := answers.ticket && answers.manager

/-- `set_argb_layer`; the caller keeps `src` in place of `dst`. -/
def setArgbLayer (layers : List (Shared.Object Nat)) (dst src : Option Nat) :
    Option (List (Shared.Object Nat)) :=
  (src.elim (some layers) (Shared.retain layers)).bind fun layers =>
    dst.elim (some layers) (Shared.release layers)

/-- `free` of a buffer; nothing happens to NULL. -/
def freeBuffer (frees : List Nat) : Option Nat → List Nat
  | none => frees
  | some buffer => frees.modify buffer (· + 1)

namespace OsdManager

variable (this : OsdManager)

/-- The lines about the layer in `exec_osd_size` and `exec_osd_close`. -/
def releaseArgb (wnd : Nat) (osd : OsdData) : Option OsdManager :=
  (setArgbLayer this.layers osd.argbLayer none).map fun layers =>
    { this with
      osd := this.osd.set wnd { osd with argbLayer := none, argbBuffer := none }
      layers
      frees := freeBuffer this.frees osd.argbBuffer }

/-- `exec_osd_size` -/
def execOsdSize (wnd : Nat) (osd : OsdData) (w h : UInt16) (answers : OverlayAnswers) :
    Option (OsdManager × ControlResult) :=
  (this.releaseArgb wnd { osd with extentWidth := w, extentHeight := h }).map fun this =>
    (this, if answers.ticket then .ok else .paramError)

/-- `OSDFLAG_REFRESH` -/
def isRefresh (flags : UInt8) : Bool := flags &&& 0x02 != 0

/-- `exec_osd_close`. The FREE_HANDLE event lets the overlay manager drop references when
it is executed. -/
def execOsdClose (wnd : Nat) (osd : OsdData) (flags : UInt8) (answers : OverlayAnswers) :
    Option (OsdManager × ControlResult) :=
  if isRefresh flags then some (this, .ok)
  else if osd.handle < 0 then some (this, .paramError)
  else if !answers.ovlManager then some (this, .paramError)
  else
    (this.releaseArgb wnd { osd with
      handle := -1
      extentWidth := 720
      extentHeight := 576 }).map fun this => (this, .ok)

def argbBuffer (osd : OsdData) : Nat × List Nat :=
  match osd.argbBuffer with
  | some buffer => (buffer, this.frees)
  | none => (this.frees.length, this.frees ++ [0])

def argbLayer (osd : OsdData) (buffer : Nat) : Option (Nat × List (Shared.Object Nat)) :=
  match osd.argbLayer with
  | some layer => some (layer, this.layers)
  | none =>
      (setArgbLayer (this.layers ++ [Shared.fresh buffer]) none (some this.layers.length)).map
        fun layers => (this.layers.length, layers)

/-- The reference of `ov_overlay`, that of the SHOW event, and the end of the first. -/
def showLayer (layers : List (Shared.Object Nat)) (layer : Nat) :
    Option (List (Shared.Object Nat)) :=
  (setArgbLayer layers none (some layer)).bind fun layers =>
    (Shared.retain layers layer).bind fun layers => setArgbLayer layers (some layer) none

/-- `exec_osd_set_argb`, up to the pixels. -/
def execOsdSetArgb (wnd : Nat) (osd : OsdData) (answers : OverlayAnswers) :
    Option (OsdManager × ControlResult) :=
  if !answers.ovlManager then some (this, .paramError)
  else if !answers.argbSupported then some (this, .paramError)
  else if osd.extentWidth < 32 ∨ osd.extentHeight < 32 then some (this, .paramError)
  else
    let handle := if osd.handle < 0 then answers.newHandle else osd.handle
    let (buffer, frees) := this.argbBuffer osd
    (this.argbLayer osd buffer).bind fun (layer, layers) =>
      (showLayer layers layer).map fun layers =>
        ({ osd := this.osd.set wnd { osd with
            handle
            argbLayer := some layer
            argbBuffer := some buffer }
           layers
           frees
           users := this.users ++ [layer] }, .ok)

def dropReference (place : Nat) : Option OsdManager :=
  match this.users[place]? with
  | none => some this
  | some layer =>
      (Shared.release this.layers layer).map fun layers =>
        { this with layers, users := this.users.eraseIdx place }

end OsdManager

/-- The commands, as far as they are looked at here, and the steps of the overlay manager,
which it takes at any time. -/
inductive ArgbOperation where
  | size (wnd : Nat) (w h : UInt16) (answers : OverlayAnswers)
  | setArgb (wnd : Nat) (answers : OverlayAnswers)
  | setArgbrle (wnd : Nat) (answers : OverlayAnswers)
  | close (wnd : Nat) (flags : UInt8) (answers : OverlayAnswers)
  | drop (place : Nat)

namespace OsdManager

/-- `exec_osd_command`: a window number is checked before it is used. -/
def withWindow (this : OsdManager) (wnd : Nat)
    (exec : OsdData → Option (OsdManager × ControlResult)) : Option (OsdManager × ControlResult) :=
  if maxOsdObject ≤ wnd then some (this, .paramError)
  else this.osd[wnd]?.bind exec

def execOperation (this : OsdManager) : ArgbOperation → Option (OsdManager × ControlResult)
  | .size wnd w h answers => this.withWindow wnd fun osd => this.execOsdSize wnd osd w h answers
  | .setArgb wnd answers | .setArgbrle wnd answers =>
      this.withWindow wnd fun osd => this.execOsdSetArgb wnd osd answers
  | .close wnd flags answers =>
      this.withWindow wnd fun osd => this.execOsdClose wnd osd flags answers
  | .drop place => (this.dropReference place).map fun this => (this, .ok)

def perform (this : OsdManager) (operation : ArgbOperation) : Option OsdManager :=
  (this.execOperation operation).map Prod.fst

/-! ## What should hold -/

/-- Layers in use have a buffer, a layer is there as long as it is referenced, and a buffer
is freed when its window gives it up, once. -/
structure Lawful (this : OsdManager) : Prop where
  buffers : ∀ layer ∈ this.users, ∃ object, this.layers[layer]? = some object ∧
    this.frees[object.payload]? = some 0
  layers : ∀ layer (within : layer < this.layers.length),
    this.layers[layer].destroyed = true ↔
      layer ∉ this.users ∧ ∀ osd ∈ this.osd, osd.argbLayer ≠ some layer
  freedOnce : ∀ buffer (within : buffer < this.frees.length),
    this.frees[buffer] = 0 ∧ (∃ osd ∈ this.osd, osd.argbBuffer = some buffer) ∨
      this.frees[buffer] = 1 ∧ ∀ osd ∈ this.osd, osd.argbBuffer ≠ some buffer

def releases (this : OsdManager) : ArgbOperation → Option Nat
  | .size wnd _ _ _ => this.osd[wnd]?.bind OsdData.argbLayer
  | .close wnd flags answers =>
      this.osd[wnd]?.bind fun osd =>
        if isRefresh flags = false ∧ 0 ≤ osd.handle ∧ answers.ovlManager = true then osd.argbLayer
        else none
  | _ => none

/-- No buffer is freed that the overlay manager may still read. -/
def Allows (this : OsdManager) (operation : ArgbOperation) : Prop :=
  ∀ layer, this.releases operation = some layer → layer ∉ this.users

/-! ## The account of layers and buffers -/

def owned (osd : List OsdData) : List Nat := osd.filterMap OsdData.argbLayer

/-- Every layer has a buffer of its own, allocated with it; the counts are those of the
references held; a buffer has been freed once or has a window, but not both. -/
structure Sound (this : OsdManager) : Prop where
  windows : this.osd.length = maxOsdObject
  identities : this.layers.map Shared.Object.payload = List.range this.frees.length
  paired : ∀ osd ∈ this.osd, osd.argbBuffer = osd.argbLayer
  balanced : Shared.Balanced this.layers (this.users ++ owned this.osd)
  freed : ∀ buffer (within : buffer < this.frees.length),
    this.frees[buffer] + (owned this.osd).count buffer = 1

theorem owned_init : owned initOsdManager.osd = [] := by
  simp [owned, initOsdManager]

theorem init_sound : Sound initOsdManager where
  windows := List.length_replicate
  identities := rfl
  paired := by
    intro osd member
    rw [List.eq_of_mem_replicate member]
  balanced := by
    rw [owned_init]
    exact Shared.balanced_nil
  freed := by simp [initOsdManager]

theorem mem_owned {osd : List OsdData} {layer : Nat} :
    layer ∈ owned osd ↔ ∃ window ∈ osd, window.argbLayer = some layer := List.mem_filterMap

theorem owned_set {osd : List OsdData} {wnd : Nat} {old : OsdData} (present : osd[wnd]? = some old)
    (new : OsdData) :
    ∃ rest, (owned osd).Perm (old.argbLayer.toList ++ rest) ∧
      (owned (osd.set wnd new)).Perm (new.argbLayer.toList ++ rest) :=
  Shared.held_set OsdData.argbLayer present new

variable {this : OsdManager}

theorem Sound.length_layers (sound : this.Sound) : this.layers.length = this.frees.length := by
  have lengths := congrArg List.length sound.identities
  rwa [List.length_map, List.length_range] at lengths

theorem Sound.payload (sound : this.Sound) {layer : Nat} (within : layer < this.layers.length) :
    this.layers[layer].payload = layer := by
  have identity : (this.layers.map Shared.Object.payload)[layer]? =
      (List.range this.frees.length)[layer]? := by rw [sound.identities]
  rw [List.getElem?_map, List.getElem?_eq_getElem within,
    List.getElem?_range (sound.length_layers ▸ within)] at identity
  exact Option.some.inj identity

theorem Sound.owned_alive (sound : this.Sound) {layer : Nat} (member : layer ∈ owned this.osd) :
    this.frees[layer]? = some 0 := by
  have known := sound.balanced.known layer (List.mem_append_right _ member)
  have within : layer < this.frees.length := sound.length_layers ▸ known
  have freed := sound.freed layer within
  have held := List.count_pos_iff.mpr member
  rw [List.getElem?_eq_getElem within]
  exact congrArg some (by omega)

def Safe (this : OsdManager) : Prop := ∀ layer ∈ this.users, this.frees[layer]? = some 0

theorem lawful_iff (sound : this.Sound) : this.Lawful ↔ this.Safe := by
  constructor
  · intro lawful layer member
    obtain ⟨object, present, alive⟩ := lawful.buffers layer member
    obtain ⟨within, rfl⟩ := List.getElem?_eq_some_iff.mp present
    rwa [sound.payload within] at alive
  · intro alive
    constructor
    case buffers =>
      intro layer member
      have within := sound.balanced.known layer (List.mem_append_left _ member)
      refine ⟨this.layers[layer], List.getElem?_eq_getElem within, ?_⟩
      rw [sound.payload within]
      exact alive layer member
    case layers =>
      intro layer within
      rw [(sound.balanced.agrees layer within).destroyed, List.count_eq_zero, List.mem_append,
        not_or, mem_owned]
      simp only [not_exists, not_and, ne_eq]
    case freedOnce =>
      intro buffer within
      have freed := sound.freed buffer within
      have windows : (∃ osd ∈ this.osd, osd.argbBuffer = some buffer) ↔ buffer ∈ owned this.osd := by
        rw [mem_owned]
        constructor
        · rintro ⟨osd, member, same⟩
          exact ⟨osd, member, sound.paired osd member ▸ same⟩
        · rintro ⟨osd, member, same⟩
          exact ⟨osd, member, (sound.paired osd member).trans same⟩
      by_cases member : buffer ∈ owned this.osd
      · have held := List.count_pos_iff.mpr member
        exact .inl ⟨by omega, windows.mpr member⟩
      · have unheld := List.count_eq_zero.mpr member
        refine .inr ⟨by omega, ?_⟩
        intro osd inside same
        exact member (windows.mp ⟨osd, inside, same⟩)

/-! ## Steps -/

theorem set_argb_layer_release (layers : List (Shared.Object Nat)) (layer : Nat) :
    setArgbLayer layers (some layer) none = Shared.release layers layer := rfl

theorem set_argb_layer_retain (layers : List (Shared.Object Nat)) (layer : Nat) :
    setArgbLayer layers none (some layer) = Shared.retain layers layer := by
  simp [setArgbLayer]

theorem Sound.paired_set (sound : this.Sound) (wnd : Nat) (new : OsdData)
    (paired : new.argbBuffer = new.argbLayer) :
    ∀ osd ∈ this.osd.set wnd new, osd.argbBuffer = osd.argbLayer := by
  intro osd member
  rcases List.mem_or_eq_of_mem_set member with old | rfl
  · exact sound.paired osd old
  · exact paired

theorem release_argb_sound (sound : this.Sound) {wnd : Nat} {old new : OsdData}
    (present : this.osd[wnd]? = some old) (layer : new.argbLayer = old.argbLayer)
    (buffer : new.argbBuffer = old.argbBuffer) :
    ∃ next, this.releaseArgb wnd new = some next ∧ next.Sound ∧ next.users = this.users ∧
      next.frees = freeBuffer this.frees old.argbLayer := by
  have pair := sound.paired old (List.mem_of_getElem? present)
  obtain ⟨rest, before, after⟩ := owned_set present
    { new with argbLayer := none, argbBuffer := none }
  have paired := sound.paired_set wnd { new with argbLayer := none, argbBuffer := none } rfl
  rw [releaseArgb, layer, buffer, pair]
  cases held : old.argbLayer with
  | none =>
      rw [held] at before
      have same := before.trans after.symm
      refine ⟨_, rfl, ?_, rfl, rfl⟩
      exact {
        windows := (List.length_set ..).trans sound.windows
        identities := sound.identities
        paired
        balanced := sound.balanced.perm (same.append_left this.users)
        freed := fun buffer within => (same.count_eq buffer) ▸ sound.freed buffer within }
  | some identity =>
      rw [held] at before
      have listed : (this.users ++ owned this.osd).Perm (identity :: (this.users ++ rest)) :=
        (before.append_left this.users).trans List.perm_middle
      obtain ⟨layers, released, balanced, payloads⟩ := (sound.balanced.perm listed).release
      rw [set_argb_layer_release, released, Option.map_some]
      refine ⟨_, rfl, ?_, rfl, rfl⟩
      constructor
      case windows => exact (List.length_set ..).trans sound.windows
      case identities =>
        simp only [freeBuffer, List.length_modify]
        exact payloads.trans sound.identities
      case paired => exact paired
      case balanced => exact balanced.perm (after.symm.append_left this.users)
      case freed =>
        intro place within
        simp only [freeBuffer, List.length_modify] at within
        have freed := sound.freed place within
        rw [before.count_eq place] at freed
        simp only [freeBuffer, List.getElem_modify]
        rw [after.count_eq place]
        by_cases here : identity = place
        · subst here
          simp at freed ⊢
          omega
        · simpa [here, List.count_cons_of_ne here] using freed

theorem show_layer_balanced {layers : List (Shared.Object Nat)} {held : List Nat}
    (balanced : Shared.Balanced layers held) {layer : Nat} (member : layer ∈ held) :
    ∃ next, showLayer layers layer = some next ∧ Shared.Balanced next (layer :: held) ∧
      next.map Shared.Object.payload = layers.map Shared.Object.payload := by
  obtain ⟨first, retained, balanced, payloads⟩ := balanced.retain member
  obtain ⟨second, queued, balanced, same⟩ := balanced.retain List.mem_cons_self
  obtain ⟨last, released, balanced, kept⟩ := balanced.release
  refine ⟨last, ?_, balanced, kept.trans (same.trans payloads)⟩
  simp only [showLayer, set_argb_layer_retain, set_argb_layer_release, retained, queued, released,
    Option.bind_some]

/-- What a SHOW event does to the account: one user more, whose buffer is there, and all
other buffers as before. -/
structure Shown (this next : OsdManager) : Prop where
  sound : next.Sound
  user : ∃ layer, next.users = this.users ++ [layer] ∧ next.frees[layer]? = some 0
  frees : ∀ buffer count : Nat, this.frees[buffer]? = some count →
    next.frees[buffer]? = some count

theorem set_argb_again (sound : this.Sound) {wnd : Nat} {osd : OsdData}
    (present : this.osd[wnd]? = some osd) {answers : OverlayAnswers} {layer : Nat}
    (held : osd.argbLayer = some layer) (manager : answers.ovlManager = true)
    (supported : answers.argbSupported = true)
    (extent : ¬ (osd.extentWidth < 32 ∨ osd.extentHeight < 32)) :
    ∃ next, this.execOsdSetArgb wnd osd answers = some (next, .ok) ∧ this.Shown next := by
  have pair := (sound.paired osd (List.mem_of_getElem? present)).trans held
  have member : layer ∈ owned this.osd :=
    mem_owned.mpr ⟨osd, List.mem_of_getElem? present, held⟩
  obtain ⟨layers, shown, balanced, payloads⟩ :=
    show_layer_balanced sound.balanced (List.mem_append_right this.users member)
  rw [execOsdSetArgb, manager, supported, if_neg extent]
  simp only [argbBuffer, argbLayer, pair, held, shown, Option.bind_some, Option.map_some]
  refine ⟨_, rfl, ?_, ⟨layer, rfl, sound.owned_alive member⟩, fun _ _ same => same⟩
  obtain ⟨rest, before, after⟩ := owned_set present { osd with
    handle := if osd.handle < 0 then answers.newHandle else osd.handle
    argbLayer := some layer
    argbBuffer := some layer }
  rw [held] at before
  have same := before.trans after.symm
  constructor
  case windows => exact (List.length_set ..).trans sound.windows
  case identities => exact payloads.trans sound.identities
  case paired => exact sound.paired_set wnd _ rfl
  case balanced =>
    have listed : (layer :: (this.users ++ owned this.osd)).Perm
        (this.users ++ [layer] ++ owned this.osd) := by
      rw [List.append_assoc, List.singleton_append]
      exact List.perm_middle.symm
    exact balanced.perm (listed.trans (same.append_left _))
  case freed => exact fun buffer within => same.count_eq buffer ▸ sound.freed buffer within

theorem set_argb_first (sound : this.Sound) {wnd : Nat} {osd : OsdData}
    (present : this.osd[wnd]? = some osd) {answers : OverlayAnswers}
    (unheld : osd.argbLayer = none) (manager : answers.ovlManager = true)
    (supported : answers.argbSupported = true)
    (extent : ¬ (osd.extentWidth < 32 ∨ osd.extentHeight < 32)) :
    ∃ next, this.execOsdSetArgb wnd osd answers = some (next, .ok) ∧ this.Shown next := by
  have pair := (sound.paired osd (List.mem_of_getElem? present)).trans unheld
  obtain ⟨created, retained, balanced, payloads⟩ := sound.balanced.create this.frees.length
  obtain ⟨layers, shown, balanced, same⟩ := show_layer_balanced balanced List.mem_cons_self
  have length := sound.length_layers
  rw [execOsdSetArgb, manager, supported, if_neg extent]
  simp only [argbBuffer, argbLayer, pair, unheld, set_argb_layer_retain, retained, shown,
    Option.bind_some, Option.map_some]
  refine ⟨_, rfl, ?_, ⟨this.layers.length, rfl, by simp [length]⟩, ?_⟩
  · obtain ⟨rest, before, after⟩ := owned_set present { osd with
      handle := if osd.handle < 0 then answers.newHandle else osd.handle
      argbLayer := some this.layers.length
      argbBuffer := some this.frees.length }
    rw [unheld] at before
    have grown := after.trans ((before.symm).cons this.layers.length)
    constructor
    case windows => exact (List.length_set ..).trans sound.windows
    case identities =>
      rw [same, payloads, sound.identities, List.length_append, List.length_singleton,
        List.range_succ]
    case paired => exact sound.paired_set wnd _ (congrArg some length.symm)
    case balanced =>
      have listed : (this.layers.length :: this.layers.length :: (this.users ++ owned this.osd)).Perm
          (this.users ++ [this.layers.length] ++ (this.layers.length :: owned this.osd)) := by
        rw [List.append_assoc, List.singleton_append]
        exact (List.perm_middle.symm.cons _).trans List.perm_middle.symm
      exact balanced.perm (listed.trans (grown.symm.append_left _))
    case freed =>
      intro buffer within
      rw [List.length_append, List.length_singleton] at within
      rw [grown.count_eq buffer]
      by_cases last : this.layers.length = buffer
      · have unknown : (owned this.osd).count buffer = 0 := by
          rw [List.count_eq_zero]
          intro member
          have known := sound.balanced.known buffer (List.mem_append_right _ member)
          omega
        subst last
        rw [length] at unknown
        simp [length, unknown]
      · have inside : buffer < this.frees.length := by omega
        rw [List.count_cons_of_ne last, List.getElem_append_left inside]
        exact sound.freed buffer inside
  · intro buffer count same
    obtain ⟨within, _⟩ := List.getElem?_eq_some_iff.mp same
    rwa [List.getElem?_append_left within]

theorem drop_reference_sound (sound : this.Sound) (place : Nat) :
    ∃ next, this.dropReference place = some next ∧ next.Sound ∧ next.frees = this.frees ∧
      ∀ layer ∈ next.users, layer ∈ this.users := by
  unfold dropReference
  cases used : this.users[place]? with
  | none => exact ⟨this, rfl, sound, rfl, fun _ member => member⟩
  | some layer =>
      obtain ⟨within, rfl⟩ := List.getElem?_eq_some_iff.mp used
      have listed : (this.users ++ owned this.osd).Perm
          (this.users[place] :: (this.users.eraseIdx place ++ owned this.osd)) :=
        (List.getElem_cons_eraseIdx_perm within).symm.append_right _
      obtain ⟨layers, released, balanced, payloads⟩ := (sound.balanced.perm listed).release
      simp only [released, Option.map_some]
      refine ⟨_, rfl, ?_, rfl, fun layer member => List.mem_of_mem_eraseIdx member⟩
      exact {
        windows := sound.windows
        identities := payloads.trans sound.identities
        paired := sound.paired
        balanced
        freed := sound.freed }

/-- Freeing the buffer of a layer is harmless exactly if nobody uses the layer. -/
theorem safe_free_iff (safe : this.Safe) (held : Option Nat) :
    (∀ layer ∈ this.users, (freeBuffer this.frees held)[layer]? = some 0) ↔
      ∀ layer, held = some layer → layer ∉ this.users := by
  cases held with
  | none =>
      constructor
      · intro _ layer absent
        cases absent
      · exact fun _ => safe
  | some freed =>
      constructor
      · rintro kept layer ⟨⟩ member
        have gone := kept freed member
        rw [freeBuffer, List.getElem?_modify_eq, safe freed member] at gone
        cases gone
      · intro unused layer member
        have other : freed ≠ layer := fun same => unused freed rfl (same ▸ member)
        rw [freeBuffer, List.getElem?_modify_ne (· + 1) this.frees other]
        exact safe layer member

theorem Shown.safe {next : OsdManager} (shown : this.Shown next) (safe : this.Safe) : next.Safe := by
  obtain ⟨layer, users, alive⟩ := shown.user
  intro other member
  rw [users] at member
  rcases List.mem_append.mp member with before | last
  · exact shown.frees other 0 (safe other before)
  · exact List.mem_singleton.mp last ▸ alive

/-- What an operation leads to: the account stays, and nothing is lost exactly if the
operation frees no buffer in use. -/
structure Leads (this : OsdManager) (operation : ArgbOperation) (next : OsdManager) : Prop where
  sound : next.Sound
  safe : this.Safe → (next.Safe ↔ this.Allows operation)

theorem leads_nowhere (sound : this.Sound) {operation : ArgbOperation}
    (none_ : this.releases operation = none) : this.Leads operation this where
  sound := sound
  safe := by
    intro safe
    refine ⟨fun _ layer freed => ?_, fun _ => safe⟩
    rw [none_] at freed
    cases freed

theorem release_leads (sound : this.Sound) {wnd : Nat} {old : OsdData}
    (present : this.osd[wnd]? = some old) (new : OsdData) (operation : ArgbOperation)
    (layer : new.argbLayer = old.argbLayer) (buffer : new.argbBuffer = old.argbBuffer)
    (released : this.releases operation = old.argbLayer) :
    ∃ next, this.releaseArgb wnd new = some next ∧ this.Leads operation next := by
  obtain ⟨next, performed, nextSound, users, frees⟩ :=
    release_argb_sound sound present layer buffer
  refine ⟨next, performed, nextSound, ?_⟩
  intro safe
  rw [Safe, users, frees, safe_free_iff safe, Allows, released]

theorem close_leads (sound : this.Sound) {wnd : Nat} {osd : OsdData}
    (present : this.osd[wnd]? = some osd) (flags : UInt8) (answers : OverlayAnswers) :
    ∃ next result, this.execOsdClose wnd osd flags answers = some (next, result) ∧
      this.Leads (.close wnd flags answers) next := by
  have freed : this.releases (.close wnd flags answers) =
      if isRefresh flags = false ∧ 0 ≤ osd.handle ∧ answers.ovlManager = true then osd.argbLayer
      else none := by
    rw [releases, present, Option.bind_some]
  rw [execOsdClose]
  by_cases refresh : isRefresh flags = true
  · rw [if_pos refresh]
    exact ⟨this, .ok, rfl, leads_nowhere sound (by simp [freed, refresh])⟩
  by_cases closed : osd.handle < 0
  · rw [if_neg refresh, if_pos closed]
    exact ⟨this, .paramError, rfl, leads_nowhere sound (by simp [freed, Int.not_le.mpr closed])⟩
  by_cases manager : answers.ovlManager = true
  · have opened : 0 ≤ osd.handle := Int.not_lt.mp closed
    rw [if_pos ⟨Bool.not_eq_true _ ▸ refresh, opened, manager⟩] at freed
    rw [if_neg refresh, if_neg closed, if_neg (by simp [manager])]
    obtain ⟨next, performed, leads⟩ := release_leads sound present { osd with
      handle := -1
      extentWidth := 720
      extentHeight := 576 } _ rfl rfl freed
    exact ⟨next, .ok, by rw [performed]; rfl, leads⟩
  · rw [if_neg refresh, if_neg closed, if_pos (by simp [manager])]
    exact ⟨this, .paramError, rfl, leads_nowhere sound (by simp [freed, manager])⟩

theorem set_argb_leads (sound : this.Sound) {wnd : Nat} {osd : OsdData}
    (present : this.osd[wnd]? = some osd) (answers : OverlayAnswers) {operation : ArgbOperation}
    (none_ : this.releases operation = none) :
    ∃ next result, this.execOsdSetArgb wnd osd answers = some (next, result) ∧
      this.Leads operation next := by
  have stays := leads_nowhere sound none_
  by_cases manager : answers.ovlManager = true
  case neg => exact ⟨this, .paramError, by simp [execOsdSetArgb, manager], stays⟩
  by_cases supported : answers.argbSupported = true
  case neg => exact ⟨this, .paramError, by simp [execOsdSetArgb, manager, supported], stays⟩
  by_cases extent : osd.extentWidth < 32 ∨ osd.extentHeight < 32
  case pos => exact ⟨this, .paramError, by simp [execOsdSetArgb, manager, supported, extent], stays⟩
  have shows_ : ∃ next, this.execOsdSetArgb wnd osd answers = some (next, .ok) ∧ this.Shown next := by
    cases held : osd.argbLayer with
    | some layer => exact set_argb_again sound present held manager supported extent
    | none => exact set_argb_first sound present held manager supported extent
  obtain ⟨next, performed, shown⟩ := shows_
  refine ⟨next, .ok, performed, shown.sound, ?_⟩
  intro safe
  refine ⟨fun _ layer freed => ?_, fun _ => shown.safe safe⟩
  rw [none_] at freed
  cases freed

theorem with_window_leads (sound : this.Sound) {operation : ArgbOperation} (wnd : Nat)
    (outside : this.osd[wnd]? = none → this.releases operation = none)
    {exec : OsdData → Option (OsdManager × ControlResult)}
    (leads : ∀ osd, this.osd[wnd]? = some osd →
      ∃ next result, exec osd = some (next, result) ∧ this.Leads operation next) :
    ∃ next result, this.withWindow wnd exec = some (next, result) ∧
      this.Leads operation next := by
  rw [withWindow]
  by_cases within : maxOsdObject ≤ wnd
  · rw [if_pos within]
    have absent : this.osd[wnd]? = none :=
      List.getElem?_eq_none (sound.windows ▸ within)
    exact ⟨this, .paramError, rfl, leads_nowhere sound (outside absent)⟩
  · have inside : wnd < this.osd.length := by
      rw [sound.windows]
      exact Nat.lt_of_not_le within
    rw [if_neg within, List.getElem?_eq_getElem inside, Option.bind_some]
    exact leads _ (List.getElem?_eq_getElem inside)

theorem perform_leads (sound : this.Sound) (operation : ArgbOperation) :
    ∃ next, this.perform operation = some next ∧ this.Leads operation next := by
  have both : ∃ next result, this.execOperation operation = some (next, result) ∧
      this.Leads operation next := by
    cases operation with
    | size wnd w h answers =>
        apply with_window_leads sound
        · intro absent
          rw [releases, absent, Option.bind_none]
        · intro osd present
          obtain ⟨next, performed, leads⟩ := release_leads sound present
            { osd with extentWidth := w, extentHeight := h } (.size wnd w h answers) rfl rfl
            (by rw [releases, present, Option.bind_some])
          exact ⟨next, _, by rw [execOsdSize, performed]; rfl, leads⟩
    | setArgb wnd answers =>
        apply with_window_leads sound _ fun _ => rfl
        exact fun osd present => set_argb_leads sound present answers rfl
    | setArgbrle wnd answers =>
        apply with_window_leads sound _ fun _ => rfl
        exact fun osd present => set_argb_leads sound present answers rfl
    | close wnd flags answers =>
        apply with_window_leads sound
        · intro absent
          rw [releases, absent, Option.bind_none]
        · exact fun osd present => close_leads sound present flags answers
    | drop place =>
        obtain ⟨next, performed, nextSound, frees, users⟩ := drop_reference_sound sound place
        refine ⟨next, .ok, by rw [execOperation, performed]; rfl, nextSound, ?_⟩
        intro safe
        constructor
        · intro _ layer freed
          cases freed
        · intro _ layer member
          rw [frees]
          exact safe layer (users layer member)
  obtain ⟨next, result, performed, leads⟩ := both
  exact ⟨next, by rw [perform, performed]; rfl, leads⟩

/-! ## Whole runs -/

def afterOperations (operations : List ArgbOperation) : Option OsdManager :=
  Machine.follow perform initOsdManager operations

theorem perform_sound {this next : OsdManager} {operation : ArgbOperation} (sound : this.Sound)
    (performed : this.perform operation = some next) : this.Leads operation next := by
  obtain ⟨other, same, leads⟩ := perform_leads sound operation
  rw [performed] at same
  exact Option.some.inj same ▸ leads

theorem run_sound (operations : List ArgbOperation) : ∀ count ≤ operations.length, ∀ this,
    afterOperations (operations.take count) = some this → this.Sound := by
  apply @Machine.follow_invariant _ _ perform Sound (fun _ _ => True) _ init_sound
  · intro this operation next sound _ performed
    exact (perform_sound sound performed).sound
  · intros
    trivial

/-- All buffers in use are there exactly as long as no window with a layer in use is resized
or closed. -/
theorem lawful_run_iff (operations : List ArgbOperation) :
    (∀ count ≤ operations.length, ∃ this,
        afterOperations (operations.take count) = some this ∧ this.Lawful) ↔
      ∀ (count : Nat) (within : count < operations.length) (this : OsdManager),
        afterOperations (operations.take count) = some this →
        this.Allows operations[count] := by
  have safe_init : initOsdManager.Safe := by simp [Safe, initOsdManager]
  have exactly := @Machine.follow_progress_iff _ _ perform (fun this => this.Sound ∧ this.Safe)
    Allows _ ⟨init_sound, safe_init⟩
    (by
      intro this operation invariant
      obtain ⟨next, performed, -⟩ := perform_leads invariant.1 operation
      exact ⟨next, performed⟩)
    (by
      intro this operation next invariant performed
      have leads := perform_sound invariant.1 performed
      rw [← leads.safe invariant.2]
      exact and_iff_right leads.sound)
    operations
  refine Iff.trans ?_ exactly
  constructor
  · intro lawful count within
    obtain ⟨this, reached, lawful⟩ := lawful count within
    have sound := run_sound operations count within this reached
    exact ⟨this, reached, sound, (lawful_iff sound).mp lawful⟩
  · intro safe count within
    obtain ⟨this, reached, sound, safe⟩ := safe count within
    exact ⟨this, reached, (lawful_iff sound).mpr safe⟩

/-- An OSD of 720 by 576 pixels is shown and then resized, while the overlay manager still
shows it. -/
def resizedWhileShown : List ArgbOperation :=
  let answers : OverlayAnswers := ⟨true, true, true, 0⟩
  [.size 0 720 576 answers, .setArgb 0 answers, .size 0 1280 720 answers]

theorem shown_buffer_freed :
    ¬ ∀ operations : List ArgbOperation, ∀ count ≤ operations.length, ∃ this,
        afterOperations (operations.take count) = some this ∧ this.Lawful := by
  intro claimed
  obtain ⟨this, reached, lawful⟩ := claimed resizedWhileShown 3 (by decide)
  have ended : afterOperations (resizedWhileShown.take 3) = some
      { osd := (List.replicate maxOsdObject ⟨-1, 0, 0, none, none⟩).set 0
          ⟨0, 1280, 720, none, none⟩
        layers := [⟨0, 1, false⟩]
        frees := [1]
        users := [0] } := rfl
  rw [ended, Option.some.injEq] at reached
  subst reached
  obtain ⟨object, present, alive⟩ := lawful.buffers 0 List.mem_cons_self
  cases present
  cases alive

end OsdManager
end Argb
end Xineliboutput.Osd
