import Mathlib.Logic.Function.Basic
import Xineliboutput.Foundation.Machine

/-!
# Video properties

`set_video_properties` of `xine_input_vdr.c`. The first change saves the values of the output,
and a call that asks for nothing gives them back. xine with `XINE_PARAM_VO_SHARPNESS` and
`XINE_PARAM_VO_NOISE_REDUCTION` is assumed.
-/

namespace Xineliboutput.Client

open Xineliboutput.Foundation

set_option autoImplicit false

/-- The parameters `XINE_PARAM_VO_*`. -/
inductive VideoProperty where
  | hue
  | saturation
  | brightness
  | sharpness
  | noiseReduction
  | contrast
  | voAspectRatio
  deriving DecidableEq

def VideoProperty.all : List VideoProperty :=
  [.hue, .saturation, .brightness, .sharpness, .noiseReduction, .contrast, .voAspectRatio]

theorem VideoProperty.mem_all (property : VideoProperty) : property ∈ all := by
  cases property <;> decide

theorem VideoProperty.nodup_all : all.Nodup := by
  decide

/-- `xine_get_param` and `xine_set_param`: a parameter keeps the value it was set to. -/
structure XineParams (Output : Type) where
  getParam : Output → VideoProperty → Int
  setParam : Output → VideoProperty → Int → Output
  get_set : ∀ output property value,
    getParam (setParam output property value) = Function.update (getParam output) property value

/-- What the input plugin keeps, beside the output of its stream. -/
structure VideoSettings (Output : Type) where
  output : Output
  videoPropertiesSaved : Bool
  orig : VideoProperty → Int

abbrev VideoRequest := VideoProperty → Int

def VideoRequest.asks (request : VideoRequest) : Bool :=
  VideoProperty.all.any fun property => 0 ≤ request property

def VideoRequest.silent (request : VideoRequest) : Bool :=
  VideoProperty.all.all fun property => request property < 0

namespace VideoSettings

variable {Output : Type} (xine : XineParams Output) (this : VideoSettings Output)
  (request : VideoRequest)

/-- When changed first time, the original values are saved. -/
def save : VideoSettings Output :=
  if this.videoPropertiesSaved = false ∧ request.asks = true then
    { this with videoPropertiesSaved := true, orig := xine.getParam this.output }
  else this

/-- Whether the value of the call is used: of a saturation, only one above zero is. -/
def uses (property : VideoProperty) : Bool :=
  match property with
  | .saturation => 0 < request .saturation
  | other => 0 ≤ request other

def setProperty (saved : VideoSettings Output) (output : Output) (property : VideoProperty) :
    Output :=
  if 0 ≤ request property ∨ saved.videoPropertiesSaved = true then
    xine.setParam output property
      (if uses request property then request property else saved.orig property)
  else output

/-- `set_video_properties` -/
def setVideoProperties : VideoSettings Output :=
  let saved := this.save xine request
  { saved with
    output := VideoProperty.all.foldl (setProperty xine request saved) saved.output
    videoPropertiesSaved := saved.videoPropertiesSaved && request.asks }

end VideoSettings

def VideoSettings.opened {Output : Type} (output : Output) : VideoSettings Output where
  output
  videoPropertiesSaved := false
  orig _ := 0

/-! ## One call -/

theorem VideoRequest.asks_iff (request : VideoRequest) :
    request.asks = true ↔ ∃ property, 0 ≤ request property := by
  simp [VideoRequest.asks, VideoProperty.mem_all]

theorem VideoRequest.silent_iff (request : VideoRequest) :
    request.silent = true ↔ ∀ property, request property < 0 := by
  simp [VideoRequest.silent, VideoProperty.mem_all]

theorem VideoRequest.asks_of_silent {request : VideoRequest} (nothing : request.asks = false)
    (property : VideoProperty) : request property < 0 := by
  by_contra asked
  rw [request.asks_iff.mpr ⟨property, by omega⟩] at nothing
  cases nothing

namespace VideoSettings

variable {Output : Type} {xine : XineParams Output} {this : VideoSettings Output}
  {request : VideoRequest}

theorem uses_asked {property : VideoProperty} (used : uses request property = true) :
    0 ≤ request property := by
  cases property <;> simp only [uses, decide_eq_true_eq] at used <;> omega

def base (xine : XineParams Output) (this : VideoSettings Output) : VideoProperty → Int :=
  if this.videoPropertiesSaved then this.orig else xine.getParam this.output

theorem get_set_property (saved : VideoSettings Output) (output : Output)
    (property : VideoProperty) :
    xine.getParam (setProperty xine request saved output property) =
      Function.update (xine.getParam output) property
        (if 0 ≤ request property ∨ saved.videoPropertiesSaved = true then
          if uses request property then request property else saved.orig property
        else xine.getParam output property) := by
  unfold setProperty
  split
  · exact xine.get_set output property _
  · rw [Function.update_eq_self]

theorem get_set_properties (saved : VideoSettings Output) (properties : List VideoProperty)
    (distinct : properties.Nodup) (output : Output) (property : VideoProperty) :
    xine.getParam (properties.foldl (setProperty xine request saved) output) property =
      if property ∈ properties ∧ (0 ≤ request property ∨ saved.videoPropertiesSaved = true) then
        if uses request property then request property else saved.orig property
      else xine.getParam output property := by
  induction properties generalizing output with
  | nil => simp
  | cons first others ih =>
      obtain ⟨fresh, distinct⟩ := List.nodup_cons.mp distinct
      rw [List.foldl_cons, ih distinct, get_set_property]
      by_cases same : property = first
      · subst same
        rw [Function.update_self, if_neg fun both => fresh both.1]
        simp
      · rw [Function.update_of_ne same]
        simp [same]

theorem saved_or_asks :
    (this.save xine request).videoPropertiesSaved =
      (this.videoPropertiesSaved || request.asks) := by
  unfold save
  split
  · next first => rw [first.1, first.2]; rfl
  · next later =>
      cases saved : this.videoPropertiesSaved with
      | true => rfl
      | false =>
          cases asks : request.asks with
          | true => exact absurd ⟨saved, asks⟩ later
          | false => rfl

theorem save_output : (this.save xine request).output = this.output := by
  unfold save
  split <;> rfl

theorem save_orig (saved : (this.save xine request).videoPropertiesSaved = true) :
    (this.save xine request).orig = this.base xine := by
  unfold save base at *
  split
  · next first => rw [if_neg (by rw [first.1]; exact Bool.false_ne_true)]
  · next later =>
      rw [if_neg later] at saved
      rw [if_pos saved]

theorem set_saved :
    (this.setVideoProperties xine request).videoPropertiesSaved = request.asks := by
  unfold setVideoProperties
  dsimp only
  rw [saved_or_asks]
  cases this.videoPropertiesSaved <;> cases request.asks <;> rfl

theorem set_value (property : VideoProperty) :
    xine.getParam (this.setVideoProperties xine request).output property =
      if uses request property then request property else this.base xine property := by
  unfold setVideoProperties
  dsimp only
  rw [get_set_properties _ _ VideoProperty.nodup_all, save_output]
  by_cases changes : 0 ≤ request property ∨ (this.save xine request).videoPropertiesSaved = true
  · have saved : (this.save xine request).videoPropertiesSaved = true := by
      rcases changes with asked | saved
      · rw [saved_or_asks, request.asks_iff.mpr ⟨property, asked⟩, Bool.or_true]
      · exact saved
    rw [if_pos ⟨property.mem_all, changes⟩, save_orig saved]
  · have unused : ¬uses request property = true := fun used => changes (.inl (uses_asked used))
    have unsaved : ¬this.videoPropertiesSaved = true := by
      intro saved
      rw [saved_or_asks, saved] at changes
      exact changes (.inr rfl)
    rw [if_neg fun both => changes both.2, if_neg unused, base, if_neg unsaved]

theorem set_base : (this.setVideoProperties xine request).base xine = this.base xine := by
  funext property
  rw [base, set_saved]
  cases asks : request.asks with
  | true =>
      rw [if_pos rfl]
      apply congrFun (save_orig _)
      rw [saved_or_asks, asks, Bool.or_true]
  | false =>
      have unused : ¬uses request property = true := by
        intro used
        have asked := uses_asked used
        have silent := VideoRequest.asks_of_silent asks property
        omega
      rw [if_neg Bool.false_ne_true, set_value, if_neg unused]

end VideoSettings

/-! ## Sequences of calls -/

section Calls

variable {Output : Type} (xine : XineParams Output) (output : Output)
  (calls : List VideoRequest)

/-- The properties of the output after so many calls. -/
def propertiesAfter (count : Nat) : VideoProperty → Int :=
  xine.getParam ((calls.take count).foldl (fun this request => this.setVideoProperties xine request)
    (VideoSettings.opened output)).output

/-- No change period is open: the call before was all negative, or there was none. -/
def periodClosed : Nat → Bool
  | 0 => true
  | count + 1 => calls[count]?.any VideoRequest.silent

/-- The first call of the change period that a call belongs to. -/
def firstCall : Nat → Nat
  | 0 => 0
  | count + 1 => if periodClosed calls (count + 1) then count + 1 else firstCall count

/-- The video adjustments are applied and restored exactly. -/
structure PropertiesExact : Prop where
  applied : ∀ (count : Nat) (within : count < calls.length) (property : VideoProperty),
    propertiesAfter xine output calls (count + 1) property =
      if 0 ≤ calls[count] property then calls[count] property
      else propertiesAfter xine output calls (firstCall calls count) property
  restored : ∀ (count : Nat) (within : count < calls.length),
    calls[count].silent = true →
    propertiesAfter xine output calls (count + 1) = xine.getParam output
  idle : ∀ (count : Nat) (within : count < calls.length),
    calls[count].silent = true → periodClosed calls count = true →
    propertiesAfter xine output calls (count + 1) = propertiesAfter xine output calls count

variable {xine output calls}

theorem base_after (count : Nat) (within : count ≤ calls.length) :
    ((calls.take count).foldl (fun this request => this.setVideoProperties xine request)
      (VideoSettings.opened output)).base xine = xine.getParam output := by
  apply @Machine.foldl_invariant _ _ (fun this request => this.setVideoProperties xine request)
    (fun this => this.base xine = xine.getParam output) (fun _ _ => True)
    (VideoSettings.opened output) rfl
  · intro this request kept _
    rw [VideoSettings.set_base]
    exact kept
  · intro _ _
    trivial
  · exact within

theorem after_succ {count : Nat} (within : count < calls.length) (property : VideoProperty) :
    propertiesAfter xine output calls (count + 1) property =
      if VideoSettings.uses calls[count] property then calls[count] property
      else xine.getParam output property := by
  unfold propertiesAfter
  rw [Machine.foldl_take_succ _ _ calls within, VideoSettings.set_value,
    base_after count (Nat.le_of_lt within)]

theorem after_silent {count : Nat} (within : count < calls.length)
    (silent : calls[count].silent = true) :
    propertiesAfter xine output calls (count + 1) = xine.getParam output := by
  funext property
  have unused : ¬VideoSettings.uses calls[count] property = true := by
    intro used
    have asked := VideoSettings.uses_asked used
    have negative := (VideoRequest.silent_iff _).mp silent property
    omega
  rw [after_succ within, if_neg unused]

theorem after_closed {count : Nat} (within : count ≤ calls.length)
    (closed : periodClosed calls count = true) :
    propertiesAfter xine output calls count = xine.getParam output := by
  cases count with
  | zero => rfl
  | succ count =>
      rw [periodClosed, List.getElem?_eq_getElem within] at closed
      exact after_silent within closed

theorem after_first_call {count : Nat} (within : count ≤ calls.length) :
    propertiesAfter xine output calls (firstCall calls count) = xine.getParam output := by
  induction count with
  | zero => rfl
  | succ count ih =>
      unfold firstCall
      split
      · next closed => exact after_closed within closed
      · exact ih (Nat.le_of_lt within)

theorem uses_iff {request : VideoRequest} {property : VideoProperty}
    (plain : property ≠ .saturation ∨ request property ≠ 0) :
    VideoSettings.uses request property = true ↔ 0 ≤ request property := by
  cases property with
  | saturation =>
      have nonzero := plain.resolve_left (not_not_intro rfl)
      rw [VideoSettings.uses, decide_eq_true_eq]
      omega
  | hue | brightness | sharpness | noiseReduction | contrast | voAspectRatio =>
      exact decide_eq_true_iff

/-- A saturation of zero is taken for none. -/
theorem properties_exact_iff :
    PropertiesExact xine output calls ↔
      ∀ request ∈ calls, request .saturation = 0 → xine.getParam output .saturation = 0 := by
  constructor
  · intro exactly request member zero
    obtain ⟨count, within, rfl⟩ := List.getElem_of_mem member
    have unused : ¬VideoSettings.uses calls[count] .saturation = true := by
      simp [VideoSettings.uses, zero]
    have wanted := exactly.applied count within .saturation
    rw [after_succ within, if_neg unused, if_pos (Int.le_of_eq zero.symm), zero] at wanted
    exact wanted
  · intro grey
    constructor
    · intro count within property
      rw [after_succ within, after_first_call (Nat.le_of_lt within)]
      by_cases plain : property ≠ .saturation ∨ calls[count] property ≠ 0
      · simp only [uses_iff plain]
      · obtain ⟨rfl, zero⟩ : property = .saturation ∧ calls[count] property = 0 := by
          simpa only [not_or, not_not] using plain
        simp [VideoSettings.uses, zero, grey _ (List.getElem_mem within) zero]
    · intro count within silent
      exact after_silent within silent
    · intro count within silent closed
      rw [after_silent within silent, after_closed (Nat.le_of_lt within) closed]

end Calls

def plainParams : XineParams (VideoProperty → Int) where
  getParam := id
  setParam output property value := Function.update output property value
  get_set _ _ _ := rfl

def withoutColours : VideoRequest := Function.update (fun _ => -1) .saturation 0

theorem saturation_zero_ignored :
    propertiesAfter plainParams (fun _ => 32768) [withoutColours] 1 .saturation = 32768 ∧
      ¬PropertiesExact plainParams (fun _ => 32768) [withoutColours] := by
  constructor
  · decide
  · intro exactly
    have wanted := exactly.applied 0 (by decide) .saturation
    revert wanted
    decide

end Xineliboutput.Client
