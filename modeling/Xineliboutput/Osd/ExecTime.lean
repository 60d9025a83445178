import Mathlib.Algebra.Ring.Int.Defs
import Mathlib.Algebra.Ring.Nat
import Mathlib.Data.Int.Order.Basic
import Xineliboutput.Osd.WindowHandles

/-!
# When OSD commands are executed

`osd_exec_vpts` of `xine/osd_manager.c` and the handlers that use it, as far as they read and
set the time of a window. The limit for times that are too far ahead is added to the time
asked for instead of the clock.
-/

namespace Xineliboutput.Osd.Timing

open Xineliboutput.Foundation

set_option autoImplicit false

inductive CommandType where
  | nop
  | size
  | setRle
  | setLut8
  | setArgb
  | setArgbrle
  | close
  | flush
  | videoWindow
  | commit
  | unknown
  deriving DecidableEq

/-- `osd_command_t`, and whether it has the refresh flag. -/
structure Command where
  cmd : CommandType
  wnd : Nat
  pts : Int
  delayMs : UInt32
  refresh : Bool

/-- What a handler finds: the overlay manager, whether the driver and the extent allow true
color, a new handle, the offset of the metronom and two readings of the clock. -/
structure Surroundings where
  overlayManager : Bool
  argbPossible : Bool
  newHandle : Int
  vptsOffset : Int
  now : Nat
  later : Nat

/-- `osd_data_t` -/
structure OsdData where
  handle : Int
  lastChangedVpts : Int

/-- The windows, the last reading of the clock and the results of `osd_exec_vpts` so far, each
behind the reading it was computed with. -/
structure OsdManager where
  osd : Nat → OsdData
  clock : Nat
  executed : List (Nat × Int)

/-- `5*90000` -/
abbrev maxDelay : Int := 5 * 90000

/-- What a command asks for, after the time of the last change. -/
def requestedVpts (around : Surroundings) (cmd : Command) (lastChangedVpts : Int) : Int :=
  Int.bmod (if cmd.pts ≠ 0 then cmd.pts + around.vptsOffset
    else lastChangedVpts + (cmd.delayMs * 90).toNat) (2 ^ 64)

def osdExecVpts (around : Surroundings) (cmd : Command) (lastChangedVpts : Int) : Int :=
  if cmd.pts ≠ 0 ∨ cmd.delayMs ≠ 0 then
    let vpts := requestedVpts around cmd lastChangedVpts
    let vpts := if vpts < around.now then 0 else vpts
    if around.now + maxDelay < vpts then Int.bmod (vpts + maxDelay) (2 ^ 64) else vpts
  else 0

namespace OsdManager

/-- `init_osd_manager`, at any time of the stream. -/
def init (clock : Nat) : OsdManager := ⟨fun _ => ⟨-1, 0⟩, clock, []⟩

def put (manager : OsdManager) (wnd : Nat) (osd : OsdData) : OsdManager :=
  { manager with osd := Function.update manager.osd wnd osd }

def execOsdNop (manager : OsdManager) (cmd : Command) (around : Surroundings) : OsdManager :=
  manager.put cmd.wnd { manager.osd cmd.wnd with lastChangedVpts := around.later }

def execOsdClose (manager : OsdManager) (cmd : Command) (around : Surroundings) : OsdManager :=
  let osd := manager.osd cmd.wnd
  if cmd.refresh then manager
  else if osd.handle < 0 then manager
  else if around.overlayManager = false then manager
  else
    let vpts := osdExecVpts around cmd osd.lastChangedVpts
    { manager.put cmd.wnd ⟨-1, 0⟩ with executed := manager.executed ++ [(around.now, vpts)] }

/-- `exec_osd_set_rle`, and `exec_osd_set_argb` behind its checks. -/
def execOsdSet (manager : OsdManager) (cmd : Command) (around : Surroundings) : OsdManager :=
  let osd := manager.osd cmd.wnd
  let osd := if osd.handle < 0 then ⟨around.newHandle, 0⟩ else osd
  let vpts := osdExecVpts around cmd osd.lastChangedVpts
  { manager.put cmd.wnd { osd with lastChangedVpts := if vpts ≠ 0 then vpts else around.later } with
    executed := manager.executed ++ [(around.now, vpts)] }

/-- `exec_osd_command`; `video_size_changed` and `dispose` call the same handlers. `none` are
readings of a clock that went backwards. -/
def execOsdCommand (manager : OsdManager) (call : Command × Surroundings) : Option OsdManager :=
  let (cmd, around) := call
  if around.now < manager.clock ∨ around.later < around.now then none
  else
    let manager := { manager with clock := around.later }
    if maxOsdObject ≤ cmd.wnd then some manager
    else
      match cmd.cmd with
      | .nop => some (manager.execOsdNop cmd around)
      | .close => some (manager.execOsdClose cmd around)
      | .setRle | .setLut8 =>
          if around.overlayManager then some (manager.execOsdSet cmd around) else some manager
      | .setArgb | .setArgbrle =>
          if around.overlayManager && around.argbPossible then some (manager.execOsdSet cmd around)
          else some manager
      | .size | .flush | .videoWindow | .commit | .unknown => some manager

end OsdManager

/-! ## What is to hold -/

def InWindow (now : Nat) (vpts : Int) : Prop := vpts = 0 ∨ now ≤ vpts ∧ vpts ≤ now + maxDelay

structure Timely (manager : OsdManager) : Prop where
  executed : ∀ entry ∈ manager.executed, InWindow entry.1 entry.2
  lastChanged : ∀ wnd, (manager.osd wnd).lastChangedVpts ≤ manager.clock + maxDelay

/-- The time of the last change from which a handler computes the time of execution, if it
comes to that. -/
def computesFrom (manager : OsdManager) (cmd : Command) (around : Surroundings) : Option Int :=
  let osd := manager.osd cmd.wnd
  let shown := if osd.handle < 0 then 0 else osd.lastChangedVpts
  if maxOsdObject ≤ cmd.wnd then none
  else
    match cmd.cmd with
    | .close =>
        if cmd.refresh = true ∨ osd.handle < 0 ∨ around.overlayManager = false then none
        else some osd.lastChangedVpts
    | .setRle | .setLut8 => if around.overlayManager then some shown else none
    | .setArgb | .setArgbrle =>
        if around.overlayManager && around.argbPossible then some shown else none
    | .nop | .size | .flush | .videoWindow | .commit | .unknown => none

/-- The command does not ask for a time more than five seconds ahead. -/
def AsksInTime (manager : OsdManager) (call : Command × Surroundings) : Prop :=
  ∀ lastChangedVpts, computesFrom manager call.1 call.2 = some lastChangedVpts →
    call.1.pts ≠ 0 ∨ call.1.delayMs ≠ 0 →
    requestedVpts call.2 call.1 lastChangedVpts ≤ call.2.now + maxDelay

variable {manager next : OsdManager} {cmd : Command} {around : Surroundings}

/-- The computed time is in the window unless the time asked for is beyond it. -/
theorem exec_vpts_in_window_iff (lastChangedVpts : Int) :
    InWindow around.now (osdExecVpts around cmd lastChangedVpts) ↔
      (cmd.pts ≠ 0 ∨ cmd.delayMs ≠ 0 →
        requestedVpts around cmd lastChangedVpts ≤ around.now + maxDelay) := by
  have range : requestedVpts around cmd lastChangedVpts < 2 ^ 63 :=
    Int.bmod_lt (by decide : 0 < 2 ^ 64)
  have limit : maxDelay = 450000 := rfl
  unfold osdExecVpts InWindow
  generalize requestedVpts around cmd lastChangedVpts = requested at range
  by_cases timed : cmd.pts ≠ 0 ∨ cmd.delayMs ≠ 0
  · rw [if_pos timed]
    dsimp only
    by_cases past : requested < around.now
    · have near : ¬(around.now : Int) + maxDelay < 0 := by omega
      rw [if_pos past, if_neg near]
      exact iff_of_true (.inl rfl) fun _ => by omega
    · rw [if_neg past]
      by_cases far : (around.now : Int) + maxDelay < requested
      · rw [if_pos far]
        apply iff_of_false
        · -- the sum is farther away still, or wraps around to the past
          rw [Int.bmod_def]
          split <;> omega
        · intro asks
          have bound := asks timed
          omega
      · rw [if_neg far]
        exact iff_of_true (.inr ⟨by omega, by omega⟩) fun _ => by omega
  · rw [if_neg timed]
    exact iff_of_true (.inl rfl) fun asks => absurd asks timed

/-! ## Steps -/

theorem Timely.later (timely : Timely manager) {clock : Nat} (forward : manager.clock ≤ clock) :
    Timely { manager with clock := clock } := by
  constructor
  case executed => exact timely.executed
  case lastChanged =>
    intro wnd
    have before := timely.lastChanged wnd
    show (manager.osd wnd).lastChangedVpts ≤ (clock : Int) + maxDelay
    omega

theorem Timely.put (timely : Timely manager) (wnd : Nat) {osd : OsdData}
    (near : osd.lastChangedVpts ≤ manager.clock + maxDelay) : Timely (manager.put wnd osd) := by
  constructor
  case executed => exact timely.executed
  case lastChanged =>
    intro other
    show (Function.update manager.osd wnd osd other).lastChangedVpts ≤ _
    by_cases same : other = wnd
    · rw [same, Function.update_self]
      exact near
    · rw [Function.update_of_ne same]
      exact timely.lastChanged other

theorem timely_note_iff (timely : Timely manager) (now : Nat) (vpts : Int) :
    Timely { manager with executed := manager.executed ++ [(now, vpts)] } ↔ InWindow now vpts := by
  constructor
  · intro noted
    exact noted.executed (now, vpts) (List.mem_append_right _ (List.mem_singleton_self _))
  · intro inside
    constructor
    case executed =>
      intro entry member
      rcases List.mem_append.mp member with before | last
      · exact timely.executed entry before
      · rw [List.mem_singleton.mp last]
        exact inside
    case lastChanged => exact timely.lastChanged

theorem command_clock {call : Command × Surroundings}
    (performed : manager.execOsdCommand call = some next) :
    manager.clock ≤ call.2.now ∧ call.2.now ≤ call.2.later := by
  rcases call with ⟨cmd, around⟩
  unfold OsdManager.execOsdCommand at performed
  dsimp only at performed ⊢
  by_cases backwards : around.now < manager.clock ∨ around.later < around.now
  · rw [if_pos backwards] at performed
    cases performed
  · omega

/-- What a command does: it shows something, closes a window, touches it, or nothing. -/
theorem command_cases {call : Command × Surroundings}
    (performed : manager.execOsdCommand call = some next) :
    (computesFrom manager call.1 call.2 =
        some (if (manager.osd call.1.wnd).handle < 0 then 0
          else (manager.osd call.1.wnd).lastChangedVpts) ∧
      next = OsdManager.execOsdSet { manager with clock := call.2.later } call.1 call.2) ∨
    (computesFrom manager call.1 call.2 = some (manager.osd call.1.wnd).lastChangedVpts ∧
      next = { OsdManager.put { manager with clock := call.2.later } call.1.wnd ⟨-1, 0⟩ with
        executed := manager.executed ++ [(call.2.now,
          osdExecVpts call.2 call.1 (manager.osd call.1.wnd).lastChangedVpts)] }) ∨
    computesFrom manager call.1 call.2 = none ∧
      (next = { manager with clock := call.2.later } ∨
        next = OsdManager.execOsdNop { manager with clock := call.2.later } call.1 call.2) := by
  rcases call with ⟨cmd, around⟩
  have forward : ¬(around.now < manager.clock ∨ around.later < around.now) := by
    have clock := command_clock performed
    dsimp only at clock
    omega
  unfold OsdManager.execOsdCommand at performed
  unfold computesFrom
  dsimp only at performed ⊢
  rw [if_neg forward] at performed
  by_cases outside : maxOsdObject ≤ cmd.wnd
  · rw [if_pos outside] at performed ⊢
    cases performed
    exact .inr (.inr ⟨rfl, .inl rfl⟩)
  · rw [if_neg outside] at performed ⊢
    cases kind : cmd.cmd with
    | nop =>
        rw [kind] at performed
        cases performed
        exact .inr (.inr ⟨rfl, .inr rfl⟩)
    | close =>
        rw [kind] at performed
        dsimp only at performed ⊢
        rw [← Option.some.inj performed]
        unfold OsdManager.execOsdClose
        dsimp only
        by_cases ignored : cmd.refresh = true
        · exact .inr (.inr ⟨by simp [ignored], .inl (by simp [ignored])⟩)
        · by_cases absent : (manager.osd cmd.wnd).handle < 0
          · exact .inr (.inr ⟨by simp [absent], .inl (by simp [absent])⟩)
          · by_cases alone : around.overlayManager = false
            · exact .inr (.inr ⟨by simp [alone], .inl (by simp [alone])⟩)
            · exact .inr (.inl ⟨by simp [ignored, absent, alone], by simp [ignored, absent, alone]⟩)
    | setRle | setLut8 =>
        rw [kind] at performed
        cases ready : around.overlayManager with
        | false =>
            rw [ready] at performed
            cases performed
            exact .inr (.inr ⟨rfl, .inl rfl⟩)
        | true =>
            rw [ready] at performed
            cases performed
            exact .inl ⟨rfl, rfl⟩
    | setArgb | setArgbrle =>
        rw [kind] at performed
        cases ready : around.overlayManager && around.argbPossible with
        | false =>
            rw [ready] at performed
            cases performed
            exact .inr (.inr ⟨rfl, .inl rfl⟩)
        | true =>
            rw [ready] at performed
            cases performed
            exact .inl ⟨rfl, rfl⟩
    | size | flush | videoWindow | commit | unknown =>
        rw [kind] at performed
        cases performed
        exact .inr (.inr ⟨rfl, .inl rfl⟩)

/-- Showing something sets the time of the window to that of the command, or to the clock. -/
theorem set_timely_iff (timely : Timely manager) (forward : around.now ≤ manager.clock)
    (read : around.later = manager.clock) :
    Timely (manager.execOsdSet cmd around) ↔
      InWindow around.now (osdExecVpts around cmd
        (if (manager.osd cmd.wnd).handle < 0 then 0
          else (manager.osd cmd.wnd).lastChangedVpts)) := by
  have shown : (if (manager.osd cmd.wnd).handle < 0 then (⟨around.newHandle, 0⟩ : OsdData)
      else manager.osd cmd.wnd).lastChangedVpts =
      if (manager.osd cmd.wnd).handle < 0 then 0 else (manager.osd cmd.wnd).lastChangedVpts := by
    split <;> rfl
  unfold OsdManager.execOsdSet
  dsimp only
  rw [shown]
  generalize osdExecVpts around cmd _ = vpts
  constructor
  · intro after
    exact after.executed (around.now, vpts) (List.mem_append_right _ (List.mem_singleton_self _))
  · intro inside
    apply (timely_note_iff (timely.put cmd.wnd _) around.now vpts).mpr inside
    show (if vpts ≠ 0 then vpts else (around.later : Int)) ≤ manager.clock + maxDelay
    have limit : maxDelay = 450000 := rfl
    split
    · rename_i later
      have near := (inside.resolve_left later).2
      omega
    · omega

/-- A command keeps the times in the window exactly if it does not ask for one beyond it. -/
theorem command_timely_iff {call : Command × Surroundings} (timely : Timely manager)
    (performed : manager.execOsdCommand call = some next) :
    Timely next ↔ ∀ lastChangedVpts,
      computesFrom manager call.1 call.2 = some lastChangedVpts →
      InWindow call.2.now (osdExecVpts call.2 call.1 lastChangedVpts) := by
  have clock := command_clock performed
  have passed : Timely { manager with clock := call.2.later } :=
    timely.later (Nat.le_trans clock.1 clock.2)
  have limit : maxDelay = 450000 := rfl
  rcases command_cases performed with ⟨computed, rfl⟩ | ⟨computed, rfl⟩ | ⟨computed, rest⟩
  · rw [set_timely_iff passed clock.2 rfl, computed]
    constructor
    · rintro inside other ⟨⟩
      exact inside
    · exact fun inside => inside _ rfl
  · have closed := @Timely.put _ passed call.1.wnd ⟨-1, 0⟩ (by
      show (0 : Int) ≤ (call.2.later : Int) + maxDelay
      omega)
    have noted := timely_note_iff closed call.2.now
      (osdExecVpts call.2 call.1 (manager.osd call.1.wnd).lastChangedVpts)
    rw [computed]
    apply noted.trans
    constructor
    · rintro inside other ⟨⟩
      exact inside
    · exact fun inside => inside _ rfl
  · rw [computed]
    apply iff_of_true _ nofun
    rcases rest with rfl | rfl
    · exact passed
    · apply passed.put
      show (call.2.later : Int) ≤ (call.2.later : Int) + maxDelay
      omega

theorem init_timely (clock : Nat) : Timely (.init clock) := by
  constructor
  case executed => nofun
  case lastChanged =>
    intro wnd
    have limit : maxDelay = 450000 := rfl
    show (0 : Int) ≤ clock + maxDelay
    omega

/-- The times of execution stay in the window throughout a sequence of commands exactly if no
command asks for a time beyond it. -/
theorem times_in_window_iff (clock : Nat) (calls : List (Command × Surroundings)) :
    (∀ count ≤ calls.length, ∀ manager,
        Machine.follow OsdManager.execOsdCommand (.init clock) (calls.take count) = some manager →
        Timely manager) ↔
      ∀ (count : Nat) (within : count < calls.length) (manager next : OsdManager),
        Machine.follow OsdManager.execOsdCommand (.init clock) (calls.take count) = some manager →
        manager.execOsdCommand calls[count] = some next → AsksInTime manager calls[count] := by
  apply Machine.follow_invariant_iff (init_timely clock)
  intro manager call next timely performed
  rw [command_timely_iff timely performed]
  apply forall_congr'
  intro lastChangedVpts
  rw [exec_vpts_in_window_iff]

def delayedCalls : List (Command × Surroundings) :=
  [(⟨.setRle, 0, 0, 0, false⟩, ⟨true, false, 1, 0, 900000, 900000⟩),
    (⟨.setRle, 0, 0, 6000, false⟩, ⟨true, false, 1, 0, 900000, 900000⟩)]

/-- Six seconds become eleven. -/
theorem delay_grows :
    ∃ manager, Machine.follow OsdManager.execOsdCommand (.init 900000) delayedCalls = some manager ∧
      (900000, 900000 + 11 * 90000) ∈ manager.executed ∧ ¬Timely manager := by
  refine ⟨_, rfl, by decide, ?_⟩
  intro timely
  have last := timely.executed (900000, 900000 + 11 * 90000) (by decide)
  rcases last with now | ⟨-, near⟩
  · exact absurd now (by decide)
  · exact absurd near (by decide)

end Xineliboutput.Osd.Timing
