import Mathlib.Data.List.Basic
import Mathlib.Logic.Function.Iterate
import Mathlib.Algebra.BigOperators.Group.List.Basic
import Mathlib.Algebra.Ring.Int.Defs

/-!
# Forcing the primary device

`cXinelibDevice::ForcePrimaryDevice` and `ForcePrimaryDeviceImpl` of `device.c`. The calls
are queued as functors for the main thread, which executes them in their order. Devices
are numbered from 1; 0 stands for no device. What `cDevice::SetPrimaryDevice` of VDR does
is a parameter: the device that is the primary one, the number asked for, and the
device that is the primary one afterwards.
-/

namespace Xineliboutput.Device

set_option autoImplicit false

/-- `force` is `xc.force_primary_device`, `number` is `DeviceNumber() + 1`, `count` is
`m_ForcePrimaryDeviceCnt` and `original` is `m_OriginalPrimaryDevice`. -/
structure ForcedDevice where
  force : Bool
  number : Nat
  primary : Nat
  count : Int
  original : Nat
  functors : List Bool
  deriving DecidableEq

namespace ForcedDevice

variable (setPrimaryDevice : Nat → Nat → Nat) (device : ForcedDevice)

/-- What `ForcePrimaryDevice` leaves to the main thread. -/
def forcePrimaryDevice (on : Bool) : ForcedDevice :=
  { device with functors := device.functors ++ [on] }

def forcePrimaryDeviceImpl (on : Bool) : ForcedDevice :=
  if on then
    if device.force = true ∧ device.primary ≠ device.number then
      { device with
        count := device.count + 1
        original := device.primary
        primary := setPrimaryDevice device.primary device.number }
    else { device with count := device.count + 1 }
  else if device.count - 1 = 0 ∧ device.original ≠ 0 then
    { device with
      count := device.count - 1
      original := 0
      primary := setPrimaryDevice device.primary device.original }
  else { device with count := device.count - 1 }

/-- One round of the loop of `MainThreadHook`. -/
def mainThreadRound : ForcedDevice :=
  match device.functors with
  | [] => device
  | on :: rest => forcePrimaryDeviceImpl setPrimaryDevice { device with functors := rest } on

def settled : ForcedDevice := (mainThreadRound setPrimaryDevice)^[device.functors.length] device

/-! ## What the queue will do to the count -/

def change (on : Bool) : Int := if on then 1 else -1

/-- The count after the first of the queued functors. -/
def countAfter (functors : Nat) : Int :=
  device.count + ((device.functors.take functors).map change).sum

def total : Int := device.countAfter device.functors.length

variable {setPrimaryDevice device}

theorem count_after_zero : device.countAfter 0 = device.count := by
  simp [countAfter]

theorem impl_count (on : Bool) :
    (forcePrimaryDeviceImpl setPrimaryDevice device on).count = device.count + change on := by
  cases on with
  | true =>
      simp only [forcePrimaryDeviceImpl, if_true]
      split
      · rfl
      · rfl
  | false =>
      simp only [forcePrimaryDeviceImpl, Bool.false_eq_true, if_false]
      split
      · rfl
      · rfl

theorem impl_fixed (on : Bool) :
    (forcePrimaryDeviceImpl setPrimaryDevice device on).force = device.force ∧
      (forcePrimaryDeviceImpl setPrimaryDevice device on).number = device.number ∧
      (forcePrimaryDeviceImpl setPrimaryDevice device on).functors = device.functors := by
  unfold forcePrimaryDeviceImpl
  split
  · split
    · exact ⟨rfl, rfl, rfl⟩
    · exact ⟨rfl, rfl, rfl⟩
  · split
    · exact ⟨rfl, rfl, rfl⟩
    · exact ⟨rfl, rfl, rfl⟩

theorem round_functors :
    (mainThreadRound setPrimaryDevice device).functors = device.functors.tail := by
  unfold mainThreadRound
  cases queued : device.functors with
  | nil => exact queued
  | cons on rest => exact (impl_fixed on).2.2

theorem round_count_after (functors : Nat) (pending : device.functors ≠ []) :
    (mainThreadRound setPrimaryDevice device).countAfter functors =
      device.countAfter (functors + 1) := by
  have queue : (mainThreadRound setPrimaryDevice device).functors = device.functors.tail :=
    round_functors
  cases queued : device.functors with
  | nil => exact absurd queued pending
  | cons on rest =>
      have counted : (mainThreadRound setPrimaryDevice device).count = device.count + change on := by
        unfold mainThreadRound
        rw [queued]
        exact impl_count on
      rw [countAfter, counted, queue, queued, countAfter, queued, List.tail_cons, List.take_succ_cons,
        List.map_cons, List.sum_cons]
      omega

theorem round_total : (mainThreadRound setPrimaryDevice device).total = device.total := by
  cases queued : device.functors with
  | nil => simp [mainThreadRound, queued]
  | cons on rest =>
      have pending : device.functors ≠ [] := by
        rw [queued]
        exact List.cons_ne_nil on rest
      rw [total, round_count_after _ pending, round_functors, total, queued]
      rfl

theorem forced_count_after (on : Bool) (functors : Nat) (few : functors ≤ device.functors.length) :
    (device.forcePrimaryDevice on).countAfter functors = device.countAfter functors := by
  rw [countAfter, forcePrimaryDevice, countAfter, List.take_append_of_le_length few]

theorem forced_total (on : Bool) :
    (device.forcePrimaryDevice on).total = device.total + change on := by
  simp only [total, countAfter, forcePrimaryDevice, List.take_length, List.map_append,
    List.sum_append, List.map_cons, List.map_nil, List.sum_cons, List.sum_nil]
  omega

/-! ## The invariant -/

/-- How a device is when no client is connected: nothing is queued, and a local frontend
may have forced it. -/
structure WellStarted (base : ForcedDevice) : Prop where
  idle : base.functors = []
  present : 0 < base.primary
  numbered : 0 < base.number
  start : (base.count = 0 ∧ base.original = 0) ∨
    (base.count = 1 ∧ base.force = true ∧ base.primary = base.number)

def devices (device : ForcedDevice) : Nat × Nat := (device.primary, device.original)

/-- The primary and the remembered device of a device that is counted so often. -/
def devicesAt (base : ForcedDevice) (count : Int) : Nat × Nat :=
  if base.count < count ∧ base.force = true ∧ base.primary ≠ base.number then
    (base.number, base.primary)
  else base.devices

/-- The count never falls below the one at the start, whatever part of the queue has run. -/
structure Follows (base device : ForcedDevice) : Prop where
  force : device.force = base.force
  number : device.number = base.number
  above : ∀ functors, base.count ≤ device.countAfter functors
  devices : device.devices = base.devicesAt device.count

variable {base : ForcedDevice}

theorem follows_start (started : base.WellStarted) : base.Follows base := by
  constructor
  · rfl
  · rfl
  · intro functors
    rw [countAfter, started.idle, List.take_nil]
    exact Int.le_of_eq (Int.add_zero _).symm
  · rw [devicesAt, if_neg fun more => Int.lt_irrefl _ more.1]

theorem follows_forced (follows : base.Follows device) (on : Bool)
    (enough : base.count ≤ device.total + change on) :
    base.Follows (device.forcePrimaryDevice on) := by
  constructor
  · exact follows.force
  · exact follows.number
  · intro functors
    by_cases few : functors ≤ device.functors.length
    · rw [forced_count_after on functors few]
      exact follows.above functors
    · have whole : (device.forcePrimaryDevice on).countAfter functors =
          (device.forcePrimaryDevice on).total := by
        have long : (device.forcePrimaryDevice on).functors.length ≤ functors := by
          simp only [forcePrimaryDevice, List.length_append, List.length_singleton]
          omega
        rw [total, countAfter, countAfter, List.take_of_length_le long, List.take_length]
      rw [whole, forced_total]
      exact enough
  · exact follows.devices

theorem devices_on :
    (forcePrimaryDeviceImpl setPrimaryDevice device true).devices =
      if device.force = true ∧ device.primary ≠ device.number then
        (setPrimaryDevice device.primary device.number, device.primary)
      else device.devices := by
  simp only [forcePrimaryDeviceImpl, if_true]
  split
  · rfl
  · rfl

theorem devices_off :
    (forcePrimaryDeviceImpl setPrimaryDevice device false).devices =
      if device.count - 1 = 0 ∧ device.original ≠ 0 then
        (setPrimaryDevice device.primary device.original, 0)
      else device.devices := by
  simp only [forcePrimaryDeviceImpl, Bool.false_eq_true, if_false]
  split
  · rfl
  · rfl

def TakesOver (base : ForcedDevice) : Prop := base.force = true ∧ base.primary ≠ base.number

theorem devices_taken (takes : base.TakesOver) {count : Int} (more : base.count < count) :
    base.devicesAt count = (base.number, base.primary) :=
  if_pos ⟨more, takes⟩

theorem devices_left {count : Int} (none : base.count < count → ¬base.TakesOver) :
    base.devicesAt count = base.devices :=
  if_neg fun both => none both.1 both.2

variable (started : base.WellStarted)
  (selects : ∀ present number, 0 < number → setPrimaryDevice present number = number)

include started selects

theorem follows_on (device : ForcedDevice) (force : device.force = base.force)
    (number : device.number = base.number)
    (above : base.count ≤ device.count) (now : device.devices = base.devicesAt device.count) :
    (forcePrimaryDeviceImpl setPrimaryDevice device true).devices =
      base.devicesAt (device.count + 1) := by
  rw [devices_on, force, number]
  by_cases takes : base.TakesOver
  · rw [devices_taken takes (by omega : base.count < device.count + 1)]
    by_cases more : base.count < device.count
    · -- The device is the primary one already.
      rw [devices_taken takes more] at now
      rw [if_neg fun both => both.2 (congrArg Prod.fst now), now]
    · rw [devices_left fun less => absurd less more] at now
      have primary : device.primary = base.primary := congrArg Prod.fst now
      have asked : base.force = true ∧ base.primary ≠ base.number := takes
      rw [primary, if_pos asked, selects _ _ started.numbered]
  · rw [devices_left fun _ => takes] at now ⊢
    have primary : device.primary = base.primary := congrArg Prod.fst now
    have refused : ¬(base.force = true ∧ base.primary ≠ base.number) := takes
    rw [primary, if_neg refused, now]

theorem follows_off (device : ForcedDevice) (above : base.count ≤ device.count - 1)
    (now : device.devices = base.devicesAt device.count) :
    (forcePrimaryDeviceImpl setPrimaryDevice device false).devices =
      base.devicesAt (device.count - 1) := by
  rw [devices_off]
  by_cases takes : base.TakesOver
  · rw [devices_taken takes (by omega : base.count < device.count)] at now
    have original : device.original = base.primary := congrArg Prod.snd now
    cases started.start with
    | inl zero =>
        have present := started.present
        by_cases last : device.count - 1 = 0
        · rw [if_pos ⟨last, by omega⟩, original, selects _ _ present, devices_left (by omega),
            devices, zero.2]
        · rw [if_neg fun both => last both.1, now, devices_taken takes (by omega)]
    | inr one => exact absurd one.2.2 takes.2
  · rw [devices_left fun _ => takes] at now ⊢
    have original : device.original = base.original := congrArg Prod.snd now
    cases started.start with
    | inl zero => rw [if_neg fun both => both.2 (original.trans zero.2), now]
    | inr one => rw [if_neg fun both => by omega, now]

theorem follows_round (follows : base.Follows device) :
    base.Follows (mainThreadRound setPrimaryDevice device) := by
  cases queued : device.functors with
  | nil =>
      have unchanged : mainThreadRound setPrimaryDevice device = device := by
        rw [mainThreadRound, queued]
      rw [unchanged]
      exact follows
  | cons on rest =>
      have pending : device.functors ≠ [] := by
        rw [queued]
        exact List.cons_ne_nil on rest
      have round : mainThreadRound setPrimaryDevice device =
          forcePrimaryDeviceImpl setPrimaryDevice { device with functors := rest } on := by
        rw [mainThreadRound, queued]
      have now := follows.above 0
      have next := follows.above 1
      rw [count_after_zero] at now
      rw [countAfter, queued, List.take_succ_cons, List.take_zero, List.map_singleton,
        List.sum_singleton] at next
      constructor
      · rw [round, (impl_fixed on).1]
        exact follows.force
      · rw [round, (impl_fixed on).2.1]
        exact follows.number
      · intro functors
        rw [round_count_after functors pending]
        exact follows.above (functors + 1)
      · rw [round, impl_count]
        cases on with
        | true =>
            exact follows_on started selects { device with functors := rest }
              follows.force follows.number now follows.devices
        | false =>
            exact follows_off started selects { device with functors := rest }
              next follows.devices

theorem follows_rounds (rounds : Nat) (follows : base.Follows device) :
    base.Follows ((mainThreadRound setPrimaryDevice)^[rounds] device) := by
  induction rounds generalizing device with
  | zero => exact follows
  | succ rounds induction =>
      rw [Function.iterate_succ_apply]
      exact induction (follows_round started selects follows)

omit started selects

theorem rounds_total (rounds : Nat) :
    ((mainThreadRound setPrimaryDevice)^[rounds] device).total = device.total := by
  induction rounds generalizing device with
  | zero => rfl
  | succ rounds induction => rw [Function.iterate_succ_apply, induction, round_total]

theorem rounds_functors (rounds : Nat) :
    ((mainThreadRound setPrimaryDevice)^[rounds] device).functors = device.functors.drop rounds := by
  induction rounds generalizing device with
  | zero => rfl
  | succ rounds induction =>
      rw [Function.iterate_succ_apply, induction, round_functors, List.drop_tail]

theorem settled_functors : (device.settled setPrimaryDevice).functors = [] := by
  rw [settled, rounds_functors, List.drop_length]

theorem settled_count : (device.settled setPrimaryDevice).count = device.total := by
  have same : (device.settled setPrimaryDevice).total = device.total :=
    rounds_total device.functors.length
  rw [← same]
  rw [total, settled_functors, List.length_nil, count_after_zero]

end ForcedDevice
end Xineliboutput.Device
