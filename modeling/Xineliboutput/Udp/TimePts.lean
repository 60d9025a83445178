import Mathlib.Algebra.Ring.Int.Defs
import Xineliboutput.Foundation.ClockReadings

/-!
# The clock of the scheduler

`cTimePts` of `tools/time_pts.c`: an adjustable clock in units of 1/90000 s, with readings
of 33 bits. Where an `int` or an `int64_t` overflows there is no result. The system clock
is monotonic and can be read.
-/

namespace Xineliboutput.Udp

open Xineliboutput.Foundation

set_option autoImplicit false

/-- `MAX_SCR + 1` -/
abbrev scrWrap : Int := 2 ^ 33

def initialBurstTime : Int := 45000

/-- A value of type `int64_t`. -/
def int64 (value : Int) : Option Int :=
  if -2 ^ 63 ≤ value ∧ value < 2 ^ 63 then some value else none

/-- A value of type `int`. -/
def int32 (value : Int) : Option Int :=
  if -2 ^ 31 ≤ value ∧ value < 2 ^ 31 then some value else none

structure TimePts where
  begin : Int
  tbegin : Timeval
  paused : Bool
  multiplier : Int
  scrSpeed : Int

namespace TimePts

variable (clock : TimePts)

/-- `t - tbegin`, in seconds and microseconds. -/
def elapsed (time : Timeval) : Int × Int :=
  if time.usec < clock.tbegin.usec then
    (time.sec - clock.tbegin.sec - 1, time.usec.val + 1000000 - clock.tbegin.usec.val)
  else (time.sec - clock.tbegin.sec, time.usec.val - clock.tbegin.usec.val)

/-- `pts` at normal speed. -/
def scrTicks (time : Timeval) : Option Int :=
  (int64 ((clock.elapsed time).1 * clock.scrSpeed)).bind fun whole =>
    (int64 ((clock.elapsed time).2 * clock.scrSpeed)).bind fun part =>
      int64 (whole + part.tdiv 1000000)

/-- `pts` at the current speed. -/
def ticks (time : Timeval) : Option Int :=
  (clock.scrTicks time).bind fun pts =>
    if clock.multiplier ≠ 90000 then
      (int64 (pts * clock.multiplier)).map fun product => product.tdiv 90000
    else some pts

def now (time : Timeval) : Option Int :=
  if clock.paused then some clock.begin
  else (clock.ticks time).bind fun pts =>
    (int64 (pts + clock.begin)).map fun sum => sum % scrWrap

def set (time : Timeval) (pts : Int) : TimePts := { clock with begin := pts, tbegin := time }

def pause (time : Timeval) : Option TimePts :=
  (clock.now time).map fun pts => { clock.set time pts with paused := true }

def resume (time : Timeval) : TimePts :=
  if clock.paused then { clock.set time clock.begin with paused := false } else clock

def trickSpeed (time : Timeval) (multiplier : Int) : Option TimePts :=
  (clock.now time).bind fun pts =>
    if multiplier < 0 then
      (int32 (-multiplier)).bind fun magnitude =>
        (int32 (90000 * magnitude)).map fun product =>
          { clock.set time pts with multiplier := product }
    else if 0 < multiplier then
      some { clock.set time pts with multiplier := 90000 / multiplier }
    else some (clock.set time pts)

def setScrSpeed (time : Timeval) (scrSpeed : Int) : Option TimePts :=
  (clock.now time).map fun pts => { clock.set time pts with scrSpeed := scrSpeed }

def new (time : Timeval) : TimePts where
  begin := 0
  tbegin := time
  paused := false
  multiplier := 90000
  scrSpeed := 90000

/-- The calls of `cUdpScheduler`; the clock is set to a time stamp of 33 bits and
`INITIAL_BURST_TIME`. -/
inductive Operation where
  | set (timestamp : Fin (2 ^ 33))
  | pause
  | resume
  | trickSpeed (multiplier : Int)
  | setScrSpeed (speed : Int)
  | now

def perform (clock : TimePts) : Timeval × Operation → Option TimePts
  | (time, .set timestamp) => some (clock.set time (timestamp.val + initialBurstTime))
  | (time, .pause) => clock.pause time
  | (time, .resume) => some (clock.resume time)
  | (time, .trickSpeed multiplier) => clock.trickSpeed time multiplier
  | (time, .setScrSpeed speed) => clock.setScrSpeed time speed
  | (time, .now) => (clock.now time).map fun _ => clock

/-- The clock after the first operations, as long as nothing has overflowed. -/
abbrev after (start : Timeval) (operations : List (Timeval × Operation)) (count : Nat) :
    Option TimePts :=
  Clock.stateAfter (fun clock label => clock.bind fun clock => clock.perform label)
    (some (new start)) operations count

/-- What `Now` returns just before an operation. -/
abbrev readingAt (start : Timeval) (operations : List (Timeval × Operation)) (place : Nat)
    (within : place < operations.length) : Option Int :=
  Clock.readingAt (fun clock label => clock.bind fun clock => clock.perform label)
    (fun clock time => clock.bind fun clock => clock.now time) (some (new start)) operations place
    within

end TimePts

/-! ## A clock that never wraps -/

/-- The same clock with exact numbers of any size: it counts ticks from a position. -/
structure TickCounter where
  position : Int
  since : Timeval
  paused : Bool
  multiplier : Int
  scrSpeed : Int

namespace TickCounter

variable (counter : TickCounter)

def counted (time : Timeval) : Int :=
  (time.micros - counter.since.micros) * counter.scrSpeed / 1000000 * counter.multiplier / 90000

def reading (time : Timeval) : Int :=
  if counter.paused then counter.position else counter.position + counter.counted time

def rebase (time : Timeval) : TickCounter :=
  { counter with position := counter.reading time, since := time }

def multiplierOf (multiplier : Int) : Int :=
  if multiplier < 0 then 90000 * -multiplier else 90000 / multiplier

def perform (counter : TickCounter) : Timeval × TimePts.Operation → TickCounter
  | (time, .set timestamp) =>
      { counter with position := timestamp.val + initialBurstTime, since := time }
  | (time, .pause) => { counter.rebase time with paused := true }
  | (time, .resume) =>
      if counter.paused then { counter.rebase time with paused := false } else counter
  | (time, .trickSpeed multiplier) =>
      { counter.rebase time with multiplier := multiplierOf multiplier }
  | (time, .setScrSpeed speed) => { counter.rebase time with scrSpeed := speed }
  | (_, .now) => counter

def new (time : Timeval) : TickCounter := ⟨0, time, false, 90000, 90000⟩

abbrev after (start : Timeval) (operations : List (Timeval × TimePts.Operation)) (count : Nat) :
    TickCounter :=
  Clock.stateAfter perform (new start) operations count

abbrev readingAt (start : Timeval) (operations : List (Timeval × TimePts.Operation))
    (place : Nat) (within : place < operations.length) : Int :=
  Clock.readingAt perform reading (new start) operations place within

end TickCounter

/-! ## The law -/

namespace TimePts

def Operation.reads : Operation → Bool
  | .pause | .trickSpeed _ | .setScrSpeed _ | .now => true
  | .set _ | .resume => false

def Operation.sets : Operation → Bool
  | .set _ => true
  | .pause | .resume | .trickSpeed _ | .setScrSpeed _ | .now => false

def Countable (clock : TimePts) (time : Timeval) : Prop :=
  clock.paused = false →
    let ticks := (time.micros - clock.tbegin.micros) * clock.scrSpeed / 1000000
    ticks < 2 ^ 63 ∧
      if clock.multiplier = 90000 then ticks + clock.begin < 2 ^ 63
      else ticks * clock.multiplier < 2 ^ 63

/-- When an operation does what it is meant to do: a paused clock is set to 33 bits, the
multiplier is not zero and its product is an `int`, and the speed is positive. -/
def Proper (clock : TimePts) : Timeval × Operation → Prop
  | (_, .set timestamp) => clock.paused = true → timestamp.val + initialBurstTime < scrWrap
  | (time, .pause) | (time, .now) => clock.Countable time
  | (_, .resume) => True
  | (time, .trickSpeed multiplier) =>
      clock.Countable time ∧ multiplier ≠ 0 ∧ -23860 ≤ multiplier
  | (time, .setScrSpeed speed) => clock.Countable time ∧ 0 < speed ∧ speed < 2 ^ 31

/-- The readings are those of the tick counter in 33 bits; only `Set` changes them at its
instant; and between two of these the counter never goes back, stands still while it is
paused, and otherwise moves on as soon as the ticks of the system clock make one of its own. -/
structure Lawful (start : Timeval) (operations : List (Timeval × Operation)) : Prop where
  wraps : ∀ place (within : place < operations.length), operations[place].2.reads = true →
    readingAt start operations place within =
      some (TickCounter.readingAt start operations place within % scrWrap)
  inRange : ∀ place (within : place < operations.length), operations[place].2.reads = true →
    ∃ reading ∈ readingAt start operations place within, 0 ≤ reading ∧ reading < scrWrap
  kept : ∀ place (within : place < operations.length), operations[place].2.sets = false →
    ((after start operations (place + 1)).bind fun clock => clock.now operations[place].1) =
      readingAt start operations place within
  forward : ∀ first last (ordered : first ≤ last) (within : last < operations.length),
    (∀ place (inside : place < operations.length), first ≤ place → place < last →
      operations[place].2.sets = false) →
    TickCounter.readingAt start operations first (Nat.lt_of_le_of_lt ordered within) ≤
      TickCounter.readingAt start operations last within
  still : ∀ first last (ordered : first ≤ last) (within : last < operations.length),
    (∀ place (inside : place < operations.length), first ≤ place → place < last →
      operations[place].2.sets = false) →
    (∀ count, first < count → count ≤ last →
      (TickCounter.after start operations count).paused = true) →
    TickCounter.readingAt start operations first (Nat.lt_of_le_of_lt ordered within) =
      TickCounter.readingAt start operations last within
  moves : ∀ place (within : place + 1 < operations.length), operations[place].2.sets = false →
    (TickCounter.after start operations (place + 1)).paused = false →
    90000 ≤ (operations[place + 1].1.micros - operations[place].1.micros) *
      (TickCounter.after start operations (place + 1)).scrSpeed / 1000000 *
        (TickCounter.after start operations (place + 1)).multiplier →
    TickCounter.readingAt start operations place (Nat.lt_of_succ_lt within) <
      TickCounter.readingAt start operations (place + 1) within

end TimePts
end Xineliboutput.Udp
