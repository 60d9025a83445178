import Mathlib.Tactic.Linarith
import Mathlib.Tactic.Ring
import Xineliboutput.Udp.TimePts

/-!
# The scheduler's clock is a tick counter in 33 bits

Every reading is that of the tick counter modulo 2^33. `Now` masks only while the clock
runs; while it is paused the stored value is returned as it is, so that it has to be in
range itself.
-/

namespace Xineliboutput.Udp

open Xineliboutput.Foundation

set_option autoImplicit false

theorem int64_some {value : Int} (lower : 0 ≤ value) (upper : value < 2 ^ 63) :
    int64 value = some value := by
  rw [int64, if_pos ⟨by omega, upper⟩]

theorem int32_some {value : Int} (lower : 0 ≤ value) (upper : value < 2 ^ 31) :
    int32 value = some value := by
  rw [int32, if_pos ⟨by omega, upper⟩]

namespace TimePts

structure Matches (clock : TimePts) (counter : TickCounter) : Prop where
  since : clock.tbegin = counter.since
  paused : clock.paused = counter.paused
  multiplier : clock.multiplier = counter.multiplier
  scrSpeed : clock.scrSpeed = counter.scrSpeed
  position : clock.begin % scrWrap = counter.position % scrWrap
  lower : 0 ≤ clock.begin
  upper : clock.begin < scrWrap + initialBurstTime
  stored : clock.paused = true → clock.begin < scrWrap
  speeds : 0 < clock.scrSpeed ∧ clock.scrSpeed < 2 ^ 31
  multipliers : 0 ≤ clock.multiplier ∧ clock.multiplier < 2 ^ 31

theorem elapsed_micros (clock : TimePts) (time : Timeval) :
    1000000 * (clock.elapsed time).1 + (clock.elapsed time).2 =
        time.micros - clock.tbegin.micros ∧
      0 ≤ (clock.elapsed time).2 ∧ (clock.elapsed time).2 < 1000000 := by
  have bound1 := time.usec.isLt
  have bound2 := clock.tbegin.usec.isLt
  unfold elapsed Timeval.micros
  split
  · rename_i borrow
    have less : time.usec.val < clock.tbegin.usec.val := borrow
    simp only
    omega
  · rename_i noBorrow
    have notLess : ¬ time.usec.val < clock.tbegin.usec.val := noBorrow
    simp only
    omega

/-- Whole seconds and the rest of a second together make the ticks of the elapsed time. -/
theorem scr_ticks_eq {clock : TimePts} {time : Timeval}
    (speeds : 0 < clock.scrSpeed ∧ clock.scrSpeed < 2 ^ 31)
    (ordered : clock.tbegin.micros ≤ time.micros)
    (fits : (time.micros - clock.tbegin.micros) * clock.scrSpeed / 1000000 < 2 ^ 63) :
    clock.scrTicks time =
      some ((time.micros - clock.tbegin.micros) * clock.scrSpeed / 1000000) := by
  obtain ⟨total, restLower, restUpper⟩ := elapsed_micros clock time
  obtain ⟨positive, small⟩ := speeds
  have secLower : 0 ≤ (clock.elapsed time).1 := by omega
  rw [scrTicks, ← total]
  rw [← total] at fits
  have wholeLower := Int.mul_nonneg secLower positive.le
  have partLower := Int.mul_nonneg restLower positive.le
  have partUpper : (clock.elapsed time).2 * clock.scrSpeed < 1000000 * 2 ^ 31 := by
    nlinarith
  have split_ : (1000000 * (clock.elapsed time).1 + (clock.elapsed time).2) * clock.scrSpeed =
      1000000 * ((clock.elapsed time).1 * clock.scrSpeed) +
        (clock.elapsed time).2 * clock.scrSpeed := by
    ring
  rw [split_] at fits ⊢
  generalize (clock.elapsed time).1 * clock.scrSpeed = whole at *
  generalize (clock.elapsed time).2 * clock.scrSpeed = part at *
  rw [int64_some wholeLower (by omega), Option.bind_some, int64_some partLower (by omega),
    Option.bind_some, Int.tdiv_eq_ediv_of_nonneg partLower]
  rw [int64_some (by omega) (by omega)]
  congr 1
  omega

theorem ticks_eq {clock : TimePts} {counter : TickCounter} (related : clock.Matches counter)
    {time : Timeval} (ordered : clock.tbegin.micros ≤ time.micros)
    (countable : clock.Countable time) (running : clock.paused = false) :
    clock.ticks time = some (counter.counted time) ∧ 0 ≤ counter.counted time ∧
      counter.counted time + clock.begin < 2 ^ 63 := by
  have bounds := countable running
  dsimp only at bounds
  obtain ⟨scrFits, fits⟩ := bounds
  have upper := related.upper
  have scrLower : 0 ≤ (time.micros - clock.tbegin.micros) * clock.scrSpeed / 1000000 :=
    Int.ediv_nonneg (Int.mul_nonneg (by omega) related.speeds.1.le) (by decide)
  unfold TickCounter.counted
  rw [← related.since, ← related.scrSpeed, ← related.multiplier]
  rw [ticks, scr_ticks_eq related.speeds ordered scrFits, Option.bind_some]
  generalize (time.micros - clock.tbegin.micros) * clock.scrSpeed / 1000000 = scrTicks at *
  by_cases normal : clock.multiplier = 90000
  · rw [if_pos normal] at fits
    rw [if_neg (not_not.mpr normal), normal, Int.mul_ediv_cancel _ (by decide)]
    exact ⟨rfl, scrLower, fits⟩
  · rw [if_neg normal] at fits
    have productLower := Int.mul_nonneg scrLower related.multipliers.1
    rw [if_pos normal, int64_some productLower fits, Option.map_some,
      Int.tdiv_eq_ediv_of_nonneg productLower]
    simp only [scrWrap, initialBurstTime] at upper
    generalize scrTicks * clock.multiplier = product at *
    exact ⟨rfl, by omega, by omega⟩

theorem Matches.begin_eq {clock : TimePts} {counter : TickCounter}
    (related : clock.Matches counter) (paused : clock.paused = true) :
    clock.begin = counter.position % scrWrap := by
  rw [← related.position, Int.emod_eq_of_lt related.lower (related.stored paused)]

theorem now_eq {clock : TimePts} {counter : TickCounter} (related : clock.Matches counter)
    {time : Timeval} (ordered : clock.tbegin.micros ≤ time.micros)
    (countable : clock.Countable time) :
    clock.now time = some (counter.reading time % scrWrap) := by
  unfold now TickCounter.reading
  rw [← related.paused]
  cases paused : clock.paused with
  | true => rw [if_pos rfl, if_pos rfl, related.begin_eq paused]
  | false =>
      obtain ⟨counted, lower, upper⟩ := ticks_eq related ordered countable paused
      have beginLower := related.lower
      rw [if_neg Bool.false_ne_true, if_neg Bool.false_ne_true, counted, Option.bind_some,
        int64_some (by omega) upper, Option.map_some, Int.add_comm, Int.add_emod,
        related.position, ← Int.add_emod]

theorem now_pivot (clock : TimePts) (lower : 0 ≤ clock.begin) (upper : clock.begin < scrWrap) :
    clock.now clock.tbegin = some clock.begin := by
  have still : clock.ticks clock.tbegin = some 0 := by
    simp [ticks, scrTicks, elapsed, int64]
  have fits : clock.begin < 2 ^ 63 := upper.trans (by decide)
  unfold now
  split
  · rfl
  · rw [still, Option.bind_some, Int.zero_add, int64_some lower fits, Option.map_some,
      Int.emod_eq_of_lt lower upper]

/-- A change that stores the present reading keeps it, and the counter follows. -/
theorem matches_rebased {counter : TickCounter} {time : Timeval} {pts : Int}
    (reading : pts = counter.reading time % scrWrap)
    {next : TimePts} {nextCounter : TickCounter}
    (begin_ : next.begin = pts) (tbegin : next.tbegin = time)
    (position : nextCounter.position = counter.reading time) (since : nextCounter.since = time)
    (paused : next.paused = nextCounter.paused)
    (multiplier : next.multiplier = nextCounter.multiplier)
    (scrSpeed : next.scrSpeed = nextCounter.scrSpeed)
    (speeds : 0 < next.scrSpeed ∧ next.scrSpeed < 2 ^ 31)
    (multipliers : 0 ≤ next.multiplier ∧ next.multiplier < 2 ^ 31) :
    next.Matches nextCounter ∧ next.now time = some pts := by
  have lower : 0 ≤ pts := reading ▸ Int.emod_nonneg _ (by decide)
  have upper : pts < scrWrap := reading ▸ Int.emod_lt_of_pos _ (by decide)
  have shown := now_pivot next (begin_ ▸ lower) (begin_ ▸ upper)
  rw [tbegin, begin_] at shown
  refine ⟨?_, shown⟩
  exact {
    since := tbegin.trans since.symm
    paused := paused
    multiplier := multiplier
    scrSpeed := scrSpeed
    position := by rw [begin_, reading, position, Int.emod_emod]
    lower := begin_ ▸ lower
    upper := by
      rw [begin_]
      exact upper.trans (by decide)
    stored := fun _ => begin_ ▸ upper
    speeds := speeds
    multipliers := multipliers }

theorem multiplier_cases {multiplier : Int} (nonzero : multiplier ≠ 0)
    (bounded : -23860 ≤ multiplier) :
    0 ≤ TickCounter.multiplierOf multiplier ∧ TickCounter.multiplierOf multiplier < 2 ^ 31 := by
  unfold TickCounter.multiplierOf
  split
  · omega
  · have positive : 0 < multiplier := by omega
    have small := Int.ediv_le_self multiplier (by decide : (0 : Int) ≤ 90000)
    exact ⟨Int.ediv_nonneg (by decide) positive.le, by omega⟩

/-- `TrickSpeed` with a proper multiplier stores the reading and the new multiplier. -/
theorem trick_speed_eq {clock : TimePts} {time : Timeval} {pts multiplier : Int}
    (read : clock.now time = some pts) (nonzero : multiplier ≠ 0)
    (bounded : -23860 ≤ multiplier) :
    clock.trickSpeed time multiplier =
      some { clock.set time pts with multiplier := TickCounter.multiplierOf multiplier } := by
  rw [trickSpeed, read, Option.bind_some]
  unfold TickCounter.multiplierOf
  by_cases negative : multiplier < 0
  · rw [if_pos negative, if_pos negative, int32_some (by omega) (by omega), Option.bind_some,
      int32_some (by omega) (by omega), Option.map_some]
  · rw [if_neg negative, if_neg negative, if_pos (by omega)]

/-- One operation, done as it is meant to be, is the counter's. Only `Set` changes what
is read at its instant. -/
theorem perform_matches {clock : TimePts} {counter : TickCounter} (related : clock.Matches counter)
    (label : Timeval × Operation) (ordered : clock.tbegin.micros ≤ label.1.micros)
    (proper : clock.Proper label) :
    ∃ next, clock.perform label = some next ∧ next.Matches (counter.perform label) ∧
      next.tbegin.micros ≤ label.1.micros ∧
      (label.2.sets = false → next.now label.1 = clock.now label.1) ∧
      (label.2.reads = true → clock.now label.1 = some (counter.reading label.1 % scrWrap)) := by
  obtain ⟨time, operation⟩ := label
  cases operation with
  | set timestamp =>
      have small := timestamp.isLt
      refine ⟨_, rfl, ?_, le_refl _, by simp [Operation.sets], by simp [Operation.reads]⟩
      exact {
        since := rfl
        paused := related.paused
        multiplier := related.multiplier
        scrSpeed := related.scrSpeed
        position := rfl
        lower := by
          simp only [set, initialBurstTime]
          omega
        upper := by
          simp only [set, scrWrap]
          omega
        stored := proper
        speeds := related.speeds
        multipliers := related.multipliers }
  | pause =>
      have read := now_eq related ordered proper
      have rebased : ({ clock.set time (counter.reading time % scrWrap) with paused := true } :
          TimePts).Matches { counter.rebase time with paused := true } ∧ _ :=
        matches_rebased rfl rfl rfl rfl rfl rfl related.multiplier related.scrSpeed related.speeds
          related.multipliers
      refine ⟨_, by rw [perform, pause, read, Option.map_some], rebased.1, le_refl _, ?_, ?_⟩
      · exact fun _ => rebased.2.trans read.symm
      · exact fun _ => read
  | resume =>
      simp only [perform, resume, TickCounter.perform]
      cases paused : clock.paused with
      | false =>
          rw [if_neg Bool.false_ne_true, if_neg (by simp [← related.paused, paused])]
          exact ⟨_, rfl, related, ordered, fun _ => rfl, by simp [Operation.reads]⟩
      | true =>
          rw [if_pos rfl, if_pos (related.paused ▸ paused)]
          have read : clock.now time = some clock.begin := by rw [now, if_pos paused]
          have stored : clock.begin = counter.reading time % scrWrap := by
            rw [related.begin_eq paused, TickCounter.reading, if_pos (related.paused ▸ paused)]
          have rebased : ({ clock.set time clock.begin with paused := false } : TimePts).Matches
              { counter.rebase time with paused := false } ∧ _ :=
            matches_rebased stored rfl rfl rfl rfl rfl related.multiplier related.scrSpeed
              related.speeds related.multipliers
          refine ⟨_, rfl, rebased.1, le_refl _, ?_, by simp [Operation.reads]⟩
          exact fun _ => rebased.2.trans read.symm
  | trickSpeed multiplier =>
      obtain ⟨countable, nonzero, bounded⟩ := proper
      have read := now_eq related ordered countable
      have rebased : ({ clock.set time (counter.reading time % scrWrap) with
          multiplier := TickCounter.multiplierOf multiplier } : TimePts).Matches
            { counter.rebase time with multiplier := TickCounter.multiplierOf multiplier } ∧ _ :=
        matches_rebased rfl rfl rfl rfl rfl related.paused rfl related.scrSpeed related.speeds
          (multiplier_cases nonzero bounded)
      refine ⟨_, trick_speed_eq read nonzero bounded, rebased.1, le_refl _, ?_, fun _ => read⟩
      exact fun _ => rebased.2.trans read.symm
  | setScrSpeed speed =>
      obtain ⟨countable, positive, bounded⟩ := proper
      have read := now_eq related ordered countable
      have rebased : ({ clock.set time (counter.reading time % scrWrap) with
          scrSpeed := speed } : TimePts).Matches
            { counter.rebase time with scrSpeed := speed } ∧ _ :=
        matches_rebased rfl rfl rfl rfl rfl related.paused related.multiplier rfl
          ⟨positive, bounded⟩ related.multipliers
      refine ⟨_, by rw [perform, setScrSpeed, read, Option.map_some], rebased.1, le_refl _, ?_, ?_⟩
      · exact fun _ => rebased.2.trans read.symm
      · exact fun _ => read
  | now =>
      have read := now_eq related ordered proper
      refine ⟨clock, by rw [perform, read, Option.map_some], related, ordered, fun _ => rfl, ?_⟩
      exact fun _ => read

end TimePts

/-! ## The counter -/

namespace TickCounter

theorem reading_since (counter : TickCounter) :
    counter.reading counter.since = counter.position := by
  simp [reading, counted]

theorem perform_reading (counter : TickCounter) (label : Timeval × TimePts.Operation)
    (keeps : label.2.sets = false) :
    (counter.perform label).reading label.1 = counter.reading label.1 := by
  obtain ⟨time, operation⟩ := label
  cases operation with
  | set timestamp => cases keeps
  | pause => exact reading_since { counter.rebase time with paused := true }
  | resume =>
      simp only [perform]
      split
      · exact reading_since { counter.rebase time with paused := false }
      · rfl
  | trickSpeed multiplier =>
      exact reading_since { counter.rebase time with multiplier := multiplierOf multiplier }
  | setScrSpeed speed => exact reading_since { counter.rebase time with scrSpeed := speed }
  | now => rfl

theorem reading_paused {counter : TickCounter} (paused : counter.paused = true)
    (time later : Timeval) : counter.reading time = counter.reading later := by
  simp [reading, paused]

theorem ticks_between (elapsed between speed : Int) :
    elapsed * speed / 1000000 + between * speed / 1000000 ≤
      (elapsed + between) * speed / 1000000 := by
  rw [Int.add_mul]
  omega

theorem reading_mono {counter : TickCounter} (speeds : 0 < counter.scrSpeed)
    (multipliers : 0 ≤ counter.multiplier) {time later : Timeval}
    (ordered : time.micros ≤ later.micros) : counter.reading time ≤ counter.reading later := by
  unfold reading counted
  split
  · exact le_refl _
  · have elapsed : (time.micros - counter.since.micros) * counter.scrSpeed ≤
        (later.micros - counter.since.micros) * counter.scrSpeed :=
      Int.mul_le_mul_of_nonneg_right (by omega) speeds.le
    have ticks := Int.ediv_le_ediv (by decide : (0 : Int) < 1000000) elapsed
    have slowed := Int.mul_le_mul_of_nonneg_right ticks multipliers
    have counted := Int.ediv_le_ediv (by decide : (0 : Int) < 90000) slowed
    omega

/-- A running counter has moved on when the ticks passed make one of its own. -/
theorem reading_moves {counter : TickCounter} (running : counter.paused = false)
    (multipliers : 0 ≤ counter.multiplier) {time later : Timeval}
    (passed : 90000 ≤ (later.micros - time.micros) * counter.scrSpeed / 1000000 *
      counter.multiplier) :
    counter.reading time < counter.reading later := by
  have total : later.micros - counter.since.micros =
      (time.micros - counter.since.micros) + (later.micros - time.micros) := by
    omega
  have between := ticks_between (time.micros - counter.since.micros)
    (later.micros - time.micros) counter.scrSpeed
  have slowed := Int.mul_le_mul_of_nonneg_right between multipliers
  rw [← total, Int.add_mul] at slowed
  simp only [reading, counted, running, Bool.false_eq_true, if_false]
  omega

end TickCounter

/-! ## Whole runs -/

namespace TimePts

theorem new_matches (start : Timeval) : (new start).Matches (.new start) where
  since := rfl
  paused := rfl
  multiplier := rfl
  scrSpeed := rfl
  position := rfl
  lower := Int.le_refl 0
  upper := by
    show (0 : Int) < scrWrap + initialBurstTime
    decide
  stored := by simp [new]
  speeds := by simp [new]
  multipliers := by simp [new]

section Run

variable {start : Timeval} {operations : List (Timeval × Operation)}
  (begun : ∀ label ∈ operations, start.micros ≤ label.1.micros) (inOrder : InOrder operations)
  (proper : ∀ place (within : place < operations.length) clock,
    after start operations place = some clock → clock.Proper operations[place])

include begun inOrder proper

/-- In a run of proper operations nothing overflows, and the counter follows. -/
theorem run_matches (count : Nat) (within : count ≤ operations.length) :
    ∃ clock, after start operations count = some clock ∧
      clock.Matches (TickCounter.after start operations count) ∧
      ∀ inside : count < operations.length,
        clock.tbegin.micros ≤ operations[count].1.micros := by
  induction count with
  | zero =>
      refine ⟨new start, rfl, new_matches start, ?_⟩
      intro inside
      exact begun _ (List.getElem_mem inside)
  | succ count ih =>
      obtain ⟨clock, reached, related, ordered⟩ := ih (Nat.le_of_succ_le within)
      have allowed := proper count within clock reached
      obtain ⟨next, performed, onward, time, -⟩ :=
        perform_matches related operations[count] (ordered within) allowed
      refine ⟨next, ?_, ?_, ?_⟩
      · rw [after, Clock.state_after_succ _ _ within, ← after, reached]
        exact performed
      · rw [TickCounter.after, Clock.state_after_succ _ _ within]
        exact onward
      · intro inside
        exact time.trans (inOrder.next count inside)

theorem run_step (place : Nat) (within : place < operations.length) :
    (operations[place].2.sets = false →
      ((after start operations (place + 1)).bind fun clock => clock.now operations[place].1) =
        readingAt start operations place within) ∧
    (operations[place].2.reads = true → readingAt start operations place within =
      some (TickCounter.readingAt start operations place within % scrWrap)) := by
  obtain ⟨clock, reached, related, ordered⟩ :=
    run_matches begun inOrder proper place (Nat.le_of_lt within)
  obtain ⟨next, performed, -, -, keeps, reads⟩ := perform_matches related operations[place]
    (ordered within) (proper place within clock reached)
  have onward : after start operations (place + 1) = some next := by
    rw [after, Clock.state_after_succ _ _ within, ← after, reached]
    exact performed
  have here : readingAt start operations place within = clock.now operations[place].1 := by
    rw [readingAt, Clock.readingAt, ← after, reached, Option.bind_some]
  rw [onward, here, Option.bind_some]
  exact ⟨keeps, reads⟩

/-- In every run of proper operations the clock keeps its law. -/
theorem proper_run_lawful : Lawful start operations := by
  have counterKept : ∀ place (within : place < operations.length),
      operations[place].2.sets = false →
      (TickCounter.after start operations (place + 1)).reading operations[place].1 =
        TickCounter.readingAt start operations place within := by
    intro place within keeps
    rw [TickCounter.after, Clock.state_after_succ _ _ within]
    exact TickCounter.perform_reading _ _ keeps
  have bounds : ∀ count ≤ operations.length,
      0 < (TickCounter.after start operations count).scrSpeed ∧
        0 ≤ (TickCounter.after start operations count).multiplier := by
    intro count within
    obtain ⟨clock, -, related, -⟩ := run_matches begun inOrder proper count within
    exact ⟨related.scrSpeed ▸ related.speeds.1, related.multiplier ▸ related.multipliers.1⟩
  constructor
  · intro place within reads
    exact (run_step begun inOrder proper place within).2 reads
  · intro place within reads
    refine ⟨_, (run_step begun inOrder proper place within).2 reads, ?_, ?_⟩
    · exact Int.emod_nonneg _ (by decide)
    · exact Int.emod_lt_of_pos _ (by decide)
  · intro place within keeps
    exact (run_step begun inOrder proper place within).1 keeps
  · intro first last ordered within noSet
    apply Clock.readings_related (· ≤ ·) le_refl le_trans ordered within
    · exact fun place inside reached before =>
        counterKept place inside (noSet place inside reached before)
    · intro place inside reached before
      obtain ⟨speeds, multipliers⟩ := bounds (place + 1) (Nat.le_of_lt inside)
      exact TickCounter.reading_mono speeds multipliers (inOrder.next place inside)
  · intro first last ordered within noSet paused
    apply Clock.readings_related (· = ·) (fun _ => rfl) Eq.trans ordered within
    · exact fun place inside reached before =>
        counterKept place inside (noSet place inside reached before)
    · intro place inside reached before
      exact TickCounter.reading_paused (paused (place + 1) (by omega) (by omega)) _ _
  · intro place within keeps running passed
    have moved := TickCounter.reading_moves running (bounds (place + 1) (Nat.le_of_lt within)).2
      passed
    rw [counterKept place (Nat.lt_of_succ_lt within) keeps] at moved
    exact moved

end Run

def setWhilePaused (timestamp : Fin (2 ^ 33)) : List (Timeval × Operation) :=
  [(⟨1, 0⟩, .pause), (⟨2, 0⟩, .set timestamp), (⟨3, 0⟩, .now)]

theorem proper_run_lawful_paused : Lawful ⟨0, 0⟩ (setWhilePaused 90000) :=
  proper_run_lawful (by decide) (by decide) (by
    intro place within clock reached
    have inside : place = 0 ∨ place = 1 ∨ place = 2 := by
      simp only [setWhilePaused, List.length_cons, List.length_nil] at within
      omega
    rcases inside with rfl | rfl | rfl
    · have same : after ⟨0, 0⟩ (setWhilePaused 90000) 0 = some (new ⟨0, 0⟩) := rfl
      rw [same] at reached
      cases reached
      exact fun _ => by decide
    · have same : after ⟨0, 0⟩ (setWhilePaused 90000) 1 =
          some ⟨90000, ⟨1, 0⟩, true, 90000, 90000⟩ := by rfl
      rw [same] at reached
      cases reached
      exact fun _ => by decide
    · have same : after ⟨0, 0⟩ (setWhilePaused 90000) 2 =
          some ⟨135000, ⟨2, 0⟩, true, 90000, 90000⟩ := by rfl
      rw [same] at reached
      cases reached
      exact fun running => by cases running)

/-- The last time stamp before the wrap, set in a pause, is returned unmasked. -/
theorem paused_reading_out_of_range :
    ¬ ∀ (start : Timeval) (operations : List (Timeval × Operation)),
      (∀ label ∈ operations, start.micros ≤ label.1.micros) → InOrder operations →
        (∀ label ∈ operations, label.2 ≠ .trickSpeed 0) → Lawful start operations := by
  intro claimed
  have law := claimed ⟨0, 0⟩ (setWhilePaused (2 ^ 33 - 1)) (by decide) (by decide)
    (by simp [setWhilePaused])
  obtain ⟨reading, read, -, below⟩ := law.inRange 2 (by decide) rfl
  have shown : readingAt ⟨0, 0⟩ (setWhilePaused (2 ^ 33 - 1)) 2 (by decide) =
      some (2 ^ 33 - 1 + 45000) := by rfl
  rw [shown, Option.mem_def, Option.some.injEq] at read
  rw [← read] at below
  exact absurd below (by decide)

end TimePts
end Xineliboutput.Udp
