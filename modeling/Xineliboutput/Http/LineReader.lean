import Xineliboutput.Foundation.Block
import Xineliboutput.Foundation.Texts

/-!
# Reading lines from a socket

`cxSocket::readline` of `cxsocket.c`, and a caller that continues an incomplete line where the
last call stopped. A call is `none` where it writes outside of the buffer.
-/

namespace Xineliboutput.Http

open Xineliboutput.Foundation

set_option autoImplicit false

inductive Errno where
  | ok
  | again
  | notConnected
  | other
  deriving DecidableEq

/-- What a socket has to offer, one after the other. In a pause there is nothing to read; it may
last longer than the timeout. -/
inductive SocketEvent where
  | byte (value : UInt8)
  | pause (expires : Bool)
  | closed
  | failed

/-- A call that has returned, and what it leaves. -/
structure Returned where
  value : Int
  errno : Errno
  buf : List UInt8
  events : List SocketEvent

/-- `buf[i] = byte` -/
def storeByte (buf : List UInt8) (i : Nat) (byte : UInt8) : Option (List UInt8) :=
  if i < buf.length then some (buf.set i byte) else none

/-- `cnt > 1 && buf[cnt - 2] == '\r' && buf[cnt - 1] == '\n'` -/
def lineEnds (buf : List UInt8) (cnt : Nat) : Bool :=
  1 < cnt && buf.getD (cnt - 2) 0 == cr && buf.getD (cnt - 1) 0 == lf

/-- The loops from a `read` on; `polls` where `timeout > 0`. Then a pause is over after the
`Poll` that comes before the next `read`, and otherwise when the caller comes back. The inner
`none` is a call that waits. -/
def readLoop (bufsize : Nat) (polls : Bool) :
    List SocketEvent → List UInt8 → Nat → Errno → Option (Option Returned)
  | [], _, _, _ => some none
  | .byte byte :: events, buf, cnt, errno =>
      (storeByte buf cnt byte).bind fun buf => (storeByte buf (cnt + 1) 0).bind fun buf =>
        if lineEnds buf (cnt + 1) then
          (storeByte buf (cnt - 1) 0).map fun buf => some ⟨(cnt - 1 : Nat), .ok, buf, events⟩
        else if cnt + 1 ≥ bufsize then some (some ⟨bufsize, .ok, buf, events⟩)
        else readLoop bufsize polls events buf (cnt + 1) errno
  | .pause expires :: events, buf, cnt, _ =>
      if polls ∧ ¬expires then readLoop bufsize polls events buf cnt .again
      else some (some ⟨cnt, .again, buf, events⟩)
  | .closed :: events, buf, _, errno =>
      some (some ⟨-1, if errno = .again then .notConnected else errno, buf, events⟩)
  | .failed :: events, buf, _, _ => some (some ⟨-1, .other, buf, events⟩)

/-- `readline`, which begins with a `Poll` where `timeout > 0`. -/
def readline (bufsize : Nat) (polls : Bool) (events : List SocketEvent) (buf : List UInt8)
    (bufpos : Nat) (errno : Errno) : Option (Option Returned) :=
  match polls, events with
  | true, .pause expires :: events =>
      if expires then some (some ⟨bufpos, .again, buf, events⟩)
      else readLoop bufsize polls events buf bufpos errno
  | _, _ => readLoop bufsize polls events buf bufpos errno

/-- The calls of a caller that passes the count of an incomplete line back, until the connection
is gone, a line was too long or there is nothing more to wait for. -/
def readLines (bufsize : Nat) (polls : Bool) :
    Nat → List SocketEvent → List UInt8 → Nat → Errno → Option (List Returned)
  | 0, _, _, _, _ => some []
  | calls + 1, events, buf, bufpos, errno =>
      (readline bufsize polls events buf bufpos errno).bind fun outcome =>
        match outcome with
        | none => some []
        | some call =>
            if call.value < 0 then some [call]
            else if call.errno = .again then
              (readLines bufsize polls calls call.events call.buf call.value.toNat call.errno).map
                fun later => call :: later
            else if call.value ≥ bufsize then some [call]
            else
              (readLines bufsize polls calls call.events call.buf 0 call.errno).map
                fun later => call :: later

/-! ## Lines -/

/-- The bytes that arrive as long as the connection lasts. -/
def received : List SocketEvent → List UInt8
  | [] => []
  | .byte byte :: events => byte :: received events
  | .pause _ :: events => received events
  | .closed :: _ => []
  | .failed :: _ => []

/-- A call that reports a line: not an incomplete one, and not the end of the connection. -/
def Returned.reports (call : Returned) : Bool := call.errno ≠ .again ∧ 0 ≤ call.value

/-- The line is in the buffer, with a NUL behind it. -/
structure Returned.Holds (call : Returned) (text : List UInt8) : Prop where
  value : call.value = text.length
  errno : call.errno = .ok
  same : call.buf.take text.length = text
  terminated : call.buf[text.length]? = some 0

/-- Each line is reported as it is, up to one for which there is no room. That one is reported by
the size of the buffer. -/
def ReportedAs (bufsize : Nat) (rest : List UInt8) : List (List UInt8) → List Returned → Prop
  | [], reports =>
      if rest.length < bufsize then reports = [] else ∃ call, reports = [call] ∧
        call.value = bufsize
  | text :: lines, reports =>
      if text.length < bufsize then ∃ call others, reports = call :: others ∧ call.Holds text ∧
        ReportedAs bufsize rest lines others
      else ∃ call, reports = [call] ∧ call.value = bufsize

/-- All writes are inside, and what is reported are the lines that have arrived. Every call that
returns takes an event, so that there are not more calls. -/
def ReadsLines (polls : Bool) (buf : List UInt8) (errno : Errno) (events : List SocketEvent) :
    Prop :=
  ∃ calls, readLines buf.length polls (events.length + 1) events buf 0 errno = some calls ∧
    ReportedAs buf.length (linesOf [] (received events)).2 (linesOf [] (received events)).1
      (calls.filter Returned.reports)

/-- Lines with their CR LF, and what remains, are shorter than the buffer. -/
def Fits (bufsize : Nat) (text : List (List UInt8) × List UInt8) : Prop :=
  (∀ line ∈ text.1, line.length + 2 < bufsize) ∧ text.2.length < bufsize

/-! ## The buffer -/

section Buffer

variable {bufsize : Nat} {line buf : List UInt8} {byte : UInt8} {bytes : List UInt8}

/-- The buffer holds an incomplete line, and has room for a NUL. -/
structure Keeps (bufsize : Nat) (line buf : List UInt8) : Prop where
  size : buf.length = bufsize
  room : line.length < bufsize
  same : buf.take line.length = line

theorem Keeps.split (keeps : Keeps bufsize line buf) :
    ∃ next behind, buf = line ++ next :: behind := by
  have longer : buf.drop line.length ≠ [] := by
    rw [ne_eq, List.drop_eq_nil_iff, keeps.size]
    exact Nat.not_le.mpr keeps.room
  obtain ⟨next, behind, rest⟩ := List.exists_cons_of_ne_nil longer
  refine ⟨next, behind, ?_⟩
  rw [← rest]
  conv_lhs => rw [← List.take_append_drop line.length buf, keeps.same]

theorem set_behind (front rest : List UInt8) (old new : UInt8) :
    storeByte (front ++ old :: rest) front.length new = some (front ++ new :: rest) :=
  checked_set_front front rest old new

theorem line_ends_iff (line rest : List UInt8) (byte : UInt8) :
    lineEnds (line ++ byte :: rest) (line.length + 1) = decide (EndsLine line byte) := by
  have last : (line ++ byte :: rest).getD (line.length + 1 - 1) 0 = byte := by
    rw [Nat.add_sub_cancel, List.getD_append_right _ _ _ _ (Nat.le_refl _), Nat.sub_self]
    rfl
  rw [lineEnds, last]
  rcases List.eq_nil_or_concat line with rfl | ⟨front, before, rfl⟩
  · simp [EndsLine]
  · have previous : (front ++ [before] ++ byte :: rest).getD
        ((front ++ [before]).length + 1 - 2) 0 = before := by
      simp
    rw [List.concat_eq_append, previous]
    simp [EndsLine, Bool.and_comm, beq_eq_decide]

theorem store_next {next after : UInt8} (behind : List UInt8) :
    ((storeByte (line ++ next :: after :: behind) line.length byte).bind fun buf =>
      storeByte buf (line.length + 1) 0) = some (line ++ byte :: 0 :: behind) := by
  have stored := set_behind (line ++ [byte]) behind after 0
  rw [List.length_append, List.length_singleton, List.append_assoc, List.append_assoc] at stored
  rw [set_behind, Option.bind_some]
  exact stored

theorem store_outside (next : UInt8) :
    ((storeByte (line ++ [next]) line.length byte).bind fun buf =>
      storeByte buf (line.length + 1) 0) = none := by
  rw [set_behind, Option.bind_some, storeByte, if_neg]
  simp

theorem fits_line (fits : Fits bufsize (linesOf line bytes)) : line.length < bufsize := by
  induction bytes generalizing line with
  | nil => exact fits.2
  | cons byte bytes ih =>
      rw [linesOf] at fits
      split at fits
      · have first := fits.1 line.dropLast List.mem_cons_self
        rw [List.length_dropLast] at first
        omega
      · have longer := ih fits
        rw [List.length_append] at longer
        omega

theorem fits_next (fits : Fits bufsize (linesOf line (byte :: bytes))) :
    line.length + 1 < bufsize := by
  rw [linesOf] at fits
  split at fits
  · have first := fits.1 line.dropLast List.mem_cons_self
    rw [List.length_dropLast] at first
    omega
  · have longer := fits_line fits
    rw [List.length_append] at longer
    exact longer

end Buffer

/-! ## One call -/

/-- What a call may come to, after the beginning of a line. -/
inductive LineOutcome (bufsize : Nat) (line : List UInt8) (events : List SocketEvent) :
    Option (Option Returned) → Prop
  | outside (long : ¬Fits bufsize (linesOf line (received events))) :
      LineOutcome bufsize line events none
  | waits (rest : List UInt8) (short : rest.length < bufsize)
      (all : linesOf line (received events) = ([], rest)) :
      LineOutcome bufsize line events (some none)
  | paused (call : Returned) (longer : List UInt8) (value : call.value = longer.length)
      (errno : call.errno = .again) (keeps : Keeps bufsize longer call.buf)
      (fewer : call.events.length < events.length)
      (same : linesOf line (received events) = linesOf longer (received call.events)) :
      LineOutcome bufsize line events (some (some call))
  | completed (call : Returned) (text : List UInt8) (holds : call.Holds text)
      (size : call.buf.length = bufsize) (short : text.length + 2 < bufsize)
      (fewer : call.events.length < events.length)
      (same : linesOf line (received events) =
        (text :: (linesOf [] (received call.events)).1, (linesOf [] (received call.events)).2)) :
      LineOutcome bufsize line events (some (some call))
  | gone (call : Returned) (rest : List UInt8) (value : call.value = -1)
      (short : rest.length < bufsize) (all : linesOf line (received events) = ([], rest)) :
      LineOutcome bufsize line events (some (some call))

section Calls

variable {bufsize : Nat} {line buf : List UInt8} {events : List SocketEvent}
  {outcome : Option (Option Returned)} {polls : Bool} {errno : Errno}

theorem LineOutcome.later {earlier : List SocketEvent} {longer : List UInt8}
    (after : LineOutcome bufsize longer events outcome) (fewer : events.length ≤ earlier.length)
    (same : linesOf line (received earlier) = linesOf longer (received events)) :
    LineOutcome bufsize line earlier outcome := by
  cases after with
  | outside long =>
      rw [← same] at long
      exact .outside long
  | waits rest short all => exact .waits rest short (same.trans all)
  | paused call longer' value errno keeps less same' =>
      exact .paused call longer' value errno keeps (by omega) (same.trans same')
  | completed call text holds size short less same' =>
      exact .completed call text holds size short (by omega) (same.trans same')
  | gone call rest value short all => exact .gone call rest value short (same.trans all)

theorem completed_outcome (byte : UInt8) (events : List SocketEvent) (behind : List UInt8)
    (ends : EndsLine line byte) (size : (line ++ byte :: 0 :: behind).length = bufsize) :
    LineOutcome bufsize line (.byte byte :: events)
      ((storeByte (line ++ byte :: 0 :: behind) (line.length - 1) 0).map fun buf =>
        some ⟨(line.length - 1 : Nat), .ok, buf, events⟩) := by
  have whole := List.dropLast_append_getLast? cr ends.2
  have fewer : line.length - 1 = line.dropLast.length := List.length_dropLast.symm
  have stored := set_behind line.dropLast (byte :: 0 :: behind) cr 0
  have parts : line.dropLast ++ cr :: byte :: 0 :: behind = line ++ byte :: 0 :: behind := by
    conv_rhs => rw [← whole]
    rw [List.append_assoc]
    rfl
  rw [parts] at stored
  rw [fewer, stored, Option.map_some]
  rw [← parts] at size
  simp only [List.length_append, List.length_cons] at size
  apply LineOutcome.completed _ line.dropLast
  · refine ⟨rfl, rfl, List.take_left, ?_⟩
    rw [List.getElem?_append_right (Nat.le_refl _), Nat.sub_self]
    rfl
  · simp only [List.length_append, List.length_cons]
    exact size
  · omega
  · exact Nat.lt_succ_self events.length
  · rw [received, linesOf, if_pos ends]

theorem read_loop_outcome (polls : Bool) (events : List SocketEvent) (errno : Errno)
    (keeps : Keeps bufsize line buf) :
    LineOutcome bufsize line events (readLoop bufsize polls events buf line.length errno) := by
  induction events generalizing line buf errno with
  | nil => exact .waits line keeps.room rfl
  | cons event events ih =>
      cases event with
      | byte byte =>
          obtain ⟨next, behind, rfl⟩ := keeps.split
          have size := keeps.size
          rw [List.length_append, List.length_cons] at size
          cases behind with
          | nil =>
              rw [List.length_nil] at size
              rw [readLoop, ← Option.bind_assoc, store_outside]
              apply LineOutcome.outside
              intro fits
              have room := fits_next fits
              omega
          | cons after behind =>
              rw [List.length_cons] at size
              have size' : (line ++ byte :: 0 :: behind).length = bufsize := by
                rw [List.length_append, List.length_cons, List.length_cons]
                exact size
              rw [readLoop, ← Option.bind_assoc, store_next, Option.bind_some, line_ends_iff]
              by_cases ends : EndsLine line byte
              · rw [decide_eq_true ends, if_pos rfl]
                exact completed_outcome byte events behind ends size'
              · have longer : (line ++ [byte]).length = line.length + 1 := by
                  rw [List.length_append, List.length_singleton]
                have kept : Keeps bufsize (line ++ [byte]) (line ++ byte :: 0 :: behind) := by
                  refine ⟨size', by omega, ?_⟩
                  have parts : line ++ byte :: 0 :: behind = line ++ [byte] ++ 0 :: behind := by simp
                  rw [parts]
                  exact List.take_left
                rw [decide_eq_false ends, if_neg (by decide), if_neg (by omega), ← longer]
                apply (ih errno kept).later (Nat.le_succ _)
                rw [received, linesOf, if_neg ends]
      | pause expires =>
          rw [readLoop]
          split
          · exact (ih .again keeps).later (Nat.le_succ _) rfl
          · exact .paused _ line rfl rfl keeps (Nat.lt_succ_self _) rfl
      | closed => exact .gone _ line rfl keeps.room rfl
      | failed => exact .gone _ line rfl keeps.room rfl

theorem readline_outcome (polls : Bool) (events : List SocketEvent) (errno : Errno)
    (keeps : Keeps bufsize line buf) :
    LineOutcome bufsize line events (readline bufsize polls events buf line.length errno) := by
  unfold readline
  split
  · split
    · exact .paused _ line rfl rfl keeps (Nat.lt_succ_self _) rfl
    · exact (read_loop_outcome _ _ _ keeps).later (Nat.le_succ _) rfl
  · exact read_loop_outcome _ _ _ keeps

/-! ## All calls -/

theorem fits_cons_iff {text : List UInt8} {lines : List (List UInt8)} {rest : List UInt8}
    (short : text.length + 2 < bufsize) :
    Fits bufsize (text :: lines, rest) ↔ Fits bufsize (lines, rest) := by
  constructor
  · intro fits
    exact ⟨fun line member => fits.1 line (List.mem_cons_of_mem text member), fits.2⟩
  · intro fits
    refine ⟨?_, fits.2⟩
    intro line member
    rcases List.mem_cons.mp member with rfl | later
    · exact short
    · exact fits.1 line later

theorem fits_rest {rest : List UInt8} (short : rest.length < bufsize) :
    Fits bufsize ([], rest) := ⟨by simp, short⟩

theorem reported_nothing {rest : List UInt8} (short : rest.length < bufsize) :
    ReportedAs bufsize rest [] [] := by
  rw [ReportedAs, if_pos short]

theorem read_lines_outcome (polls : Bool) (calls : Nat) (errno : Errno)
    (keeps : Keeps bufsize line buf) (enough : events.length < calls) :
    (Fits bufsize (linesOf line (received events)) →
      ∃ returned, readLines bufsize polls calls events buf line.length errno = some returned ∧
        ReportedAs bufsize (linesOf line (received events)).2 (linesOf line (received events)).1
          (returned.filter Returned.reports)) ∧
    (¬Fits bufsize (linesOf line (received events)) →
      readLines bufsize polls calls events buf line.length errno = none) := by
  induction calls generalizing line buf events errno with
  | zero => omega
  | succ calls ih =>
      rw [readLines]
      have called := readline_outcome polls events errno keeps
      generalize readline bufsize polls events buf line.length errno = outcome at called
      cases called with
      | outside long => exact ⟨fun fits => absurd fits long, fun _ => rfl⟩
      | waits rest short all =>
          rw [all]
          exact ⟨fun _ => ⟨[], rfl, reported_nothing short⟩,
            fun long => absurd (fits_rest short) long⟩
      | paused call longer value errno' keeps' fewer same =>
          obtain ⟨whole, broken⟩ := @ih longer call.buf call.events call.errno keeps' (by omega)
          have silent : ¬call.reports := by simp [Returned.reports, errno']
          have natural : ¬call.value < 0 := by omega
          rw [Option.bind_some, same]
          dsimp only
          rw [if_neg natural, if_pos errno', value, Int.toNat_natCast]
          constructor
          · intro fits
            obtain ⟨returned, ran, reported⟩ := whole fits
            refine ⟨call :: returned, by rw [ran]; rfl, ?_⟩
            rw [List.filter_cons_of_neg silent]
            exact reported
          · intro long
            rw [broken long]
            rfl
      | completed call text holds size short fewer same =>
          have again : Keeps bufsize [] call.buf := ⟨size, by rw [List.length_nil]; omega, rfl⟩
          obtain ⟨whole, broken⟩ := @ih [] call.buf call.events call.errno again (by omega)
          have value := holds.value
          have errno' : call.errno ≠ .again := by rw [holds.errno]; decide
          have natural : ¬call.value < 0 := by omega
          have reports : call.reports := by simp [Returned.reports, errno', Int.not_lt.mp natural]
          have within : ¬call.value ≥ bufsize := by omega
          rw [List.length_nil] at whole broken
          rw [Option.bind_some, same, fits_cons_iff short]
          dsimp only
          rw [if_neg natural, if_neg errno', if_neg within]
          constructor
          · intro fits
            obtain ⟨returned, ran, reported⟩ := whole fits
            refine ⟨call :: returned, by rw [ran]; rfl, ?_⟩
            rw [List.filter_cons_of_pos reports, ReportedAs, if_pos (by omega)]
            exact ⟨call, _, rfl, holds, reported⟩
          · intro long
            rw [broken long]
            rfl
      | gone call rest value short all =>
          have negative : call.value < 0 := by omega
          have silent : ¬call.reports := by simp [Returned.reports, value]
          rw [Option.bind_some, all]
          dsimp only
          rw [if_pos negative]
          refine ⟨fun _ => ⟨[call], rfl, ?_⟩, fun long => absurd (fits_rest short) long⟩
          rw [List.filter_cons_of_neg silent]
          exact reported_nothing short

end Calls

/-- The calls are right exactly where each line with its CR LF, and the incomplete one at the
end, is shorter than the buffer. -/
theorem reads_lines_iff (polls : Bool) (buf : List UInt8) (errno : Errno)
    (events : List SocketEvent) (some' : 1 ≤ buf.length) :
    ReadsLines polls buf errno events ↔ Fits buf.length (linesOf [] (received events)) := by
  have keeps : Keeps buf.length [] buf := ⟨rfl, some', rfl⟩
  obtain ⟨whole, broken⟩ := read_lines_outcome polls (events.length + 1) errno keeps
    (Nat.lt_succ_self events.length)
  rw [List.length_nil] at whole broken
  constructor
  · rintro ⟨calls, ran, _⟩
    by_contra long
    rw [broken long] at ran
    cases ran
  · exact whole

theorem reads_lines_iff_hello :
    ReadsLines true (List.replicate 8 0) .ok
      [.byte 0x68, .pause true, .byte 0x69, .byte cr, .pause false, .byte lf, .closed] :=
  (reads_lines_iff true (List.replicate 8 0) .ok _ (by decide)).mpr (by
    simp [Fits, received, linesOf, EndsLine, cr, lf])

/-- Four bytes in a buffer of four: the NUL is written behind it. -/
theorem line_fills_buffer :
    ¬ReadsLines true [0, 0, 0, 0] .ok [.byte 0x61, .byte 0x62, .byte cr, .byte lf, .closed] := by
  rintro ⟨calls, ran, _⟩
  have outside : readLines 4 true 6 [.byte 0x61, .byte 0x62, .byte cr, .byte lf, .closed]
      [0, 0, 0, 0] 0 .ok = none := rfl
  cases outside.symm.trans ran

end Xineliboutput.Http
