import Mathlib.Data.List.Induction
import Mathlib.Data.List.TakeWhile
import Xineliboutput.Foundation.Machine
import Xineliboutput.Foundation.Searches
import Xineliboutput.Ts.TsPacket

/-!
# The payload accumulator of `ts.c`

`ts_state_t` collects payload from the first packet that begins a payload unit, and drops
what lies in front of a start code. A copy that would leave the buffer has no result.
-/

namespace Xineliboutput.Ts

open Xineliboutput.Foundation

set_option autoImplicit false

/-- `ts_state_s`; `queued` is the first `buf_len` bytes of the buffer. -/
structure TsState where
  pusiSeen : Bool
  insidePes : Bool
  bufSize : Nat
  queued : List UInt8
  deriving DecidableEq

/-- `ts_state_init` -/
def tsStateInit (bufferSize : Nat) : TsState where
  pusiSeen := false
  insidePes := false
  bufSize := min (max bufferSize (8 * tsSize)) (4 * 1024 * 1024)
  queued := []

/-- The scan for 00 00 01: two bytes on where the second is not zero, as neither of them
begins a start code then. The scan ends when fewer than three bytes are left. -/
def scanStartcode : List UInt8 → List UInt8
  | byte0 :: byte1 :: byte2 :: rest =>
      if byte1 ≠ 0 then scanStartcode (byte2 :: rest)
      else if byte0 ≠ 0 then scanStartcode (byte1 :: byte2 :: rest)
      else if byte2 ≠ 1 then scanStartcode (byte1 :: byte2 :: rest)
      else byte0 :: byte1 :: byte2 :: rest
  | buf => buf

namespace TsState

variable (ts : TsState)

def reset : TsState := { ts with pusiSeen := false, insidePes := false, queued := [] }

/-- The oldest packet's worth of bytes is dropped from a full buffer. -/
def makeRoom : TsState :=
  if ts.bufSize - tsSize ≤ ts.queued.length then { ts with queued := ts.queued.drop tsSize }
  else ts

/-- `memcpy` of the payload behind the queued bytes. -/
def append (payload : List UInt8) : Option TsState :=
  if ts.queued.length + payload.length ≤ ts.bufSize then
    some { ts with queued := ts.queued ++ payload }
  else none

/-- `ts_add_payload`, with the number of bytes it returns. -/
def addPayload (data : TsPacket) : Option (TsState × Nat) :=
  if ts.pusiSeen = false ∧ data.payloadStart = false then some (ts, 0)
  else
    let begun := if ts.pusiSeen then ts else { ts with pusiSeen := true, queued := [] }
    if begun.bufSize < 2 * tsSize then some (begun, 0)
    else
      let room := begun.makeRoom
      if 0 < data.payloadSize then
        (room.append data.payload).map fun added => (added, added.queued.length)
      else some (room, room.queued.length)

/-- `ts_skip_payload` -/
def skipPayload (n : Nat) : TsState := { ts with queued := ts.queued.drop n }

/-- `ts_scan_startcode` -/
def scan : TsState := { ts with queued := scanStartcode ts.queued }

/-- `ts_get_pes`, with the number of bytes it returns. -/
def getPes (data : TsPacket) : Option (TsState × Nat) :=
  (ts.addPayload data).map fun (added, count) =>
    if 0 < count then (added.scan, added.scan.queued.length) else (added, 0)

end TsState
end Xineliboutput.Ts

/-!
# What the accumulator holds

Whatever packets come, the buffer is not overrun. As long as it has not been full, it holds
the payload from the first start code on, or the one or two bytes with which a start code
could begin, however the payload was cut into packets.
-/

namespace Xineliboutput.Ts

open Xineliboutput.Foundation

set_option autoImplicit false

def startCode : List UInt8 := [0, 0, 1]

theorem start_code_nonempty : startCode ≠ [] := by decide

theorem could_start_zero {byte : UInt8} {rest : List UInt8}
    (could : Marker.CouldStart startCode (byte :: rest)) : byte = 0 := by
  have begins := could.2
  simp only [startCode, List.length_cons, List.length_nil, List.take_succ_cons,
    List.cons_prefix_cons] at begins
  exact begins.1

theorem could_start_iff (byte0 byte1 byte2 : UInt8) (rest : List UInt8) :
    Marker.CouldStart startCode (byte0 :: byte1 :: byte2 :: rest) ↔
      byte0 = 0 ∧ byte1 = 0 ∧ byte2 = 1 := by
  simp [Marker.CouldStart, startCode]

theorem scan_startcode_held (buf : List UInt8) :
    Marker.Held startCode buf (scanStartcode buf) := by
  induction buf using scanStartcode.induct with
  | case1 byte0 byte1 byte2 rest second ih =>
      rw [scanStartcode, if_pos second]
      apply Marker.Held.drop_byte
      · simp [could_start_iff, second]
      · exact Marker.Held.drop_byte (fun could => second (could_start_zero could)) ih
  | case2 byte0 byte1 byte2 rest second first ih =>
      rw [scanStartcode, if_neg second, if_pos first]
      exact Marker.Held.drop_byte (by simp [could_start_iff, first]) ih
  | case3 byte0 byte1 byte2 rest second first third ih =>
      rw [scanStartcode, if_neg second, if_neg first, if_pos third]
      exact Marker.Held.drop_byte (by simp [could_start_iff, third]) ih
  | case4 byte0 byte1 byte2 rest second first third =>
      rw [scanStartcode, if_neg second, if_neg first, if_neg third]
      rw [not_not] at second first third
      subst second first third
      exact Marker.held_self (.inl ⟨rest, rfl⟩)
  | case5 buf short =>
      rw [scanStartcode.eq_2 buf short]
      apply Marker.held_self
      right
      match buf with
      | [] | [_] | [_, _] => simp [startCode]
      | byte0 :: byte1 :: byte2 :: rest => exact absurd rfl (short byte0 byte1 byte2 rest)

/-! ## One packet -/

namespace TsState

/-- A state that `ts_get_pes` can be called with. -/
structure Sound (ts : TsState) : Prop where
  size : 8 * tsSize ≤ ts.bufSize
  fits : ts.queued.length ≤ ts.bufSize
  fresh : ts.pusiSeen = false → ts.queued = []

theorem init_sound (bufferSize : Nat) : (tsStateInit bufferSize).Sound where
  size := by
    simp only [tsStateInit, tsSize]
    omega
  fits := Nat.zero_le _
  fresh := fun _ => rfl

theorem payload_length_le (data : TsPacket) : data.payload.length + 4 ≤ tsSize := by
  have headers := data.payload_offset_lower
  have length := data.payload_length
  simp only [tsSize] at length ⊢
  omega

theorem payload_nil {data : TsPacket} (empty : ¬ 0 < data.payloadSize) : data.payload = [] := by
  apply List.length_eq_zero_iff.mp
  have length := data.payload_length
  simp only [TsPacket.payloadSize, tsSize] at empty length
  omega

def Taking (ts : TsState) (data : TsPacket) : Prop :=
  ts.pusiSeen = true ∨ data.payloadStart = true

instance (ts : TsState) (data : TsPacket) : Decidable (ts.Taking data) :=
  inferInstanceAs (Decidable (_ ∨ _))

theorem make_room_fits {ts : TsState} (sound : ts.Sound) (data : TsPacket) :
    ts.makeRoom.queued.length + data.payload.length ≤ ts.bufSize := by
  have size := sound.size
  have fits := sound.fits
  have short := payload_length_le data
  simp only [tsSize] at size short
  unfold makeRoom
  split
  · rw [List.length_drop]
    simp only [tsSize]
    omega
  · rename_i room
    simp only [tsSize] at room
    omega

theorem begun_eq {ts : TsState} (sound : ts.Sound) :
    (if ts.pusiSeen then ts else { ts with pusiSeen := true, queued := [] }) =
      { ts with pusiSeen := true } := by
  cases seen : ts.pusiSeen with
  | true => rw [if_pos rfl, ← seen]
  | false =>
      rw [if_neg Bool.false_ne_true]
      simp only [sound.fresh seen]

def taken (ts : TsState) (data : TsPacket) : TsState :=
  { ts with pusiSeen := true, queued := scanStartcode (ts.makeRoom.queued ++ data.payload) }

theorem add_payload_taking {ts : TsState} (sound : ts.Sound) {data : TsPacket}
    (taking : ts.Taking data) :
    ts.addPayload data = some
      ({ ts with pusiSeen := true, queued := ts.makeRoom.queued ++ data.payload },
        (ts.makeRoom.queued ++ data.payload).length) := by
  have size := sound.size
  have fits := make_room_fits sound data
  have closed : ¬ (ts.pusiSeen = false ∧ data.payloadStart = false) := by
    rintro ⟨unseen, continues⟩
    rcases taking with seen | starts
    · simp [unseen] at seen
    · simp [continues] at starts
  have room : ({ ts with pusiSeen := true } : TsState).makeRoom =
      { ts with pusiSeen := true, queued := ts.makeRoom.queued } := by
    by_cases full : ts.bufSize - tsSize ≤ ts.queued.length
    · simp only [makeRoom, if_pos full]
    · simp only [makeRoom, if_neg full]
  rw [addPayload, if_neg closed, begun_eq sound]
  simp only [tsSize] at size ⊢
  rw [if_neg (by omega), room]
  split
  · simp only [append, if_pos fits, Option.map_some]
  · rename_i empty
    rw [payload_nil empty, List.append_nil]

theorem get_pes_taking {ts : TsState} (sound : ts.Sound) {data : TsPacket}
    (taking : ts.Taking data) :
    ts.getPes data = some (ts.taken data, (ts.taken data).queued.length) := by
  rw [getPes, add_payload_taking sound taking, Option.map_some]
  cases queue : ts.makeRoom.queued ++ data.payload with
  | nil => simp [taken, queue, scanStartcode]
  | cons byte rest => simp [taken, queue, scan]

theorem get_pes_waiting {ts : TsState} {data : TsPacket} (waiting : ¬ ts.Taking data) :
    ts.getPes data = some (ts, 0) := by
  have closed : ts.pusiSeen = false ∧ data.payloadStart = false := by
    simpa [Taking] using waiting
  rw [getPes, addPayload, if_pos closed]
  rfl

theorem taken_sound {ts : TsState} (sound : ts.Sound) (data : TsPacket) :
    (ts.taken data).Sound where
  size := sound.size
  fits := by
    have scanned := (scan_startcode_held (ts.makeRoom.queued ++ data.payload)).suffix.length_le
    rw [List.length_append] at scanned
    have fits := make_room_fits sound data
    simp only [taken]
    omega
  fresh := fun unseen => by cases unseen

end TsState

/-! ## Whole runs -/

/-- The state after some packets, and `none` if a copy has left the buffer. -/
def feedPes (ts : TsState) (packets : List TsPacket) : Option TsState :=
  Machine.follow (fun ts data => (ts.getPes data).map Prod.fst) ts packets

/-- The payloads from the first packet on that begins a payload unit. -/
def payloadStream (packets : List TsPacket) : List UInt8 :=
  (packets.dropWhile fun data => !data.payloadStart).flatMap TsPacket.payload

/-- The buffer was not full when a packet's payload was to be added. -/
def NeverFull (start : TsState) (packets : List TsPacket) : Prop :=
  ∀ count < packets.length, ∀ ts, feedPes start (packets.take count) = some ts →
    ts.queued.length < ts.bufSize - tsSize

theorem feed_pes_snoc (start : TsState) (packets : List TsPacket) (data : TsPacket) :
    feedPes start (packets ++ [data]) =
      (feedPes start packets).bind fun ts => (ts.getPes data).map Prod.fst := by
  rw [feedPes, Machine.follow_append]
  simp only [Machine.follow, Option.bind_fun_some]
  rfl

theorem payload_stream_waiting {packets : List TsPacket}
    (waiting : packets.any TsPacket.payloadStart = false) : payloadStream packets = [] := by
  have all_dropped : (packets.dropWhile fun data => !data.payloadStart) = [] := by
    simpa [List.dropWhile_eq_nil_iff] using waiting
  rw [payloadStream, all_dropped, List.flatMap_nil]

theorem payload_stream_taking (packets : List TsPacket) {data : TsPacket}
    (taking : (packets ++ [data]).any TsPacket.payloadStart = true) :
    payloadStream (packets ++ [data]) = payloadStream packets ++ data.payload := by
  rw [payloadStream, payloadStream, List.dropWhile_append]
  split
  · rename_i waiting
    rw [List.isEmpty_iff] at waiting
    have silent : packets.any TsPacket.payloadStart = false := by
      simpa [List.dropWhile_eq_nil_iff] using waiting
    rw [List.any_append, silent, Bool.false_or, List.any_cons, List.any_nil, Bool.or_false]
      at taking
    simp [waiting, taking]
  · simp

structure Fed (bufferSize : Nat) (packets : List TsPacket) (ts : TsState) : Prop where
  sound : ts.Sound
  size : ts.bufSize = (tsStateInit bufferSize).bufSize
  seen : ts.pusiSeen = packets.any TsPacket.payloadStart

theorem feed_pes_fed (bufferSize : Nat) (packets : List TsPacket) :
    ∃ ts, feedPes (tsStateInit bufferSize) packets = some ts ∧ Fed bufferSize packets ts := by
  induction packets using List.reverseRecOn with
  | nil => exact ⟨tsStateInit bufferSize, rfl, TsState.init_sound bufferSize, rfl, rfl⟩
  | append_singleton packets data ih =>
      obtain ⟨ts, fed, sound, size, seen⟩ := ih
      rw [feed_pes_snoc, fed, Option.bind_some]
      by_cases taking : ts.Taking data
      · rw [TsState.get_pes_taking sound taking]
        refine ⟨ts.taken data, rfl, TsState.taken_sound sound data, size, ?_⟩
        have started : (packets ++ [data]).any TsPacket.payloadStart = true := by
          rw [List.any_append, ← seen]
          simpa [TsState.Taking] using taking
        rw [started]
        rfl
      · rw [TsState.get_pes_waiting taking]
        refine ⟨ts, rfl, sound, size, ?_⟩
        have closed : ts.pusiSeen = false ∧ data.payloadStart = false := by
          simpa [TsState.Taking] using taking
        simp [List.any_append, ← seen, closed]

theorem NeverFull.before {start : TsState} {packets : List TsPacket} {data : TsPacket}
    (neverFull : NeverFull start (packets ++ [data])) : NeverFull start packets := by
  intro count within ts fed
  apply neverFull count (by simp; omega) ts
  rwa [List.take_append_of_le_length (Nat.le_of_lt within)]

theorem NeverFull.room {start ts : TsState} {packets : List TsPacket} {data : TsPacket}
    (neverFull : NeverFull start (packets ++ [data])) (fed : feedPes start packets = some ts) :
    ts.makeRoom = ts := by
  have room := neverFull packets.length (by simp) ts (by rw [List.take_left, fed])
  rw [TsState.makeRoom, if_neg (by omega)]

/-- A buffer that has never been full holds what a reader of the payload must hold. -/
theorem feed_pes_held {bufferSize : Nat} {packets : List TsPacket} {ts : TsState}
    (neverFull : NeverFull (tsStateInit bufferSize) packets)
    (fed : feedPes (tsStateInit bufferSize) packets = some ts) :
    Marker.Held startCode (payloadStream packets) ts.queued := by
  induction packets using List.reverseRecOn generalizing ts with
  | nil =>
      cases fed
      exact Marker.held_self (.inr (by decide))
  | append_singleton packets data ih =>
      obtain ⟨before, reached, sound, -, seen⟩ := feed_pes_fed bufferSize packets
      have held := ih neverFull.before reached
      rw [feed_pes_snoc, reached, Option.bind_some] at fed
      by_cases taking : before.Taking data
      · rw [TsState.get_pes_taking sound taking] at fed
        cases fed
        have started : (packets ++ [data]).any TsPacket.payloadStart = true := by
          rw [List.any_append, ← seen]
          simpa [TsState.Taking] using taking
        rw [payload_stream_taking packets started]
        simp only [TsState.taken, neverFull.room reached]
        exact held.append (scan_startcode_held _)
      · rw [TsState.get_pes_waiting taking] at fed
        cases fed
        have closed : before.pusiSeen = false ∧ data.payloadStart = false := by
          simpa [TsState.Taking] using taking
        have silent : packets.any TsPacket.payloadStart = false := by rw [← seen, closed.1]
        rw [payload_stream_waiting (by simp [List.any_append, silent, closed.2]),
          ← payload_stream_waiting silent]
        exact held

/-- The buffer is never overrun. As long as it has not been full it holds the payload
from the first start code on, or else one or two bytes that keep every beginning of one. -/
theorem accumulator (bufferSize : Nat) (packets : List TsPacket) :
    (∃ ts, feedPes (tsStateInit bufferSize) packets = some ts ∧
      ts.queued.length ≤ ts.bufSize) ∧
    (NeverFull (tsStateInit bufferSize) packets →
      ∀ ts, feedPes (tsStateInit bufferSize) packets = some ts →
        (∀ start, Marker.First startCode (payloadStream packets) start → ts.queued = start) ∧
        ((∀ start, ¬ Marker.First startCode (payloadStream packets) start) →
          ts.queued <:+ payloadStream packets ∧ ts.queued.length ≤ 2 ∧
            ∀ text, text <:+ payloadStream packets → Marker.CouldStart startCode text →
              text <:+ ts.queued)) ∧
    ∀ otherSize others, NeverFull (tsStateInit bufferSize) packets →
      NeverFull (tsStateInit otherSize) others → payloadStream others = payloadStream packets →
      ∀ ts other, feedPes (tsStateInit bufferSize) packets = some ts →
        feedPes (tsStateInit otherSize) others = some other →
        (Marker.Starts startCode ts.queued ↔ Marker.Starts startCode other.queued) ∧
          (Marker.Starts startCode ts.queued → other.queued = ts.queued) := by
  refine ⟨?_, ?_, ?_⟩
  · obtain ⟨ts, fed, sound, -⟩ := feed_pes_fed bufferSize packets
    exact ⟨ts, fed, sound.fits⟩
  · intro neverFull ts fed
    have held := feed_pes_held neverFull fed
    refine ⟨fun start first => held.first start_code_nonempty first, ?_⟩
    intro none_
    have short : ts.queued.length < startCode.length := by
      apply held.settled.resolve_left
      intro starts
      exact none_ _ (held.starts_first start_code_nonempty starts)
    exact ⟨held.suffix, Nat.le_of_lt_succ short, held.keeps⟩
  · intro otherSize others neverFull otherNeverFull same ts other fed otherFed
    have held := feed_pes_held neverFull fed
    have otherHeld := feed_pes_held otherNeverFull otherFed
    rw [same] at otherHeld
    have agree : Marker.Starts startCode ts.queued → other.queued = ts.queued := fun starts =>
      otherHeld.first start_code_nonempty (held.starts_first start_code_nonempty starts)
    refine ⟨⟨fun starts => (agree starts).symm ▸ starts, ?_⟩, agree⟩
    intro starts
    rw [held.first start_code_nonempty (otherHeld.starts_first start_code_nonempty starts)]
    exact starts

/-- A start code whose first two bytes end one packet and whose third begins the next. -/
def splitStartCode : List TsPacket :=
  [.startingWith [0x47, 0x40, 0, 0x30, 181] 0, .startingWith [0x47, 0, 0, 0x10] 1]

theorem accumulator_split_start_code :
    ∃ ts, feedPes (tsStateInit 0) splitStartCode = some ts ∧
      ∀ start, Marker.First startCode (payloadStream splitStartCode) start →
        ts.queued = start := by
  have roomy : ∀ count < 2, ((feedPes (tsStateInit 0) (splitStartCode.take count)).all fun ts =>
      decide (ts.queued.length < ts.bufSize - tsSize)) = true := by
    decide +kernel
  have neverFull : NeverFull (tsStateInit 0) splitStartCode := by
    intro count within ts fed
    have room := roomy count within
    rw [fed] at room
    simpa using room
  obtain ⟨⟨ts, fed, -⟩, holds, -⟩ := accumulator 0 splitStartCode
  exact ⟨ts, fed, (holds neverFull ts fed).1⟩

end Xineliboutput.Ts
