import Xineliboutput.Frontend.PesConversion
import Xineliboutput.Ts.ChangePts

/-!
# The PES headers of the demuxer

`parse_pes_for_pts` of `demux_xvdr.c` finds the payload and the timestamps of a PES packet. What
it finds in a packet that is well formed is what `pes.c` finds, and for a packet of MPEG 1 what
is found after its conversion, where it is converted.
-/

namespace Xineliboutput.Client

open Xineliboutput.Foundation
open Xineliboutput.Ts
open Xineliboutput.Frontend

set_option autoImplicit false

structure ParsedPes where
  headerLen : Nat
  packetLen : Int
  pts : Int
  dts : Int
  deriving DecidableEq

def joinStamp (first second third fourth fifth : UInt8) : Nat :=
  (first &&& 0x0e).toNat <<< 29 ||| second.toNat <<< 22 ||| (third &&& 0xfe).toNat <<< 14 |||
    fourth.toNat <<< 7 ||| (fifth &&& 0xfe).toNat >>> 1

/-- The five bytes from `p` on. -/
def readStamp (data : Packet) (p : Nat) : Option Int :=
  (data[p]?).bind fun first => (data[p + 1]?).bind fun second => (data[p + 2]?).bind fun third =>
    (data[p + 3]?).bind fun fourth => (data[p + 4]?).map fun fifth =>
      (joinStamp first second third fourth fifth : Int)

/-- The branch for MPEG 1. The index behind stuffing and buffer size is counted in the length of
the header, and taken from that of the packet. -/
def parseMpeg1 (data : Packet) (packetLen : Int) : Option ParsedPes :=
  (skipFields data).bind fun p => (data[p]?).bind fun first =>
    if first &&& 0xf0 = 0x20 then
      (readStamp data p).map fun pts => ⟨p + 5, packetLen - (p - 6) - 5, pts, 0⟩
    else if first &&& 0xf0 = 0x30 then
      (readStamp data p).bind fun pts => (readStamp data (p + 5)).map fun dts =>
        ⟨p + 10, packetLen - (p - 6) - 10, pts, dts⟩
    else some ⟨p + 1, packetLen - (p - 6) - 1, 0, 0⟩

def parseMpeg2 (data : Packet) (packetLen : Int) : Option ParsedPes :=
  (data[7]?).bind fun flags =>
    (if flags &&& 0x80 ≠ 0 then readStamp data 9 else some 0).bind fun pts =>
      (if flags &&& 0x40 ≠ 0 then readStamp data 14 else some 0).bind fun dts =>
        (data[8]?).map fun headerLen =>
          ⟨headerLen.toNat + 9, packetLen - (headerLen.toNat + 3), pts, dts⟩

/-- `parse_pes_for_pts`; the inner `none` is the result -1, with the buffer freed. -/
def parsePesForPts (data : Packet) : Option (Option ParsedPes) :=
  (data[4]?).bind fun high => (data[5]?).bind fun low => (data[6]?).bind fun marker =>
    let packetLen : Int := (high.toNat * 256 + low.toNat : Nat)
    if marker &&& 0xc0 ≠ 0x80 then (parseMpeg1 data packetLen).map some
    else if marker &&& 0x30 ≠ 0 then some none
    else (parseMpeg2 data packetLen).map some

/-! ## Packets -/

structure Delimits (packet payload : List UInt8) (parsed : ParsedPes) : Prop where
  natural : 0 ≤ parsed.packetLen
  inside : parsed.headerLen + parsed.packetLen ≤ packet.length
  same : (packet.drop parsed.headerLen).take parsed.packetLen.toNat = payload

/-- The demuxer has 0 where `pes.c` has `NO_PTS`. -/
def orZero (pts : Int) : Int := if pts = noPts then 0 else pts

structure WellFormed (packet : Packet) : Prop where
  start : packet.take 3 = [0, 0, 1]
  stream : ∃ streamId, packet[3]? = some streamId ∧
    (isVideoPacket streamId || isAudioPacket streamId) = true
  length : pesLength packet + 6 = packet.length

/-- A header of MPEG 2 without scrambling. It has room for the timestamps that its flags
announce, and for anything else. -/
structure HasMpeg2Header (packet : Packet) : Prop where
  marker : byteAt packet 6 &&& 0xf0 = 0x80
  whole : 9 + (byteAt packet 8).toNat ≤ packet.length
  pts : byteAt packet 7 &&& 0x80 ≠ 0 → 5 ≤ (byteAt packet 8).toNat
  dts : byteAt packet 7 &&& 0x40 ≠ 0 → 10 ≤ (byteAt packet 8).toNat

structure WellFormedMpeg2 (packet : Packet) : Prop
    extends WellFormed packet, HasMpeg2Header packet

/-- A packet of MPEG 1 with what follows its stuffing and the fields of the buffer size. -/
structure WellFormedMpeg1 (packet : Packet) (body : List UInt8) : Prop
    extends WellFormed packet where
  marker : byteAt packet 6 &&& 0xc0 ≠ 0x80
  found : mpeg1Body packet = some body
  complete : Complete body

/-- The demuxer and `pes.c` on the same packet. -/
def Agrees (packet : Packet) : Prop :=
  ∃ parsed pts dts, parsePesForPts packet = some (some parsed) ∧
    Delimits packet (pesPayload packet) parsed ∧
    (pesGetPts packet.length).run (Memory.ofList packet) = some pts ∧ parsed.pts = orZero pts ∧
    (pesGetDts packet.length).run (Memory.ofList packet) = some dts ∧ parsed.dts = orZero dts

def Finds (packet : Packet) (body : List UInt8) : Prop :=
  ∃ parsed, parsePesForPts packet = some (some parsed) ∧
    Delimits packet (mpeg1Payload body) parsed ∧ parsed.pts = orZero (mpeg1Pts body) ∧
    parsed.dts = orZero (mpeg1Dts body)

/-- A packet is played after its conversion, and the demuxer finds the same in it. -/
def FindsConverted (play : Packet → Int) (packet : Packet) (body : List UInt8) : Prop :=
  ∃ converted result, playMpeg1Pes play packet = some (some converted, result) ∧
    Finds converted body

/-! ## Timestamps -/

section Stamps

variable {data rest body : List UInt8} {p : Nat}

theorem join_stamp_value (first second third fourth fifth : UInt8) :
    joinStamp first second third fourth fifth =
      (first &&& 0x0e).toNat * 536870912 + second.toNat * 4194304 +
        (third &&& 0xfe).toNat * 16384 + fourth.toNat * 128 + (fifth &&& 0xfe).toNat / 2 := by
  have second' := second.toNat_lt
  have third' := third.toNat_lt
  have fourth' := fourth.toNat_lt
  have fifth' := fifth.toNat_lt
  have top : (first.toNat % 16 / 2 * 2) <<< 29 = 2 ^ 30 * (first.toNat % 16 / 2) := by
    rw [Nat.shiftLeft_eq]
    omega
  have middle : (third.toNat / 2 * 2) <<< 14 = 2 ^ 15 * (third.toNat / 2) := by
    rw [Nat.shiftLeft_eq]
    omega
  have bottom : (fifth.toNat / 2 * 2) >>> 1 = fifth.toNat / 2 := by
    rw [Nat.shiftRight_eq_div_pow]
    omega
  have low : 2 ^ 7 * fourth.toNat ||| fifth.toNat / 2 = 2 ^ 7 * fourth.toNat + fifth.toNat / 2 :=
    (Nat.two_pow_add_eq_or_of_lt (by omega) _).symm
  have lower : 2 ^ 15 * (third.toNat / 2) ||| (2 ^ 7 * fourth.toNat + fifth.toNat / 2) =
      2 ^ 15 * (third.toNat / 2) + (2 ^ 7 * fourth.toNat + fifth.toNat / 2) :=
    (Nat.two_pow_add_eq_or_of_lt (by omega) _).symm
  have upper : 2 ^ 22 * second.toNat |||
      (2 ^ 15 * (third.toNat / 2) + (2 ^ 7 * fourth.toNat + fifth.toNat / 2)) =
        2 ^ 22 * second.toNat +
          (2 ^ 15 * (third.toNat / 2) + (2 ^ 7 * fourth.toNat + fifth.toNat / 2)) :=
    (Nat.two_pow_add_eq_or_of_lt (by omega) _).symm
  rw [joinStamp, and_0e_value, and_fe_value, and_fe_value, top, middle, bottom, Nat.shiftLeft_eq,
    Nat.shiftLeft_eq, Nat.mul_comm second.toNat, Nat.mul_comm fourth.toNat, Nat.or_assoc,
    Nat.or_assoc, Nat.or_assoc, low, lower, upper,
    ← Nat.two_pow_add_eq_or_of_lt (by omega)]
  omega

theorem read_stamp (behind : data.drop p = rest) (long : 5 ≤ rest.length) :
    readStamp data p = some (timestampOf rest) := by
  have first := read_of_drop behind (show 0 < rest.length by omega)
  rw [Nat.add_zero] at first
  rw [readStamp, first, Option.bind_some, read_of_drop behind (show 1 < rest.length by omega),
    Option.bind_some, read_of_drop behind (show 2 < rest.length by omega), Option.bind_some,
    read_of_drop behind (show 3 < rest.length by omega), Option.bind_some,
    read_of_drop behind (show 4 < rest.length by omega), Option.map_some, join_stamp_value]
  rfl

theorem timestamp_of_ne (bytes : List UInt8) : timestampOf bytes ≠ noPts := by
  rw [timestampOf, noPts]
  omega

theorem or_zero_timestamp (bytes : List UInt8) : orZero (timestampOf bytes) = timestampOf bytes :=
  if_neg (timestamp_of_ne bytes)

end Stamps

/-! ## MPEG 2 -/

section Mpeg2

variable {packet : Packet} {streamId : UInt8}

theorem byte_at {index : Nat} (inside : index < packet.length) :
    packet[index]? = some (byteAt packet index) := by
  rw [byteAt, List.getD_eq_getElem?_getD, List.getElem?_eq_getElem inside, Option.getD_some]

theorem HasMpeg2Header.marks (header : HasMpeg2Header packet) :
    byteAt packet 6 &&& 0xc0 = 0x80 ∧ byteAt packet 6 &&& 0x30 = 0 := by
  have upper : (0xc0 : UInt8) = 0xf0 &&& 0xc0 := by decide
  have lower : (0x30 : UInt8) = 0xf0 &&& 0x30 := by decide
  constructor
  · rw [upper, ← UInt8.and_assoc, header.marker]
    decide
  · rw [lower, ← UInt8.and_assoc, header.marker]
    decide

theorem stamp_agrees (header : HasMpeg2Header packet) (stream : packet[3]? = some streamId)
    (known : (isVideoPacket streamId || isAudioPacket streamId) = true) {flag : UInt8} {place : Nat}
    (room : byteAt packet 7 &&& flag ≠ 0 → place + 5 ≤ packet.length) :
    ∃ stamp, (if byteAt packet 7 &&& flag ≠ 0 then readStamp packet place else some 0) =
        some (orZero stamp) ∧
      (timestampAt place (place + 4) flag packet.length).run (Memory.ofList packet) =
        some stamp := by
  have whole := header.whole
  rw [timestamp_at_run stream known (byte_at (by omega)) header.marks.1 header.marks.2
    (byte_at (by omega))]
  by_cases flagged : byteAt packet 7 &&& flag ≠ 0
  · have fits := room flagged
    have long : 5 ≤ (packet.drop place).length := by
      rw [List.length_drop]
      omega
    refine ⟨timestampOf (packet.drop place), ?_, ?_⟩
    · rw [if_pos flagged, read_stamp rfl long, or_zero_timestamp]
    · rw [if_pos ⟨by omega, flagged⟩, parse_timestamp_run rfl long]
  · exact ⟨noPts, if_neg flagged, if_neg fun both => flagged both.2⟩

theorem parse_mpeg2_header (header : HasMpeg2Header packet) (stream : packet[3]? = some streamId)
    (known : (isVideoPacket streamId || isAudioPacket streamId) = true) :
    ∃ pts dts, parsePesForPts packet = some (some ⟨(byteAt packet 8).toNat + 9,
        pesLength packet - ((byteAt packet 8).toNat + 3), orZero pts, orZero dts⟩) ∧
      (pesGetPts packet.length).run (Memory.ofList packet) = some pts ∧
      (pesGetDts packet.length).run (Memory.ofList packet) = some dts := by
  have whole := header.whole
  obtain ⟨pts, read, get⟩ := @stamp_agrees packet streamId header stream known 0x80 9
    fun flagged => by have room := header.pts flagged; omega
  obtain ⟨dts, read', get'⟩ := @stamp_agrees packet streamId header stream known 0x40 14
    fun flagged => by have room := header.dts flagged; omega
  refine ⟨pts, dts, ?_, get, get'⟩
  rw [parsePesForPts, byte_at (by omega), Option.bind_some, byte_at (by omega), Option.bind_some,
    byte_at (by omega), Option.bind_some]
  dsimp only
  rw [if_neg (not_not_intro header.marks.1), if_neg (not_not_intro header.marks.2), parseMpeg2,
    byte_at (by omega), Option.bind_some, read, Option.bind_some, read', Option.bind_some,
    byte_at (by omega)]
  rfl

theorem delimits_payload {parsed : ParsedPes} (whole : 9 + (byteAt packet 8).toNat ≤ packet.length)
    (length : pesLength packet + 6 = packet.length)
    (header : parsed.headerLen = (byteAt packet 8).toNat + 9)
    (rest : parsed.packetLen = pesLength packet - ((byteAt packet 8).toNat + 3)) :
    Delimits packet (pesPayload packet) parsed := by
  have size : (parsed.headerLen : Int) + parsed.packetLen = packet.length := by
    rw [header, rest]
    omega
  refine ⟨by omega, by omega, ?_⟩
  have all : parsed.packetLen.toNat = (packet.drop parsed.headerLen).length := by
    rw [List.length_drop]
    omega
  rw [all, List.take_length, header, Nat.add_comm]
  rfl

theorem WellFormedMpeg2.agrees (formed : WellFormedMpeg2 packet) : Agrees packet := by
  obtain ⟨streamId, stream, known⟩ := formed.stream
  obtain ⟨pts, dts, parsed, get, get'⟩ :=
    parse_mpeg2_header formed.toHasMpeg2Header stream known
  exact ⟨_, pts, dts, parsed, delimits_payload formed.whole formed.length rfl rfl, get, rfl, get',
    rfl⟩

end Mpeg2

/-! ## MPEG 1 -/

section Mpeg1

variable {packet : Packet} {body : List UInt8} {streamId : UInt8} {play : Packet → Int}

theorem body_pos (complete : Complete body) : 1 ≤ body.length ∧
    (withPts body → 5 ≤ body.length) ∧ (withDts body → 10 ≤ body.length) := by
  rw [Complete, stampLength] at complete
  refine ⟨?_, ?_, ?_⟩
  · split at complete <;> [skip; split at complete] <;> omega
  · intro pts
    rw [if_pos pts] at complete
    split at complete <;> omega
  · intro dts
    rw [if_pos dts] at complete
    exact complete

theorem parse_mpeg1 (found : mpeg1Body packet = some body) (complete : Complete body)
    (packetLen : Int) :
    ∃ i1, packet.drop i1 = body ∧ parseMpeg1 packet packetLen =
      some ⟨i1 + stampLength body, packetLen - (i1 - 6) - stampLength body,
        orZero (mpeg1Pts body), orZero (mpeg1Dts body)⟩ := by
  obtain ⟨i1, skipped, behind⟩ := skip_fields_some found
  obtain ⟨some', five, ten⟩ := body_pos complete
  have first := read_of_drop behind (show 0 < body.length by omega)
  have second : packet.drop (i1 + 5) = body.drop 5 := by rw [← List.drop_drop, behind]
  rw [Nat.add_zero] at first
  refine ⟨i1, behind, ?_⟩
  rw [parseMpeg1, skipped, Option.bind_some, first, Option.bind_some, stampLength, mpeg1Pts,
    mpeg1Dts]
  by_cases both : body.getD 0 0 &&& 0xf0 = 0x30
  · have other : ¬body.getD 0 0 &&& 0xf0 = 0x20 := by rw [both]; decide
    have dts : withDts body := has_dts_iff.mpr both
    have pts := dts_has_pts dts
    have long := ten dts
    rw [if_neg other, if_pos both, if_pos dts, if_pos dts, if_pos pts,
      read_stamp behind (five pts), Option.bind_some,
      read_stamp second (by rw [List.length_drop]; omega), or_zero_timestamp, or_zero_timestamp]
    rfl
  · have dts : ¬withDts body := mt has_dts_iff.mp both
    by_cases one : body.getD 0 0 &&& 0xf0 = 0x20
    · have pts : withPts body := has_pts_iff.mpr (.inl one)
      rw [if_pos one, if_neg dts, if_neg dts, if_pos pts, if_pos pts,
        read_stamp behind (five pts), or_zero_timestamp]
      rfl
    · have pts : ¬withPts body := mt has_pts_iff.mp (not_or.mpr ⟨one, both⟩)
      rw [if_neg one, if_neg both, if_neg dts, if_neg dts, if_neg pts, if_neg pts]
      rfl

theorem body_behind_header (found : mpeg1Body packet = some body) : 6 < packet.length := by
  by_contra short
  rw [mpeg1Body, List.drop_eq_nil_iff.mpr (by omega)] at found
  cases found

theorem WellFormedMpeg1.finds (formed : WellFormedMpeg1 packet body) : Finds packet body := by
  have long := body_behind_header formed.found
  have length := formed.length
  obtain ⟨i1, behind, parsed⟩ := parse_mpeg1 formed.found formed.complete (pesLength packet)
  have size := congrArg List.length behind
  have complete := formed.complete
  obtain ⟨some', _, _⟩ := body_pos complete
  rw [List.length_drop] at size
  rw [Complete] at complete
  have payload : (mpeg1Payload body).length = packet.length - (i1 + stampLength body) := by
    rw [mpeg1Payload, List.length_drop]
    omega
  refine ⟨⟨i1 + stampLength body, (pesLength packet : Int) - (i1 - 6) - stampLength body,
    orZero (mpeg1Pts body), orZero (mpeg1Dts body)⟩, ?_, ⟨?_, ?_, ?_⟩, rfl, rfl⟩
  · rw [parsePesForPts, byte_at (by omega), Option.bind_some, byte_at (by omega),
      Option.bind_some, byte_at long, Option.bind_some]
    dsimp only
    rw [if_pos formed.marker]
    change (parseMpeg1 packet (pesLength packet)).map some = _
    rw [parsed]
    rfl
  · dsimp only
    omega
  · dsimp only
    omega
  · dsimp only
    have all : ((pesLength packet : Int) - (i1 - 6) - stampLength body).toNat =
        (mpeg1Payload body).length := by
      rw [payload]
      omega
    rw [all, ← List.drop_drop, behind]
    exact List.take_length

/-! The converted packet has a header of MPEG 2. -/

theorem converted_bytes_shape (body : List UInt8) :
    ∃ flags amount stamps, convertedBytes body = 0x80 :: flags :: amount :: stamps ∧
      stamps.length = amount.toNat ∧ (flags &&& 0x80 ≠ 0 → 5 ≤ amount.toNat) ∧
      (flags &&& 0x40 ≠ 0 → 10 ≤ amount.toNat) := by
  rw [convertedBytes]
  split
  · exact ⟨0xc0, 10, _, rfl, rfl, by decide, by decide⟩
  · split
    · exact ⟨0x80, 5, _, rfl, rfl, by decide, by decide⟩
    · exact ⟨0, 0, [], rfl, rfl, by decide, by decide⟩

theorem mpeg2_packet_header (streamId : UInt8) (body : List UInt8) :
    HasMpeg2Header (mpeg2Packet streamId body) ∧
      9 + (byteAt (mpeg2Packet streamId body) 8).toNat + (mpeg1Payload body).length =
        (mpeg2Packet streamId body).length := by
  obtain ⟨flags, amount, stamps, bytes, many, pts, dts⟩ := converted_bytes_shape body
  have flag : byteAt (mpeg2Packet streamId body) 7 = flags := by
    rw [mpeg2Packet, bytes]
    rfl
  have count : byteAt (mpeg2Packet streamId body) 8 = amount := by
    rw [mpeg2Packet, bytes]
    rfl
  have marker : byteAt (mpeg2Packet streamId body) 6 = 0x80 := by
    rw [mpeg2Packet, bytes]
    rfl
  have size : (mpeg2Packet streamId body).length =
      9 + amount.toNat + (mpeg1Payload body).length := by
    rw [mpeg2Packet, bytes, List.length_append, List.length_append]
    simp only [List.length_cons, List.length_nil, many]
    omega
  refine ⟨⟨?_, ?_, ?_, ?_⟩, ?_⟩
  · rw [marker]
    decide
  · rw [count, size]
    omega
  · rw [flag, count]
    exact pts
  · rw [flag, count]
    exact dts
  · rw [count, size]

/-- What is found in the converted packet is right as long as the new length has two bytes. -/
theorem finds_mpeg2_packet_iff
    (known : (isVideoPacket streamId || isAudioPacket streamId) = true) :
    Finds (mpeg2Packet streamId body) body ↔ newLength body < 2 ^ 16 := by
  obtain ⟨header, size⟩ := mpeg2_packet_header streamId body
  obtain ⟨pts, dts, parses, get, get'⟩ := parse_mpeg2_header header rfl known
  constructor
  · rintro ⟨parsed, parses', delimits, _, _⟩
    obtain rfl := Option.some.inj (Option.some.inj (parses.symm.trans parses'))
    have count := congrArg List.length delimits.same
    have natural := delimits.natural
    have whole := mpeg2_packet_length streamId body
    have bound := pes_length_lt (mpeg2Packet streamId body)
    rw [List.length_take] at count
    dsimp only at count natural
    omega
  · intro fits
    have carries := @mpeg2_packet_carries body streamId known fits
    refine ⟨_, parses, ?_, ?_, ?_⟩
    · rw [← carries.payload]
      exact delimits_payload header.whole carries.length rfl rfl
    · rw [← Option.some.inj (get.symm.trans carries.pts)]
    · rw [← Option.some.inj (get'.symm.trans carries.dts)]

theorem WellFormedMpeg1.enters (formed : WellFormedMpeg1 packet body) :
    entryTest packet = some (decide (7 < packet.length)) := by
  obtain ⟨streamId, stream, known⟩ := formed.stream
  have length := formed.length
  have marker := formed.marker
  have start := formed.start
  rcases packet with _ | ⟨first, _ | ⟨second, _ | ⟨third, rest⟩⟩⟩
  · cases start
  · cases start
  · cases start
  · obtain ⟨rfl, start'⟩ := List.cons.inj start
    obtain ⟨rfl, start''⟩ := List.cons.inj start'
    obtain ⟨rfl, _⟩ := List.cons.inj start''
    by_cases short : rest.length < 5
    · rw [entry_test_short short, List.length_cons, List.length_cons, List.length_cons,
        decide_eq_false (by omega)]
    · obtain ⟨other, high, low, mark, last, others, rfl⟩ := eight_bytes (Nat.not_lt.mp short)
      obtain rfl : other = streamId := Option.some.inj stream
      change high.toNat * 256 + low.toNat + 6 = others.length + 8 at length
      change mark &&& 0xc0 ≠ 0x80 at marker
      have long : 7 < (0 :: 0 :: 1 :: other :: high :: low :: mark :: last :: others).length := by
        simp only [List.length_cons]
        omega
      rw [entry_test_long, known, decide_eq_true long]
      simp [marker, length]

theorem body_length_le (found : mpeg1Body packet = some body) : body.length ≤ packet.length - 6 := by
  have dropped : ((packet.drop 6).dropWhile fun byte => byte &&& 0x80 = 0x80).length ≤
      (packet.drop 6).length := (List.dropWhile_suffix _).length_le
  rw [List.length_drop] at dropped
  rw [mpeg1Body] at found
  split at found
  · cases found
  · next first behind parts =>
      rw [parts, List.length_cons] at dropped
      obtain rfl := Option.some.inj found
      split
      · rw [List.length_drop]
        omega
      · rw [List.length_cons]
        exact dropped

theorem payload_length (complete : Complete body) :
    (mpeg1Payload body).length + stampLength body = body.length := by
  rw [Complete] at complete
  rw [mpeg1Payload, List.length_drop]
  omega

/-- The conversion looks for five bytes, which a header without timestamps and a short payload
do not have together. -/
theorem five_bytes_iff (complete : Complete body) :
    5 ≤ body.length ↔ withPts body ∨ 4 ≤ (mpeg1Payload body).length := by
  have length := payload_length complete
  by_cases pts : withPts body
  · exact iff_of_true ((body_pos complete).2.1 pts) (.inl pts)
  · have dts : ¬withDts body := fun dts => pts (dts_has_pts dts)
    rw [stampLength, if_neg dts, if_neg pts] at length
    constructor
    · intro long
      exact .inr (by omega)
    · rintro (absurd' | long)
      · exact absurd absurd' pts
      · omega

theorem WellFormedMpeg1.converted_iff (formed : WellFormedMpeg1 packet body) :
    FindsConverted play packet body ↔
      mpeg1Payload body ≠ [] ∧ (withPts body ∨ 4 ≤ (mpeg1Payload body).length) ∧
        newLength body < 2 ^ 16 := by
  have enters := formed.enters
  rw [← five_bytes_iff formed.complete]
  by_cases long : 7 < packet.length
  · rw [decide_eq_true long] at enters
    by_cases five : 5 ≤ body.length
    · obtain ⟨streamId, known, plays⟩ :=
        @play_complete packet body play enters formed.found five formed.complete
      by_cases empty : mpeg1Payload body = []
      · rw [if_neg (not_not_intro empty)] at plays
        refine iff_of_false ?_ fun held => held.1 empty
        rintro ⟨converted, result, played, _⟩
        rw [plays] at played
        cases played
      · rw [if_pos empty] at plays
        have found : FindsConverted play packet body ↔ Finds (mpeg2Packet streamId body) body := by
          constructor
          · rintro ⟨converted, result, played, found⟩
            rw [plays] at played
            obtain ⟨same, _⟩ := Prod.mk.inj (Option.some.inj played)
            rw [Option.some.inj same]
            exact found
          · exact fun found => ⟨_, _, plays, found⟩
        rw [found, finds_mpeg2_packet_iff known]
        exact ⟨fun fits => ⟨empty, five, fits⟩, fun held => held.2.2⟩
    · refine iff_of_false ?_ fun held => five held.2.1
      rintro ⟨converted, result, played, _⟩
      rw [play_short enters formed.found (Nat.not_le.mp five)] at played
      cases played
  · rw [decide_eq_false long] at enters
    have small := body_length_le formed.found
    refine iff_of_false ?_ fun held => by have five := held.2.1; omega
    rintro ⟨converted, result, played, _⟩
    rw [play_refused enters] at played
    cases played

end Mpeg1

/-- On a packet that is well formed the demuxer agrees with `pes.c`, and finds payload and
timestamps of MPEG 1. It finds the same after the conversion exactly where there is a payload, of
four bytes at least if there is no timestamp, and the new length has two bytes. -/
theorem pes_parsers_agree (play : Packet → Int) (packet : Packet) :
    (WellFormedMpeg2 packet → Agrees packet) ∧
      ∀ body, WellFormedMpeg1 packet body → Finds packet body ∧
        (FindsConverted play packet body ↔
          mpeg1Payload body ≠ [] ∧ (withPts body ∨ 4 ≤ (mpeg1Payload body).length) ∧
            newLength body < 2 ^ 16) :=
  ⟨WellFormedMpeg2.agrees, fun _ formed => ⟨formed.finds, formed.converted_iff⟩⟩

/-- A video packet of MPEG 1 with a timestamp and a byte of payload. -/
def stampedMpeg1 : Packet := [0, 0, 1, 0xe0, 0, 6, 0x21, 0, 1, 0, 1, 0x55]

theorem pes_parsers_agree_stamped :
    Agrees stampedPacket ∧ Finds stampedMpeg1 (stampedMpeg1.drop 6) ∧
      FindsConverted (fun packet => packet.length) stampedMpeg1 (stampedMpeg1.drop 6) := by
  have second := (pes_parsers_agree (fun packet => packet.length) stampedMpeg1).2
    (stampedMpeg1.drop 6) ⟨⟨rfl, ⟨0xe0, rfl, by decide⟩, by decide⟩, by decide, by decide,
      by decide⟩
  refine ⟨(pes_parsers_agree (fun _ => 0) stampedPacket).1 ?_, second.1, second.2.mpr ?_⟩
  · exact ⟨⟨rfl, ⟨0xe0, rfl, by decide⟩, by decide⟩, by decide, by decide, by decide, by decide⟩
  · decide

/-- Three bytes of payload without a timestamp are not converted. -/
theorem three_bytes_lost :
    WellFormedMpeg1 [0, 0, 1, 0xe0, 0, 4, 0x0f, 1, 2, 3] [0x0f, 1, 2, 3] ∧
      ¬FindsConverted (fun packet => packet.length) [0, 0, 1, 0xe0, 0, 4, 0x0f, 1, 2, 3]
        [0x0f, 1, 2, 3] := by
  constructor
  · exact ⟨⟨rfl, ⟨0xe0, rfl, by decide⟩, by decide⟩, by decide, by decide,
      by decide⟩
  · rintro ⟨converted, result, played, _⟩
    have kept : playMpeg1Pes (fun packet => packet.length) [0, 0, 1, 0xe0, 0, 4, 0x0f, 1, 2, 3] =
        some (none, 10) := by decide
    rw [kept] at played
    cases played

end Xineliboutput.Client
